import Mathlib

/-!
# Layers of a relation

A relation says what needs what. The layers are counted from below: a member stands at depth `n` when the longest chain of needs under it has `n` links. A
member has chains of every length exactly when it needs, directly or not, something that needs itself.
-/

namespace Layers

variable {α : Type*} (needs : α → α → Prop)

/-- There is a chain of `n` needs that begins with `x`. -/
def Chain : Nat → α → Prop
  | 0, _ => True
  | n + 1, x => ∃ d, needs x d ∧ Chain n d

/-- The longest chain that begins with `x` has `n` links. -/
def AtDepth (n : Nat) (x : α) : Prop := Chain needs n x ∧ ¬ Chain needs (n + 1) x

/-- `x` needs, directly or not, a member of a cycle; a member of a cycle does so too. -/
def ReachesCycle (x : α) : Prop := ∃ c, Relation.ReflTransGen needs x c ∧ Relation.TransGen needs c c

/-- Nothing needs itself. -/
def Acyclic : Prop := ∀ x, ¬ Relation.TransGen needs x x

variable {needs}

/-- A chain holds a shorter one. -/
theorem Chain.shorter {n : Nat} {x : α} (h : Chain needs (n + 1) x) : Chain needs n x := by
  induction n generalizing x with
  | zero => trivial
  | succ n ih =>
    obtain ⟨d, hd, h⟩ := h
    exact ⟨d, hd, ih h⟩

theorem Chain.mono {m n : Nat} {x : α} (h : Chain needs n x) (hle : m ≤ n) : Chain needs m x := by
  induction hle with
  | refl => exact h
  | step _ ih => exact ih h.shorter

/-- What reaches a cycle needs something that does. -/
theorem ReachesCycle.step {x : α} (h : ReachesCycle needs x) : ∃ d, needs x d ∧ ReachesCycle needs d := by
  obtain ⟨c, hpath, hcycle⟩ := h
  rcases Relation.ReflTransGen.cases_head hpath with rfl | ⟨d, hd, hrest⟩
  · obtain ⟨d, hd, hback⟩ := Relation.TransGen.head'_iff.1 hcycle
    exact ⟨d, hd, x, hback, hcycle⟩
  · exact ⟨d, hd, c, hrest, hcycle⟩

/-- What reaches a cycle begins chains of every length. -/
theorem ReachesCycle.chain {x : α} (h : ReachesCycle needs x) (n : Nat) : Chain needs n x := by
  induction n generalizing x with
  | zero => trivial
  | succ n ih =>
    obtain ⟨d, hd, hreaches⟩ := h.step
    exact ⟨d, hd, ih hreaches⟩

/-- Following one need after another leads from the earlier to the later. -/
theorem reflTransGen_iterate {S : Type*} {val : S → α} {next : S → S} (hnext : ∀ s, needs (val s) (val (next s))) (s : S) (n : Nat) :
    Relation.ReflTransGen needs (val s) (val (next^[n] s)) := by
  induction n with
  | zero => exact .refl
  | succ n ih =>
    rw [Function.iterate_succ_apply']
    exact ih.tail (hnext _)

theorem transGen_iterate {S : Type*} {val : S → α} {next : S → S} (hnext : ∀ s, needs (val s) (val (next s))) (s : S) {n : Nat} (hn : 0 < n) :
    Relation.TransGen needs (val s) (val (next^[n] s)) := by
  obtain ⟨m, rfl⟩ := Nat.exists_eq_succ_of_ne_zero (Nat.pos_iff_ne_zero.1 hn)
  rw [Function.iterate_succ_apply']
  exact Relation.TransGen.tail' (reflTransGen_iterate hnext s m) (hnext _)

/-- In a finite list each member of which needs a member of it, every member reaches a cycle. -/
theorem reachesCycle_of_closed {members : List α} (h : ∀ x ∈ members, ∃ d ∈ members, needs x d) {x : α} (hx : x ∈ members) : ReachesCycle needs x := by
  choose next hmem hneeds using h
  let step : {y // y ∈ members} → {y // y ∈ members} := fun y => ⟨next y.1 y.2, hmem y.1 y.2⟩
  have hstep : ∀ y : {y // y ∈ members}, needs y.1 (step y).1 := fun y => hneeds y.1 y.2
  have hfinite : Finite {y // y ∈ members} := by
    classical
    have := Fintype.subtype members.toFinset fun y => List.mem_toFinset
    exact Finite.of_fintype _
  -- two of the members that are met one after another are the same
  obtain ⟨i, j, hne, heq⟩ := Finite.exists_ne_map_eq_of_infinite fun n : Nat => step^[n] ⟨x, hx⟩
  wlog hlt : i < j generalizing i j
  · exact this j i hne.symm heq.symm (by omega)
  have hsplit : step^[j] ⟨x, hx⟩ = step^[j - i] (step^[i] ⟨x, hx⟩) := by
    rw [← Function.iterate_add_apply, Nat.sub_add_cancel hlt.le]
  have hcycle := transGen_iterate hstep (step^[i] ⟨x, hx⟩) (Nat.sub_pos_of_lt hlt)
  rw [← hsplit, ← heq] at hcycle
  exact ⟨_, reflTransGen_iterate hstep ⟨x, hx⟩ i, hcycle⟩

/-- Without a cycle nothing reaches one. -/
theorem Acyclic.not_reachesCycle (h : Acyclic needs) (x : α) : ¬ ReachesCycle needs x := fun ⟨c, _, hcycle⟩ => h c hcycle

theorem reachesCycle_of_transGen {x : α} (h : Relation.TransGen needs x x) : ReachesCycle needs x := ⟨x, .refl, h⟩

/-! ## What stands before what -/

variable [DecidableEq α]

/-- In a list with no member twice, what stands before another has the smaller position. -/
theorem idxOf_lt_of_sublist {l : List α} (hl : l.Nodup) {x y : α} (h : List.Sublist [x, y] l) : l.idxOf x < l.idxOf y := by
  induction l with
  | nil => cases h
  | cons z l ih =>
    rw [List.nodup_cons] at hl
    cases h with
    | cons _ h =>
      have hx : x ∈ l := h.subset (by simp)
      have hy : y ∈ l := h.subset (by simp)
      have hzx : z ≠ x := fun heq => hl.1 (heq ▸ hx)
      have hzy : z ≠ y := fun heq => hl.1 (heq ▸ hy)
      rw [List.idxOf_cons_ne _ hzx, List.idxOf_cons_ne _ hzy]
      have := ih hl.2 h
      omega
    | cons_cons _ h =>
      have hy : y ∈ l := h.subset (by simp)
      have hxy : x ≠ y := fun heq => hl.1 (heq ▸ hy)
      rw [List.idxOf_cons_self, List.idxOf_cons_ne _ hxy]
      omega

/-- What has the smaller position stands before the other. -/
theorem sublist_of_idxOf_lt {l : List α} {x y : α} (hy : y ∈ l) (h : l.idxOf x < l.idxOf y) : List.Sublist [x, y] l := by
  induction l with
  | nil => cases hy
  | cons z l ih =>
    by_cases hzx : z = x
    · subst hzx
      have hne : z ≠ y := by
        intro heq
        rw [heq] at h
        omega
      have hmem : y ∈ l := (List.mem_cons.1 hy).resolve_left (Ne.symm hne)
      exact List.Sublist.cons_cons z (List.singleton_sublist.2 hmem)
    · have hzy : z ≠ y := by
        intro heq
        rw [heq, List.idxOf_cons_self] at h
        omega
      rw [List.idxOf_cons_ne _ hzx, List.idxOf_cons_ne _ hzy] at h
      exact (ih ((List.mem_cons.1 hy).resolve_left (Ne.symm hzy)) (by omega)).cons z

/-- Part of a list keeps the order of the whole. -/
theorem sublist_of_part {l l' : List α} (hl : l.Nodup) (hpart : List.Sublist l' l) {x y : α} (h : List.Sublist [x, y] l) (hx : x ∈ l') (hy : y ∈ l') :
    List.Sublist [x, y] l' := by
  have hlt := idxOf_lt_of_sublist hl h
  rcases lt_trichotomy (l'.idxOf x) (l'.idxOf y) with hless | heq | hmore
  · exact sublist_of_idxOf_lt hy hless
  · rw [(List.idxOf_inj hx).1 heq] at hlt
    exact absurd hlt (lt_irrefl _)
  · have := idxOf_lt_of_sublist hl ((sublist_of_idxOf_lt hx hmore).trans hpart)
    omega

/-- Where everything stands after what it needs, nothing needs itself. -/
theorem acyclic_of_before {l : List α} (hl : l.Nodup) (h : ∀ x d, needs x d → List.Sublist [d, x] l) : Acyclic needs := by
  have hlt : ∀ x y, Relation.TransGen needs x y → l.idxOf y < l.idxOf x := by
    intro x y hxy
    induction hxy with
    | single hstep => exact idxOf_lt_of_sublist hl (h _ _ hstep)
    | tail _ hstep ih => exact (idxOf_lt_of_sublist hl (h _ _ hstep)).trans ih
  intro x hx
  exact absurd (hlt x x hx) (lt_irrefl _)

end Layers
