import Mathlib

/-!
# Lists changed one entry at a time

A table of rows, or a list of processes, is a list in which a step replaces one entry, adds one at the end or takes one
out. The rules here say what such a change keeps: a property of every entry (`forall_mem_set`), a count
(`countP_set_le`), and a unique constraint over the entries that satisfy a condition (`UniqueOn`).
-/

namespace Entries

variable {α κ : Type*}

/-- An entry splits the list. -/
theorem split_at {xs : List α} {i : Nat} {x : α} (h : xs[i]? = some x) :
    xs = xs.take i ++ x :: xs.drop (i + 1) ∧ i < xs.length := by
  obtain ⟨hi, hget⟩ := List.getElem?_eq_some_iff.mp h
  refine ⟨?_, hi⟩
  rw [← hget, List.getElem_cons_drop, List.take_append_drop]

/-- An entry of a list in which one entry was replaced. -/
theorem getElem?_set_cases {xs : List α} {i k : Nat} {y x : α} (h : (xs.set i y)[k]? = some x) :
    (k = i ∧ x = y) ∨ xs[k]? = some x := by
  rw [List.getElem?_set] at h
  split at h
  · rename_i hik
    split at h
    · exact Or.inl ⟨hik.symm, (Option.some.inj h).symm⟩
    · cases h
  · exact Or.inr h

/-- An entry of a list to which one was added. -/
theorem getElem?_concat_cases {xs : List α} {k : Nat} {y x : α} (h : (xs ++ [y])[k]? = some x) :
    (k = xs.length ∧ x = y) ∨ xs[k]? = some x := by
  rcases Nat.lt_trichotomy k xs.length with hlt | rfl | hgt
  · rw [List.getElem?_append_left hlt] at h
    exact Or.inr h
  · rw [List.getElem?_append_right (Nat.le_refl _), Nat.sub_self] at h
    exact Or.inl ⟨rfl, (Option.some.inj h).symm⟩
  · have hlt := (List.getElem?_eq_some_iff.mp h).1
    rw [List.length_append, List.length_singleton] at hlt
    omega

/-! ## What holds of every entry -/

theorem forall_mem_set {P : α → Prop} {xs : List α} {i : Nat} {y : α} (h : ∀ x ∈ xs, P x) (hy : P y) :
    ∀ x ∈ xs.set i y, P x := by
  intro x hx
  rcases List.mem_or_eq_of_mem_set hx with hx | rfl
  · exact h x hx
  · exact hy

theorem forall_mem_concat {P : α → Prop} {xs : List α} {y : α} (h : ∀ x ∈ xs, P x) (hy : P y) : ∀ x ∈ xs ++ [y], P x := by
  intro x hx
  rcases List.mem_append.mp hx with hx | hx
  · exact h x hx
  · rw [List.mem_singleton.mp hx]
    exact hy

/-! ## Counting -/

/-- Replacing an entry by one that counts only if the old one did adds nothing to the count. -/
theorem countP_set_le {p : α → Bool} {xs : List α} {i : Nat} {x y : α} (hi : xs[i]? = some x) (h : p y = true → p x = true) :
    (xs.set i y).countP p ≤ xs.countP p := by
  obtain ⟨hlt, hget⟩ := List.getElem?_eq_some_iff.mp hi
  rw [List.countP_set hlt, hget]
  by_cases hy : p y = true
  · have hpos : 0 < xs.countP p := List.countP_pos_iff.mpr ⟨x, List.mem_of_getElem? hi, h hy⟩
    rw [if_pos (h hy), if_pos hy]
    omega
  · rw [if_neg hy]
    omega

/-- The only entry goes. -/
theorem eraseIdx_eq_nil {xs : List α} {i : Nat} {x : α} (hlen : xs.length ≤ 1) (hi : xs[i]? = some x) :
    xs.eraseIdx i = [] := by
  obtain ⟨hlt, -⟩ := List.getElem?_eq_some_iff.mp hi
  refine List.length_eq_zero_iff.mp ?_
  rw [List.length_eraseIdx_of_lt hlt]
  omega

theorem eq_nil_of_sublist {xs ys : List α} (h : xs.Sublist ys) (hnil : ys = []) : xs = [] := by
  rw [hnil] at h
  exact List.sublist_nil.mp h

/-- Numbers that differ and do not exceed a bound are at most one more than the bound. -/
theorem length_le_of_nodup_le {xs : List Nat} {bound : Nat} (hnodup : xs.Nodup) (hle : ∀ n ∈ xs, n ≤ bound) :
    xs.length ≤ bound + 1 := by
  have hsub : xs ⊆ List.range (bound + 1) := by
    intro n hn
    exact List.mem_range.mpr (Nat.lt_succ_of_le (hle n hn))
  have hlen := (List.subperm_of_subset hnodup hsub).length_le
  rwa [List.length_range] at hlen

/-! ## A unique constraint with a condition -/

/-- No two entries that satisfy the condition have the same key. -/
def UniqueOn (p : α → Prop) (key : α → κ) (xs : List α) : Prop :=
  ∀ (i k : Nat) (x y : α), xs[i]? = some x → xs[k]? = some y → p x → p y → key x = key y → i = k

variable {p : α → Prop} {key : α → κ} {xs : List α}

/-- Replacing an entry by one of the same key that satisfies the condition only if the old one did keeps the constraint.
-/
theorem UniqueOn.set (h : UniqueOn p key xs) {i : Nat} {x y : α} (hi : xs[i]? = some x) (hkey : key y = key x)
    (hp : p y → p x) :
    UniqueOn p key (xs.set i y) := by
  -- each entry of the new list stands for one of the old, at the same place
  have hold : ∀ (k : Nat) (z : α), (xs.set i y)[k]? = some z → ∃ u, xs[k]? = some u ∧ key z = key u ∧ (p z → p u) := by
    intro k z hz
    rcases getElem?_set_cases hz with ⟨rfl, rfl⟩ | hz
    · exact ⟨x, hi, hkey, hp⟩
    · exact ⟨z, hz, rfl, id⟩
  intro k k' z z' hz hz' hpz hpz' hid
  obtain ⟨u, hu, hku, hpu⟩ := hold k z hz
  obtain ⟨u', hu', hku', hpu'⟩ := hold k' z' hz'
  exact h k k' u u' hu hu' (hpu hpz) (hpu' hpz') (by rw [← hku, ← hku', hid])

/-- Adding an entry that no other stands in the way of keeps the constraint. -/
theorem UniqueOn.concat (h : UniqueOn p key xs) {y : α} (hfree : ∀ x ∈ xs, p x → key x ≠ key y) :
    UniqueOn p key (xs ++ [y]) := by
  intro k k' z z' hz hz' hpz hpz' hid
  rcases getElem?_concat_cases hz with ⟨hk, rfl⟩ | hold
  · rcases getElem?_concat_cases hz' with ⟨hk', -⟩ | hold'
    · rw [hk, hk']
    · exact absurd hid.symm (hfree z' (List.mem_of_getElem? hold') hpz')
  · rcases getElem?_concat_cases hz' with ⟨-, rfl⟩ | hold'
    · exact absurd hid (hfree z (List.mem_of_getElem? hold) hpz)
    · exact h k k' z z' hold hold' hpz hpz' hid

/-- Keys that stand once still do after an entry with a new key was added. -/
theorem nodup_map_concat {f : α → κ} {xs : List α} {x : α} (h : (xs.map f).Nodup) (hx : f x ∉ xs.map f) :
    ((xs ++ [x]).map f).Nodup := by
  rw [List.map_append, List.nodup_append]
  refine ⟨h, List.pairwise_singleton _ _, ?_⟩
  intro k hk k' hk' heq
  rw [List.map_singleton, List.mem_singleton] at hk'
  exact hx (hk' ▸ heq ▸ hk)

/-- The first entry of the list in an order: `better x y` says that `x` comes before `y`. -/
def best (better : α → α → Bool) : List α → Option α
  | [] => none
  | x :: xs => some (xs.foldl (fun b y => if better y b then y else b) x)

theorem mem_of_best {better : α → α → Bool} {xs : List α} {x : α} (h : best better xs = some x) : x ∈ xs := by
  cases xs with
  | nil => cases h
  | cons y ys =>
    have hmem : ∀ b ∈ y :: ys, ∀ zs : List α, zs ⊆ y :: ys → zs.foldl (fun b z => if better z b then z else b) b ∈ y :: ys := by
      intro b hb zs
      induction zs generalizing b with
      | nil => exact fun _ => hb
      | cons z zs ih =>
        intro hsub
        rw [List.cons_subset] at hsub
        refine ih (if better z b then z else b) ?_ hsub.2
        split
        · exact hsub.1
        · exact hb
    have hx := Option.some.inj h
    rw [← hx]
    exact hmem y List.mem_cons_self ys (List.subset_cons_self y ys)

end Entries
