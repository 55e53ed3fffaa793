import Mathlib

/-!
# The first of the greatest

A loop that walks through a list and keeps the greatest element so far, under a comparison that may take different elements for equal, ends with the first
of the greatest ones.
-/

namespace TecTac

/-- The loop, from a first element on. -/
def firstBest {α : Type} (cmp : α → α → Ordering) (first : α) (others : List α) : α :=
  others.foldl (fun best item => if cmp item best = .gt then item else best) first

/-- An element is greater than those before it, and no later one is greater. -/
def IsFirstBest {α : Type} (cmp : α → α → Ordering) (xs : List α) (best : α) : Prop :=
  ∃ front back, xs = front ++ best :: back ∧ (∀ x ∈ front, cmp x best = .lt) ∧ ∀ x ∈ back, cmp x best ≠ .gt

namespace FirstBest

variable {α : Type} {cmp : α → α → Ordering}

/-- An element that no other is greater than stays. -/
theorem firstBest_of_greatest {first : α} {others : List α} (h : ∀ x ∈ others, cmp x first ≠ .gt) : firstBest cmp first others = first := by
  unfold firstBest
  induction others with
  | nil => rfl
  | cons x others ih =>
    obtain ⟨hx, hrest⟩ := List.forall_mem_cons.mp h
    rw [List.foldl_cons, if_neg hx]
    exact ih hrest

theorem mem {xs : List α} {best : α} (h : IsFirstBest cmp xs best) : best ∈ xs := by
  obtain ⟨front, back, rfl, -, -⟩ := h
  simp

/-- In a list in order, an element that is as great as the first of the greatest comes after it. -/
theorem before_of_eq {xs : List α} {best : α} (h : IsFirstBest cmp xs best) {r : α → α → Prop} (hsorted : xs.Pairwise r) {x : α} (hx : x ∈ xs)
    (heq : cmp x best = .eq) : x = best ∨ r best x := by
  obtain ⟨front, back, rfl, hfront, -⟩ := h
  rcases List.mem_append.mp hx with hx | hx
  · rw [hfront x hx] at heq
    cases heq
  · rcases List.mem_cons.mp hx with rfl | hx
    · exact .inl rfl
    · exact .inr (List.rel_of_pairwise_cons (List.pairwise_append.mp hsorted).2.1 hx)

variable [Std.TransCmp cmp]

theorem step {xs : List α} {best : α} (h : IsFirstBest cmp xs best) (x : α) :
    IsFirstBest cmp (xs ++ [x]) (if cmp x best = .gt then x else best) := by
  obtain ⟨front, back, rfl, hfront, hback⟩ := h
  split
  · rename_i hgt
    refine ⟨front ++ best :: back, [], rfl, ?_, by simp⟩
    have hlt : cmp best x = .lt := Std.OrientedCmp.lt_of_gt hgt
    intro y hy
    rcases List.mem_append.mp hy with hy | hy
    · exact Std.TransCmp.lt_trans (hfront y hy) hlt
    · rcases List.mem_cons.mp hy with rfl | hy
      · exact hlt
      · refine Std.TransCmp.lt_of_isLE_of_lt ?_ hlt
        rw [Ordering.isLE_iff_ne_gt]
        exact hback y hy
  · rename_i hle
    refine ⟨front, back ++ [x], by simp, hfront, ?_⟩
    intro y hy
    rcases List.mem_append.mp hy with hy | hy
    · exact hback y hy
    · rw [List.mem_singleton.mp hy]
      exact hle

/-- The loop ends with the first of the greatest. -/
theorem isFirstBest_firstBest (first : α) (others : List α) : IsFirstBest cmp (first :: others) (firstBest cmp first others) := by
  have hloop : ∀ (ys xs : List α) (best : α), IsFirstBest cmp xs best → IsFirstBest cmp (xs ++ ys) (firstBest cmp best ys) := by
    intro ys
    induction ys with
    | nil =>
      intro xs best h
      rwa [List.append_nil]
    | cons y ys ih =>
      intro xs best h
      have := ih _ _ (step h y)
      rwa [List.append_assoc] at this
  exact hloop others [first] first ⟨[], [], rfl, by simp, by simp⟩

theorem greatest {xs : List α} {best : α} (h : IsFirstBest cmp xs best) {x : α} (hx : x ∈ xs) : cmp x best ≠ .gt := by
  obtain ⟨front, back, rfl, hfront, hback⟩ := h
  rcases List.mem_append.mp hx with hx | hx
  · simp [hfront x hx]
  · rcases List.mem_cons.mp hx with rfl | hx
    · simp [Std.ReflCmp.compare_self]
    · exact hback x hx

end FirstBest

end TecTac
