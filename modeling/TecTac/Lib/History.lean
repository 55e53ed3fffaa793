import Mathlib

/-!
# Histories

A history is a list that only grows at its end. `Before` says that an entry came before another one, and `LastOf` that no entry of a kind came after
it; both are settled by the entry that is added.
-/

namespace History

variable {α : Type*} {P : α → Prop} {xs : List α} {x y z : α}

/-- An entry came before another one. -/
def Before (xs : List α) (x y : α) : Prop := ∃ front between back, xs = front ++ x :: (between ++ y :: back)

/-- No entry of the kind came after this one. -/
def LastOf (P : α → Prop) (xs : List α) (x : α) : Prop := ∃ front back, xs = front ++ x :: back ∧ ∀ y ∈ back, ¬ P y

theorem Before.mem (h : Before xs x y) : x ∈ xs := by
  obtain ⟨front, between, back, rfl⟩ := h
  simp

/-- The entry that is added comes after all the others. -/
theorem before_concat (h : Before (xs ++ [z]) x y) : Before xs x y ∨ x ∈ xs ∧ y = z := by
  obtain ⟨front, between, back, heq⟩ := h
  rcases List.eq_nil_or_concat back with rfl | ⟨back, last, rfl⟩
  · have hsplit : xs ++ [z] = (front ++ x :: between) ++ [y] := by simpa using heq
    obtain ⟨rfl, hlast⟩ := List.append_inj' hsplit rfl
    exact .inr ⟨by simp, (List.singleton_inj.mp hlast).symm⟩
  · have hsplit : xs ++ [z] = (front ++ x :: (between ++ y :: back)) ++ [last] := by simpa using heq
    obtain ⟨rfl, -⟩ := List.append_inj' hsplit rfl
    exact .inl ⟨front, between, back, rfl⟩

theorem LastOf.mem (h : LastOf P xs x) : x ∈ xs := by
  obtain ⟨front, back, rfl, -⟩ := h
  simp

theorem lastOf_concat_self : LastOf P (xs ++ [x]) x := ⟨xs, [], rfl, by simp⟩

theorem LastOf.concat (h : LastOf P xs x) (hz : ¬ P z) : LastOf P (xs ++ [z]) x := by
  obtain ⟨front, back, rfl, hback⟩ := h
  refine ⟨front, back ++ [z], by simp, ?_⟩
  intro y hy
  rcases List.mem_append.mp hy with hy | hy
  · exact hback y hy
  · rwa [List.mem_singleton.mp hy]

end History
