import Mathlib

/-!
# Splitting and joining

What the pieces of a list between its separators hold, and what a list that was joined of pieces holds.
-/

namespace SplitJoin

variable {α : Type} [DecidableEq α] {sep : α}

/-- The pieces between the separators hold members of the list, and no separator. -/
theorem of_mem_splitOn (sep : α) (l : List α) : ∀ piece ∈ l.splitOn sep, ∀ a ∈ piece, a ∈ l ∧ a ≠ sep := by
  induction l with
  | nil => simp [List.splitOn]
  | cons b l ih =>
    rw [List.splitOn, List.splitOnP_cons_eq_if_modifyHead]
    split
    · intro piece hpiece a ha
      rcases List.mem_cons.1 hpiece with rfl | hpiece
      · cases ha
      · exact ⟨List.mem_cons_of_mem b (ih piece hpiece a ha).1, (ih piece hpiece a ha).2⟩
    · rename_i hb
      obtain ⟨first, rest, hfirst⟩ := List.exists_cons_of_ne_nil (List.splitOnP_ne_nil (fun x => x == sep) l)
      rw [List.splitOn, hfirst] at ih
      rw [hfirst, List.modifyHead_cons]
      intro piece hpiece a ha
      rcases List.mem_cons.1 hpiece with rfl | hpiece
      · rcases List.mem_cons.1 ha with rfl | ha
        · exact ⟨List.mem_cons_self, by simpa using hb⟩
        · have hfirst := ih first List.mem_cons_self a ha
          exact ⟨List.mem_cons_of_mem b hfirst.1, hfirst.2⟩
      · have hrest := ih piece (List.mem_cons_of_mem _ hpiece) a ha
        exact ⟨List.mem_cons_of_mem b hrest.1, hrest.2⟩

omit [DecidableEq α] in
theorem mem_intercalate {pieces : List (List α)} {a : α} (h : a ∈ [sep].intercalate pieces) : a = sep ∨ ∃ piece ∈ pieces, a ∈ piece := by
  induction pieces with
  | nil => cases h
  | cons piece pieces ih =>
    cases pieces with
    | nil =>
      rw [List.intercalate_singleton] at h
      exact .inr ⟨piece, List.mem_singleton_self piece, h⟩
    | cons next pieces =>
      rw [List.intercalate_cons_cons, List.mem_append, List.mem_append, List.mem_singleton] at h
      rcases h with (h | h) | h
      · exact .inr ⟨piece, List.mem_cons_self, h⟩
      · exact .inl h
      · rcases ih h with h | ⟨other, hother, ha⟩
        · exact .inl h
        · exact .inr ⟨other, List.mem_cons_of_mem _ hother, ha⟩

theorem length_le_count_intercalate (sep : α) (pieces : List (List α)) : pieces.length ≤ ([sep].intercalate pieces).count sep + 1 := by
  induction pieces with
  | nil => exact Nat.zero_le _
  | cons piece pieces ih =>
    cases pieces with
    | nil => exact Nat.le_add_left 1 _
    | cons next pieces =>
      rw [List.intercalate_cons_cons, List.count_append, List.count_append, List.count_singleton_self, List.length_cons]
      omega

/-- Some pieces from the end of a split list are split again as they are. -/
theorem splitOn_suffix {l : List α} {left right : List (List α)} (h : l.splitOn sep = left ++ right) (hne : right ≠ []) :
    ([sep].intercalate right).splitOn sep = right :=
  List.splitOn_intercalate sep (fun piece hpiece hmem => (of_mem_splitOn sep l piece (by rw [h]; exact List.mem_append_right _ hpiece) sep hmem).2 rfl) hne

end SplitJoin
