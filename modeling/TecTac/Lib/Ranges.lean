import Mathlib

/-!
# Ranges of integers and cuts of lists

Sorted integers as the ranges they fill, and whether two such lists of ranges meet; and a list cut into parts of a size.
-/

namespace Ranges

/-- The ranges of sorted integers, the first of them open from `first` to `last`. -/
def fromLast (first last : Int) : List Int → List (Int × Int)
  | [] => [(first, last)]
  | value :: values => if value = last + 1 then fromLast first value values else (first, last) :: fromLast value value values

/-- The ranges that sorted integers fill. -/
def ofSorted : List Int → List (Int × Int)
  | [] => []
  | value :: values => fromLast value value values

/-- Two sorted lists of ranges meet. -/
def overlap : List (Int × Int) → List (Int × Int) → Bool
  | a :: as, b :: bs => if a.2 < b.1 then overlap as (b :: bs) else if b.2 < a.1 then overlap (a :: as) bs else true
  | _, _ => false
termination_by as bs => as.length + bs.length

/-- An integer lies in one of the ranges. -/
def Covers (ranges : List (Int × Int)) (x : Int) : Prop := ∃ r ∈ ranges, r.1 ≤ x ∧ x ≤ r.2

/-- Ranges that are not empty, each behind the one before. -/
structure Sorted (ranges : List (Int × Int)) : Prop where
  filled : ∀ r ∈ ranges, r.1 ≤ r.2
  behind : ranges.Pairwise fun a b => a.2 < b.1

theorem covers_cons {r : Int × Int} {ranges : List (Int × Int)} {x : Int} :
    Covers (r :: ranges) x ↔ (r.1 ≤ x ∧ x ≤ r.2) ∨ Covers ranges x := by
  simp [Covers]

theorem Sorted.tail {r : Int × Int} {ranges : List (Int × Int)} (h : Sorted (r :: ranges)) : Sorted ranges :=
  ⟨fun r' hr' => h.filled r' (List.mem_cons_of_mem _ hr'), (List.pairwise_cons.1 h.behind).2⟩

/-- What sorted ranges cover starts with the first of them. -/
theorem Sorted.le_of_covers {r : Int × Int} {ranges : List (Int × Int)} {x : Int} (h : Sorted (r :: ranges)) (hx : Covers (r :: ranges) x) :
    r.1 ≤ x := by
  rcases covers_cons.1 hx with hx | ⟨r', hr', hx⟩
  · exact hx.1
  · have hbehind := (List.pairwise_cons.1 h.behind).1 r' hr'
    have hfilled := h.filled r List.mem_cons_self
    omega

theorem covers_fromLast {first last x : Int} {values : List Int} (hle : first ≤ last) (h : first ≤ x ∧ x ≤ last ∨ x ∈ values) :
    Covers (fromLast first last values) x := by
  induction values generalizing first last with
  | nil => simpa [fromLast, Covers] using h
  | cons value values ih =>
    unfold fromLast
    split
    · rename_i hnext
      apply ih (by omega)
      rcases h with h | h
      · exact .inl ⟨h.1, by omega⟩
      · rcases List.mem_cons.1 h with rfl | h
        · exact .inl ⟨by omega, le_rfl⟩
        · exact .inr h
    · rw [covers_cons]
      rcases h with h | h
      · exact .inl h
      · refine .inr (ih le_rfl ?_)
        rcases List.mem_cons.1 h with rfl | h
        · exact .inl ⟨le_rfl, le_rfl⟩
        · exact .inr h

theorem le_of_mem_fromLast {first last : Int} {values : List Int} (hle : first ≤ last) (hsorted : (last :: values).Pairwise (· < ·)) :
    ∀ r ∈ fromLast first last values, first ≤ r.1 := by
  induction values generalizing first last with
  | nil => simp [fromLast]
  | cons value values ih =>
    rw [List.pairwise_cons] at hsorted
    have hlast := hsorted.1 value List.mem_cons_self
    unfold fromLast
    split
    · exact ih (by omega) hsorted.2
    · intro r hr
      rcases List.mem_cons.1 hr with rfl | hr
      · exact le_rfl
      · have := ih le_rfl hsorted.2 r hr
        omega

theorem sorted_fromLast {first last : Int} {values : List Int} (hle : first ≤ last) (hsorted : (last :: values).Pairwise (· < ·)) :
    Sorted (fromLast first last values) := by
  induction values generalizing first last with
  | nil => exact ⟨by simpa [fromLast] using hle, by simp [fromLast]⟩
  | cons value values ih =>
    rw [List.pairwise_cons] at hsorted
    have hlast := hsorted.1 value List.mem_cons_self
    unfold fromLast
    split
    · exact ih (by omega) hsorted.2
    · have htail := ih le_rfl hsorted.2
      refine ⟨?_, List.pairwise_cons.2 ⟨?_, htail.behind⟩⟩
      · intro r hr
        rcases List.mem_cons.1 hr with rfl | hr
        · exact hle
        · exact htail.filled r hr
      · intro r hr
        have := le_of_mem_fromLast le_rfl hsorted.2 r hr
        simp only
        omega

theorem sorted_ofSorted {values : List Int} (h : values.Pairwise (· < ·)) : Sorted (ofSorted values) := by
  cases values with
  | nil => exact ⟨nofun, .nil⟩
  | cons value values => exact sorted_fromLast le_rfl h

theorem covers_ofSorted {values : List Int} {x : Int} (h : x ∈ values) : Covers (ofSorted values) x := by
  cases values with
  | nil => cases h
  | cons value values =>
    apply covers_fromLast le_rfl
    rcases List.mem_cons.1 h with rfl | h
    · exact .inl ⟨le_rfl, le_rfl⟩
    · exact .inr h

/-- Ranges that do not meet cover nothing in common. -/
theorem not_covers_of_not_overlap {as bs : List (Int × Int)} {x : Int} (has : Sorted as) (hbs : Sorted bs) (h : overlap as bs = false)
    (hx : Covers as x) : ¬ Covers bs x := by
  fun_induction overlap as bs with
  | case1 a as b bs hlt ih =>
    intro hb
    rcases covers_cons.1 hx with hx | hx
    · have := hbs.le_of_covers hb
      omega
    · exact ih has.tail hbs h hx hb
  | case2 a as b bs hnot hlt ih =>
    intro hb
    rcases covers_cons.1 hb with hb | hb
    · have := has.le_of_covers hx
      omega
    · exact ih has hbs.tail h hx hb
  | case3 => cases h
  | case4 as bs hne =>
    rintro ⟨r', hr', -⟩
    obtain ⟨r, hr, -⟩ := hx
    cases as with
    | nil => cases hr
    | cons a as =>
      cases bs with
      | nil => cases hr'
      | cons b bs => exact hne a as b bs rfl rfl

/-- Sorted integers whose ranges do not meet have nothing in common. -/
theorem disjoint_of_not_overlap {xs ys : List Int} (hxs : xs.Pairwise (· < ·)) (hys : ys.Pairwise (· < ·))
    (h : overlap (ofSorted xs) (ofSorted ys) = false) : xs.Disjoint ys :=
  fun _ hx hy => not_covers_of_not_overlap (sorted_ofSorted hxs) (sorted_ofSorted hys) h (covers_ofSorted hx) (covers_ofSorted hy)

/-! ## Cuts -/

variable {α : Type*}

/-- A list, cut into parts of a size. -/
def cut (size : Nat) (l : List α) : List (List α) := (List.range ((l.length + size - 1) / size)).map fun i => (l.drop (i * size)).take size

theorem flatten_cut {size : Nat} (hsize : 0 < size) (l : List α) : (cut size l).flatten = l := by
  have htake : ∀ n, ((List.range n).map fun i => (l.drop (i * size)).take size).flatten = l.take (n * size) := by
    intro n
    induction n with
    | zero => simp
    | succ n ih => simp [List.range_succ, ih, Nat.succ_mul, List.take_add]
  unfold cut
  rw [htake, List.take_of_length_le]
  have hdiv := Nat.div_add_mod (l.length + size - 1) size
  have hmod := Nat.mod_lt (l.length + size - 1) hsize
  rw [Nat.mul_comm] at hdiv
  omega

/-- Two parts of a list without duplicates have nothing in common. -/
theorem disjoint_of_mem_cut {size : Nat} (hsize : 0 < size) {l a b : List α} (h : l.Nodup) (ha : a ∈ cut size l) (hb : b ∈ cut size l)
    (hne : a ≠ b) : a.Disjoint b := by
  have hsymm : Std.Symm (@List.Disjoint α) := ⟨fun _ _ hdisjoint _ hb ha => hdisjoint ha hb⟩
  rw [← flatten_cut hsize l, List.nodup_flatten] at h
  exact h.2.forall ha hb hne

theorem subset_of_mem_cut {size : Nat} (hsize : 0 < size) {l part : List α} (h : part ∈ cut size l) : part ⊆ l := by
  intro x hx
  rw [← flatten_cut hsize l]
  exact List.mem_flatten_of_mem h hx

end Ranges
