import TecTac.Lib.Dict

/-!
# Sums over the entries of a key

What the entries of one key amount to in a dictionary, or in any list of entries. The rules say what setting an entry, taking entries away and exchanging a member of a list do to a sum.
-/

namespace Tally

variable {κ ν α : Type*} [DecidableEq κ]

/-- What the entries of a key amount to. -/
def sumAt (k : κ) (f : ν → Nat) (entries : List (κ × ν)) : Nat := (entries.map fun e => if e.1 = k then f e.2 else 0).sum

@[simp] theorem sumAt_nil (k : κ) (f : ν → Nat) : sumAt k f ([] : List (κ × ν)) = 0 := rfl

theorem sumAt_cons (k : κ) (f : ν → Nat) (e : κ × ν) (entries : List (κ × ν)) : sumAt k f (e :: entries) = (if e.1 = k then f e.2 else 0) + sumAt k f entries := List.sum_cons

theorem sumAt_append (k : κ) (f : ν → Nat) (front back : List (κ × ν)) : sumAt k f (front ++ back) = sumAt k f front + sumAt k f back := by
  simp [sumAt]

/-- The key that is set exchanges what it had for what it gets. -/
theorem sumAt_set_self (k : κ) (f : ν → Nat) (v : ν) (d : List (κ × ν)) : sumAt k f (Dict.set k v d) + ((Dict.get k d).map f).getD 0 = sumAt k f d + f v := by
  induction d with
  | nil => simp [Dict.set, Dict.get, sumAt]
  | cons e d ih =>
    simp only [Dict.set, Dict.get]
    split
    · rename_i h
      simp only [sumAt_cons, h, if_true, Option.map_some, Option.getD_some]
      omega
    · rename_i h
      simp only [sumAt_cons, h, if_false]
      omega

theorem sumAt_set_of_ne {k k' : κ} (h : k' ≠ k) (f : ν → Nat) (v : ν) (d : List (κ × ν)) : sumAt k f (Dict.set k' v d) = sumAt k f d := by
  induction d with
  | nil => simp [Dict.set, sumAt, h]
  | cons e d ih =>
    simp only [Dict.set]
    split
    · rename_i he
      rw [sumAt_cons, sumAt_cons, if_neg h, if_neg (he ▸ h)]
    · rw [sumAt_cons, sumAt_cons, ih]

/-- Entries that amount to nothing may go. -/
theorem sumAt_filter {k : κ} {f : ν → Nat} {p : κ × ν → Bool} {entries : List (κ × ν)} (h : ∀ e ∈ entries, p e = false → f e.2 = 0) :
    sumAt k f (entries.filter p) = sumAt k f entries := by
  induction entries with
  | nil => rfl
  | cons e entries ih =>
    have hrest := ih fun e' he' => h e' (List.mem_cons_of_mem _ he')
    cases hp : p e with
    | true => rw [List.filter_cons_of_pos hp, sumAt_cons, sumAt_cons, hrest]
    | false =>
      rw [List.filter_cons_of_neg (by simp [hp]), sumAt_cons, hrest, h e List.mem_cons_self hp]
      simp

/-- A member of a list that is exchanged exchanges what it amounts to. -/
theorem sum_set (g : α → Nat) {l : List α} {i : Nat} {a : α} (h : l[i]? = some a) (b : α) : ((l.set i b).map g).sum + g a = (l.map g).sum + g b := by
  induction l generalizing i with
  | nil => cases h
  | cons x l ih =>
    cases i with
    | zero =>
      cases h
      simp only [List.set_cons_zero, List.map_cons, List.sum_cons]
      omega
    | succ i =>
      have := ih (show l[i]? = some a from h)
      simp only [List.set_cons_succ, List.map_cons, List.sum_cons]
      omega

theorem sum_eraseIdx (g : α → Nat) {l : List α} {i : Nat} {a : α} (h : l[i]? = some a) : ((l.eraseIdx i).map g).sum + g a = (l.map g).sum := by
  induction l generalizing i with
  | nil => cases h
  | cons x l ih =>
    cases i with
    | zero =>
      cases h
      simp only [List.eraseIdx_cons_zero, List.map_cons, List.sum_cons]
      omega
    | succ i =>
      have := ih (show l[i]? = some a from h)
      simp only [List.eraseIdx_cons_succ, List.map_cons, List.sum_cons]
      omega

end Tally
