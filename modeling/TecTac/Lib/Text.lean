import Mathlib

/-!
# Texts

The characters of a text as the language sorts them, by the tables of Unicode 14: the blanks that `str.strip` takes off, the digits
that `str.isdigit` accepts, and among these the decimal digits, which alone `int` reads.
-/

namespace TecTac

/-- What `str.strip` takes off. -/
def isSpace (c : Char) : Bool :=
  let n := c.toNat
  decide (9 ≤ n ∧ n ≤ 13) || decide (28 ≤ n ∧ n ≤ 32) || n == 133 || n == 160 || n == 5760 || decide (8192 ≤ n ∧ n ≤ 8202) ||
    n == 8232 || n == 8233 || n == 8239 || n == 8287 || n == 12288

/-- `str.strip`. -/
def strip (s : List Char) : List Char := ((s.dropWhile isSpace).reverse.dropWhile isSpace).reverse

/-- `str.strip` of a text. -/
def stripText (s : String) : String := String.ofList (strip s.toList)

/-- The zeros of the decimal digits; the other nine follow each of them. -/
def decimalZeros : List Nat :=
  [48, 1632, 1776, 1984, 2406, 2534, 2662, 2790, 2918, 3046, 3174, 3302, 3430, 3558, 3664, 3792, 3872, 4160, 4240, 6112, 6160, 6470,
    6608, 6784, 6800, 6992, 7088, 7232, 7248, 42528, 43216, 43264, 43472, 43504, 43600, 44016, 65296, 66720, 68912, 69734, 69872, 69942,
    70096, 70384, 70736, 70864, 71248, 71360, 71472, 71904, 72016, 72784, 73040, 73120, 92768, 92864, 93008, 120782, 120792, 120802,
    120812, 120822, 123200, 123632, 125264, 130032]

/-- The first and the last of each row of digits that are no decimal digits: superscripts, subscripts, circled digits and the like. -/
def otherDigits : List (Nat × Nat) :=
  [(178, 179), (185, 185), (4969, 4977), (6618, 6618), (8304, 8304), (8308, 8313), (8320, 8329), (9312, 9320), (9332, 9340), (9352, 9360),
    (9450, 9450), (9461, 9469), (9471, 9471), (10102, 10110), (10112, 10120), (10122, 10130), (68160, 68163), (69216, 69224),
    (69714, 69722), (127232, 127242)]

/-- The value of a decimal digit. -/
def decimalDigit (c : Char) : Option Nat :=
  (decimalZeros.find? fun first => first ≤ c.toNat && c.toNat ≤ first + 9).map fun first => c.toNat - first

/-- A character that `str.isdigit` accepts. -/
def isDigit (c : Char) : Bool :=
  (decimalDigit c).isSome || otherDigits.any fun row => row.1 ≤ c.toNat && c.toNat ≤ row.2

/-- `int(text)` for a text of digits; a digit that is no decimal digit is refused. -/
def intOfDigits (s : List Char) : Option Nat := (s.mapM decimalDigit).map fun digits => digits.foldl (fun n digit => 10 * n + digit) 0

/-- A text that was stripped starts and ends with no blank, so that stripping it again changes nothing. -/
@[simp] theorem strip_strip (s : List Char) : strip (strip s) = strip s := by
  have hdrop : ∀ l : List Char, (l.dropWhile isSpace).dropWhile isSpace = l.dropWhile isSpace := fun l => List.dropWhile_idempotent isSpace l
  have hfront : (strip s).dropWhile isSpace = strip s := by
    unfold strip
    generalize hl : s.dropWhile isSpace = l
    have hl' : l.dropWhile isSpace = l := by rw [← hl, hdrop]
    obtain ⟨rest, hrest⟩ := List.dropWhile_suffix isSpace (l := l.reverse)
    cases hk : (l.reverse.dropWhile isSpace).reverse with
    | nil => rfl
    | cons c k =>
      have hhead : l = c :: (k ++ rest.reverse) := by
        have := congrArg List.reverse hrest
        rw [List.reverse_append, List.reverse_reverse, hk] at this
        exact this.symm
      have hc : isSpace c = false := by
        by_contra hc
        rw [hhead, List.dropWhile_cons_of_pos (by simpa using hc)] at hl'
        have := congrArg List.length hl'
        have hle := (List.dropWhile_suffix isSpace (l := k ++ rest.reverse)).length_le
        simp only [List.length_cons] at this
        omega
      rw [List.dropWhile_cons_of_neg (by simp [hc])]
  change ((((strip s).dropWhile isSpace).reverse.dropWhile isSpace).reverse) = strip s
  rw [hfront]
  unfold strip
  rw [List.reverse_reverse, hdrop]

theorem dropWhile_eq_self {s : List Char} (h : ∀ c ∈ s, isSpace c = false) : s.dropWhile isSpace = s := by
  cases s with
  | nil => rfl
  | cons c s => exact List.dropWhile_cons_of_neg (by simp [h c List.mem_cons_self])

theorem strip_eq_self {s : List Char} (h : ∀ c ∈ s, isSpace c = false) : strip s = s := by
  rw [strip, dropWhile_eq_self h, dropWhile_eq_self (fun c hc => h c (List.mem_reverse.1 hc)), List.reverse_reverse]

/-- `str.lower` of a text of these characters, one by one. -/
theorem toLower_eq_ofList (s : String) : s.toLower = String.ofList (s.toList.map Char.toLower) := by
  rw [String.toLower, ← String.toList_map, String.ofList_toList]

@[simp] theorem stripText_stripText (s : String) : stripText (stripText s) = stripText s := by simp [stripText]

/-- A blank is no letter of a digest, whatever its case. -/
theorem notDigest_of_space {c : Char} (hc : isSpace c = true) : (c.toLower.isDigit || (decide ('a' ≤ c.toLower) && decide (c.toLower ≤ 'f'))) = false := by
  have hn : c.toNat < 48 ∨ 57 < c.toNat ∧ c.toNat < 65 ∨ 90 < c.toNat ∧ c.toNat < 97 ∨ 102 < c.toNat := by
    simp only [isSpace, Bool.or_eq_true, decide_eq_true_eq, beq_iff_eq] at hc
    omega
  have hval : c.toNat = c.val.toNat := rfl
  have hlow : c.toLower = c := by
    unfold Char.toLower
    rw [dif_neg]
    intro h
    simp only [ge_iff_le, UInt32.le_iff_toNat_le, Char.reduceVal, UInt32.reduceToNat] at h
    omega
  rw [hlow]
  simp only [Char.isDigit, Bool.or_eq_false_iff, Bool.and_eq_false_iff, decide_eq_false_iff_not, Char.le_def, ge_iff_le, UInt32.le_iff_toNat_le, Char.reduceVal,
    UInt32.reduceToNat]
  omega

/-- A text that is a hexadecimal number in lower case has no blanks to take off. -/
theorem stripText_of_hex {d : String} (h : (d.toLower.toList.all fun c => c.isDigit || (decide ('a' ≤ c) && decide (c ≤ 'f'))) = true) : stripText d = d := by
  have hnone : ∀ c ∈ d.toList, isSpace c = false := by
    intro c hc
    by_contra hspace
    have hall := List.all_eq_true.1 h c.toLower (by rw [String.toLower, String.toList_map]; exact List.mem_map_of_mem hc)
    rw [notDigest_of_space (by simpa using hspace)] at hall
    cases hall
  rw [stripText, strip_eq_self hnone, String.ofList_toList]

end TecTac
