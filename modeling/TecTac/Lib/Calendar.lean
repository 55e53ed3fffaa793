import Mathlib

/-!
# The proleptic Gregorian calendar

A day is its number: day `0` is 1 January 1970, a Thursday. `YearMonth.ofDay` finds the month a day falls in, and
`YearMonth.start` the first day of a month; the two determine each other (`YearMonth.start_ofDay_le`,
`YearMonth.lt_start_next_ofDay`), and the first days of the months are in the order of the months
(`YearMonth.start_next_le`).
-/

namespace Calendar

/-- A year of 366 days. -/
def isLeap (y : Int) : Bool := y % 4 == 0 && (y % 100 != 0 || y % 400 == 0)

/-- The days a leap year has more. -/
def leapDay (y : Int) : Int := if isLeap y then 1 else 0

/-- Days from 1 January of year 1 to 1 January of year `y`. -/
def daysBeforeYear (y : Int) : Int := 365 * (y - 1) + (y - 1) / 4 - (y - 1) / 100 + (y - 1) / 400

/-- The number, counted from 1 January of year 1, of day `0`. -/
def epoch : Int := 719162

/-- Monday is `0`, as `date.weekday` numbers the days. -/
def weekday (day : Int) : Int := (day + 3) % 7

/-- A month of a year; months are numbered from 1. -/
structure YearMonth where
  year : Int
  month : Nat
  month_pos : 1 ≤ month
  month_le : month ≤ 12
  deriving DecidableEq

/-- The first day of a month, counted from 1 January of its year; `l` is the year's leap day. -/
def daysBeforeMonth (l : Int) : Nat → Int
  | 0 | 1 => 0
  | 2 => 31
  | 3 => 59 + l
  | 4 => 90 + l
  | 5 => 120 + l
  | 6 => 151 + l
  | 7 => 181 + l
  | 8 => 212 + l
  | 9 => 243 + l
  | 10 => 273 + l
  | 11 => 304 + l
  | _ => 334 + l

/-- The length of a month; `l` is the year's leap day. -/
def daysInMonth (l : Int) : Nat → Int
  | 2 => 28 + l
  | 4 | 6 | 9 | 11 => 30
  | _ => 31

/-- The month of the day `doy` of a year, counted from 0; `l` is the year's leap day. -/
def monthOfYearDay (l doy : Int) : Nat :=
  if doy < 31 then 1
  else if doy < 59 + l then 2
  else if doy < 90 + l then 3
  else if doy < 120 + l then 4
  else if doy < 151 + l then 5
  else if doy < 181 + l then 6
  else if doy < 212 + l then 7
  else if doy < 243 + l then 8
  else if doy < 273 + l then 9
  else if doy < 304 + l then 10
  else if doy < 334 + l then 11
  else 12

/-- The year of a day, by cycles of 400, 100, 4 and 1 years. The last day of a cycle of 100 or of 4 years belongs to the
year before the one a plain division gives, hence the two `min`. -/
def yearOfDay (day : Int) : Int :=
  let n := day + epoch
  let r400 := n % 146097
  let n100 := min 3 (r400 / 36524)
  let r100 := r400 - 36524 * n100
  let n4 := r100 / 1461
  let r4 := r100 % 1461
  let n1 := min 3 (r4 / 365)
  400 * (n / 146097) + 100 * n100 + 4 * n4 + n1 + 1

theorem leapDay_nonneg (y : Int) : 0 ≤ leapDay y := by
  unfold leapDay
  split <;> omega

/-- A year has 365 days, and its leap day. -/
theorem daysBeforeYear_succ (y : Int) : daysBeforeYear (y + 1) = daysBeforeYear y + 365 + leapDay y := by
  simp only [daysBeforeYear, leapDay, isLeap, Bool.and_eq_true, Bool.or_eq_true, beq_iff_eq, bne_iff_ne]
  split <;> omega

/-- Before 1 January of a year given by its cycles. -/
theorem daysBeforeYear_cycles (a b c d : Int) (hb : 0 ≤ b) (hb' : b ≤ 3) (hc : 0 ≤ c) (hc' : c ≤ 24) (hd : 0 ≤ d)
    (hd' : d ≤ 3) : daysBeforeYear (400 * a + 100 * b + 4 * c + d + 1) = 146097 * a + 36524 * b + 1461 * c + 365 * d := by
  have h4 : (400 * a + 100 * b + 4 * c + d + 1 - 1) / 4 = 100 * a + 25 * b + c := by omega
  have h100 : (400 * a + 100 * b + 4 * c + d + 1 - 1) / 100 = 4 * a + b := by omega
  have h400 : (400 * a + 100 * b + 4 * c + d + 1 - 1) / 400 = a := by omega
  simp only [daysBeforeYear, h4, h100, h400]
  ring

/-- A day falls in its year. -/
theorem yearOfDay_spec (day : Int) :
    daysBeforeYear (yearOfDay day) ≤ day + epoch ∧ day + epoch < daysBeforeYear (yearOfDay day + 1) := by
  rw [daysBeforeYear_succ]
  generalize hn : day + epoch = n
  obtain ⟨a, r, b, s, c, t, d, ha, hb, hc, hd⟩ : ∃ a r b s c t d : Int,
      (n = 146097 * a + r ∧ 0 ≤ r ∧ r < 146097) ∧ (b = min 3 (r / 36524) ∧ s = r - 36524 * b) ∧
      (s = 1461 * c + t ∧ 0 ≤ t ∧ t < 1461 ∧ c = s / 1461) ∧ d = min 3 (t / 365) :=
    ⟨n / 146097, n % 146097, _, _, _, _, _, by omega, ⟨rfl, rfl⟩,
      ⟨(Int.mul_ediv_add_emod _ 1461).symm, by omega, by omega, rfl⟩, rfl⟩
  have hy : yearOfDay day = 400 * a + 100 * b + 4 * c + d + 1 := by
    have e1 : n / 146097 = a := by omega
    have e2 : n % 146097 = r := by omega
    have e3 : s % 1461 = t := by omega
    simp only [yearOfDay, hn, e1, e2, ← hb.1, ← hb.2, ← hc.2.2.2, e3, ← hd]
  have hb3 : 0 ≤ b ∧ b ≤ 3 := by omega
  have hs : 0 ≤ s ∧ s ≤ 36524 ∧ (b ≤ 2 → s < 36524) := by omega
  have hc24 : 0 ≤ c ∧ c ≤ 24 := by omega
  have hd3 : 0 ≤ d ∧ d ≤ 3 := by omega
  rw [hy, daysBeforeYear_cycles a b c d hb3.1 hb3.2 hc24.1 hc24.2 hd3.1 hd3.2]
  refine ⟨by omega, ?_⟩
  -- only the last year of a cycle of four can hold a day past its 365th, and it is then a leap year
  by_cases ht : t < 365 * d + 365
  · have := leapDay_nonneg (400 * a + 100 * b + 4 * c + d + 1)
    omega
  · have hleap : leapDay (400 * a + 100 * b + 4 * c + d + 1) = 1 := by
      simp only [leapDay, isLeap, Bool.and_eq_true, Bool.or_eq_true, beq_iff_eq, bne_iff_ne]
      rw [if_pos]
      omega
    omega

/-- The month `m` is one of the twelve and holds the day `doy` of its year. -/
def HoldsDay (l doy : Int) (m : Nat) : Prop :=
  1 ≤ m ∧ m ≤ 12 ∧ daysBeforeMonth l m ≤ doy ∧ doy < daysBeforeMonth l m + daysInMonth l m

/-- A day of a year falls in its month. -/
theorem monthOfYearDay_spec (l doy : Int) (h0 : 0 ≤ doy) (h1 : doy < 365 + l) : HoldsDay l doy (monthOfYearDay l doy) := by
  unfold monthOfYearDay
  -- the months in turn: the day is before the end of this one, or it is not and the next one is tried
  iterate 11
    refine iteInduction (motive := HoldsDay l doy) ?_ ?_ <;> intro hlt
    · simp only [HoldsDay, daysBeforeMonth, daysInMonth]
      omega
  simp only [HoldsDay, daysBeforeMonth, daysInMonth]
  omega

/-- A month is over when the next one starts. -/
theorem daysBeforeMonth_succ (l : Int) (m : Nat) (h1 : 1 ≤ m) (h2 : m ≤ 11) :
    daysBeforeMonth l (m + 1) = daysBeforeMonth l m + daysInMonth l m := by
  interval_cases m <;> simp only [daysBeforeMonth, daysInMonth] <;> ring

/-- A month has at least 28 days. -/
theorem le_daysInMonth (l : Int) (hl : 0 ≤ l) (m : Nat) : 28 ≤ daysInMonth l m := by
  unfold daysInMonth
  split <;> omega

/-- The number of a day in its year, counted from 0. -/
def dayOfYear (day : Int) : Int := day + epoch - daysBeforeYear (yearOfDay day)

/-- The month of a day, counted in its year, holds the day. -/
theorem month_spec (day : Int) :
    HoldsDay (leapDay (yearOfDay day)) (dayOfYear day) (monthOfYearDay (leapDay (yearOfDay day)) (dayOfYear day)) := by
  obtain ⟨h1, h2⟩ := yearOfDay_spec day
  rw [daysBeforeYear_succ] at h2
  exact monthOfYearDay_spec _ _ (by unfold dayOfYear; omega) (by unfold dayOfYear; omega)

namespace YearMonth

/-- The month of a day. -/
def ofDay (day : Int) : YearMonth :=
  ⟨yearOfDay day, monthOfYearDay (leapDay (yearOfDay day)) (dayOfYear day), (month_spec day).1, (month_spec day).2.1⟩

/-- The month before. -/
def prev (ym : YearMonth) : YearMonth :=
  if h : ym.month = 1 then ⟨ym.year - 1, 12, by omega, by omega⟩
  else ⟨ym.year, ym.month - 1, by have := ym.month_pos; omega, by have := ym.month_le; omega⟩

/-- The month after. -/
def next (ym : YearMonth) : YearMonth :=
  if h : ym.month = 12 then ⟨ym.year + 1, 1, by omega, by omega⟩
  else ⟨ym.year, ym.month + 1, by omega, by have := ym.month_le; omega⟩

/-- The first day of a month. -/
def start (ym : YearMonth) : Int :=
  daysBeforeYear ym.year + daysBeforeMonth (leapDay ym.year) ym.month - epoch

/-- The number of days of a month. -/
def length (ym : YearMonth) : Int := daysInMonth (leapDay ym.year) ym.month

/-- Months in a row have numbers in a row. -/
def index (ym : YearMonth) : Int := 12 * ym.year + ym.month

theorem index_inj {a b : YearMonth} (h : a.index = b.index) : a = b := by
  obtain ⟨y, m, hm, hm'⟩ := a
  obtain ⟨y', m', hn, hn'⟩ := b
  simp only [index] at h
  obtain ⟨rfl, rfl⟩ : y = y' ∧ m = m' := by omega
  rfl

@[simp] theorem index_prev (ym : YearMonth) : ym.prev.index = ym.index - 1 := by
  have := ym.month_pos
  unfold prev
  split <;> simp only [index] <;> omega

@[simp] theorem index_next (ym : YearMonth) : ym.next.index = ym.index + 1 := by
  unfold next
  split <;> simp only [index] <;> omega

theorem length_ge (ym : YearMonth) : 28 ≤ ym.length := le_daysInMonth _ (leapDay_nonneg _) _

/-- The first day of the next month follows the last day of this one. -/
theorem start_next (ym : YearMonth) : ym.next.start = ym.start + ym.length := by
  obtain ⟨y, m, hm, hm'⟩ := ym
  by_cases h : m = 12
  · subst h
    simp only [next, start, length, dite_true, daysBeforeYear_succ, daysBeforeMonth, daysInMonth]
    ring
  · simp only [next, start, length, dif_neg h, daysBeforeMonth_succ (leapDay y) m hm (by omega)]
    ring

theorem start_ofDay_le (day : Int) : (ofDay day).start ≤ day := by
  have := (month_spec day).2.2.1
  have hd : dayOfYear day = day + epoch - daysBeforeYear (yearOfDay day) := rfl
  simp only [ofDay, start]
  omega

theorem lt_start_next_ofDay (day : Int) : day < (ofDay day).next.start := by
  have := (month_spec day).2.2.2
  have hd : dayOfYear day = day + epoch - daysBeforeYear (yearOfDay day) := rfl
  rw [start_next]
  simp only [ofDay, start, length]
  omega

/-- A month that comes earlier is over before a later one starts (induction on how many months lie between). -/
theorem start_next_le (a b : YearMonth) (h : a.index < b.index) : a.next.start ≤ b.start := by
  obtain ⟨n, hn⟩ : ∃ n : Nat, b.index = a.next.index + n := ⟨(b.index - a.next.index).toNat, by rw [index_next]; omega⟩
  induction n generalizing a with
  | zero => rw [index_inj (a := a.next) (b := b) (by omega)]
  | succ n ih =>
    have hle : a.next.next.start ≤ b.start := ih a.next (by rw [index_next]; rw [index_next] at hn; omega)
      (by rw [index_next]; omega)
    have := a.next.length_ge
    rw [start_next] at hle
    omega

/-- The months of two days are in the order of the days. -/
theorem index_ofDay_mono {d d' : Int} (h : d ≤ d') : (ofDay d).index ≤ (ofDay d').index := by
  by_contra hlt
  have h1 := start_next_le (ofDay d') (ofDay d) (by omega)
  have h2 := lt_start_next_ofDay d'
  have h3 := start_ofDay_le d
  omega

/-- A month holds the days from its first to its last. -/
theorem ofDay_eq {ym : YearMonth} {day : Int} (h1 : ym.start ≤ day) (h2 : day < ym.start + ym.length) : ofDay day = ym := by
  rw [← start_next] at h2
  apply index_inj
  have h3 := start_ofDay_le day
  have h4 := lt_start_next_ofDay day
  rcases lt_trichotomy (ofDay day).index ym.index with hlt | heq | hgt
  · have := start_next_le _ _ hlt
    omega
  · exact heq
  · have := start_next_le _ _ hgt
    omega

end YearMonth

end Calendar
