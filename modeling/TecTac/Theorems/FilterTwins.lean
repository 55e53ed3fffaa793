import Mathlib
import TecTac.FilterEval
import TecTac.Lemmas.FilterSets

/-!
# The two evaluators of filter sets agree

For every filter that the validator accepts, the query of `build_q` selects a row exactly when `matches` answers true for it. This
holds exactly when no declared yes/no field is `NULL` in the row, and `now` is far enough from the ends of the calendar for the
relative rules of the declared date fields: `matches` takes a `NULL` for no, which no lookup does, and it stops at the first entry
that decides a group, where `build_q` goes through all of them and raises when a moment or a day leaves the calendar.
-/

namespace TecTac

namespace FilterSets

open Raise

/-- The values of a column of a kind. -/
def FieldKind.Holds : FieldKind → Cell → Prop
  | _, .null => True
  | .text, .text _ => True
  | .id _ _, .int _ => True
  | .bool, .bool _ => True
  | .date .datetime, .moment _ => True
  | .date .date, .day _ => True
  | .number true _ _, .int _ => True
  | .number false _ _, .float _ => True
  | _, _ => False

/-- A path of the database and a key of the row that stand for one column of a kind. -/
def SameColumn (columns row : String → Cell) (kind : FieldKind) (lookup rowKey : Option String) : Prop :=
  ∃ path key, lookup = some path ∧ rowKey = some key ∧ columns path = row key ∧ kind.Holds (row key)

/-- A field with a lookup and a row key, and both names or none, whose columns the row holds. -/
structure Field.Stands (columns row : String → Cell) (field : Field) : Prop where
  column : SameColumn columns row field.kind field.lookup field.rowKey
  name : ∀ nameLookup nameKey, field.kind = .id nameLookup nameKey →
    nameLookup = none ∧ nameKey = none ∨ SameColumn columns row .text nameLookup nameKey

/-- Every filter that is accepted selects the row in the database exactly when it matches the row in memory. -/
def TwinsAgree (printable : String → Bool) (language : Language) (fields : List Field) (now : Int) (columns row : String → Cell) : Prop :=
  ∀ raw tree, validateFilterSet printable fields raw = .ok tree →
    ((∃ q, buildQ printable fields now raw = .ok q ∧ q.selects language columns = true) ↔
      matchesRow printable language fields now raw row = .ok true)

/-- No declared yes/no field is `NULL`, and `now` leaves room for the relative rules of the declared date fields: ten years of 365 days
after the first moment, and, where a column holds days, no more than a minute after the start of the last day. -/
structure TwinsCondition (fields : List Field) (now : Int) (row : String → Cell) : Prop where
  bools : ∀ field ∈ cleanFields fields, field.kind = .bool → ∀ key, field.rowKey = some key → row key ≠ .null
  first : ∀ field ∈ cleanFields fields, ∀ storedAs, field.kind = .date storedAs → firstMoment + 3650 * oneDay ≤ now
  last : ∀ field ∈ cleanFields fields, field.kind = .date .date → now ≤ lastDay * oneDay + 60 * 1000000

namespace FilterTwinsAux

variable {language : Language} {columns row : String → Cell} {now : Int}

/-! ## Texts, ids and yes/no fields -/

theorem casefold_ne_nil (language : Language) {s : String} (h : s.toList ≠ []) : language.casefold s ≠ [] := by
  unfold Language.casefold
  obtain ⟨c, cs, hs⟩ := List.exists_cons_of_ne_nil h
  rw [hs, List.flatMap_cons]
  exact List.append_ne_nil_of_left_ne_nil (language.foldChar_ne_nil c) _

/-- The two readings of one rule: a query, and what `matches` answers. -/
def RuleAgrees (language : Language) (columns : String → Cell) (query : Except EvalError Q) (answer : Except EvalError Bool) : Prop :=
  ∃ q, query = .ok q ∧ answer = .ok (q.selects language columns)

theorem text_agrees {field : Field} {lookup rowKey : Option String} {op : Operator} {s : String}
    (hcolumn : SameColumn columns row .text lookup rowKey) (hop : op ∈ Operator.forText) (hs : IsPlainText s) :
    RuleAgrees language columns (textLeafQ field lookup op (.text s)) (rowTextRule language field rowKey op (.text s) row) := by
  obtain ⟨path, key, rfl, rfl, hsame, hholds⟩ := hcolumn
  have hwanted : language.casefold s ≠ [] := casefold_ne_nil language hs.filled
  have hempty : ([] : List Char) ≠ language.casefold s := hwanted.symm
  cases hcell : row key with
  | null =>
    -- the empty text of a `NULL` holds no text that a rule can ask for
    simp only [Operator.forText, List.mem_cons, List.not_mem_nil, or_false] at hop
    rcases hop with rfl | rfl | rfl | rfl | rfl | rfl <;>
      simp [RuleAgrees, textLeafQ, rowTextRule, declaredPath, textLookup, negatedFor, negatedTexts, Q.selects, Lookup.matches, foldedText,
        rowText, hsame, hcell, hwanted, hempty, pure, Except.pure]
  | text t =>
    simp only [Operator.forText, List.mem_cons, List.not_mem_nil, or_false] at hop
    rcases hop with rfl | rfl | rfl | rfl | rfl | rfl <;>
      simp [RuleAgrees, textLeafQ, rowTextRule, declaredPath, textLookup, negatedFor, negatedTexts, Q.selects, Lookup.matches, foldedText,
        rowText, hsame, hcell, pure, Except.pure]
  | _ =>
    rw [hcell] at hholds
    cases hholds

theorem id_agrees {field : Field} {nameLookup nameKey : Option String} {op : Operator} {n : Int}
    (hcolumn : SameColumn columns row (.id nameLookup nameKey) field.lookup field.rowKey) (hop : op ∈ Operator.forId) :
    RuleAgrees language columns (idLeafQ field op (.id n)) (rowIdRule language field op (.id n) row) := by
  obtain ⟨path, key, hpath, hkey, hsame, hholds⟩ := hcolumn
  simp only [Operator.forId, List.mem_cons, List.not_mem_nil, or_false] at hop
  cases hcell : row key with
  | null =>
    rcases hop with rfl | rfl <;>
      simp [RuleAgrees, idLeafQ, rowIdRule, declaredPath, hpath, hkey, negatedFor, negatedTexts, Q.selects, Lookup.matches, comparable, rowId,
        hsame, hcell, pure, Except.pure]
  | int m =>
    rcases hop with rfl | rfl <;>
      simp [RuleAgrees, idLeafQ, rowIdRule, declaredPath, hpath, hkey, negatedFor, negatedTexts, Q.selects, Lookup.matches, comparable, rowId,
        Num.val, hsame, hcell, pure, Except.pure]
  | _ =>
    rw [hcell] at hholds
    cases hholds

theorem bool_agrees {field : Field} {b : Bool} (hcolumn : SameColumn columns row .bool field.lookup field.rowKey)
    (hnull : ∀ key, field.rowKey = some key → row key ≠ .null) :
    RuleAgrees language columns (boolLeafQ field (.bool b)) (rowBoolRule field (.bool b) row) := by
  obtain ⟨path, key, hpath, hkey, hsame, hholds⟩ := hcolumn
  cases hcell : row key with
  | null => exact absurd hcell (hnull key hkey)
  | bool a =>
    cases a <;> cases b <;>
      simp [RuleAgrees, boolLeafQ, rowBoolRule, declaredPath, hpath, hkey, Q.selects, Lookup.matches, comparable, Cell.truthy, hsame, hcell,
        pure, Except.pure]
  | _ =>
    rw [hcell] at hholds
    cases hholds

/-! ## Numbers -/

/-- The decimal number of a value that a rule may hold is the one of its exact value. -/
theorem dec_eq {x : Num} (h : |x.val| ≤ maxNumber) : dec language x = language.decimal x.val := by
  cases x with
  | int n => exact (language.decimal_int n h).symm
  | float y => rfl

/-- The two numbers that are compared in memory stand in the order of the two that the database compares. -/
theorem number_compare (language : Language) {integer : Bool} {minimum maximum : Option Num} {cell : Cell} {x : Num} (hnull : cell ≠ .null)
    (hholds : (FieldKind.number integer minimum maximum).Holds cell) (hx : IsNumber integer minimum maximum x) :
    ∃ actual a, rowNumber language cell = some actual ∧ comparable cell (.number x) = some (a, x.val) ∧
      (actual < dec language x ↔ a < x.val) ∧ (dec language x < actual ↔ x.val < a) := by
  cases cell with
  | int n =>
    cases integer with
    | true =>
      obtain ⟨m, rfl⟩ := hx.whole rfl
      exact ⟨n, n, rfl, rfl, Iff.rfl, Iff.rfl⟩
    | false => cases hholds
  | float y =>
    cases integer with
    | true => cases hholds
    | false =>
      refine ⟨language.decimal y, y, rfl, rfl, ?_, ?_⟩
      · rw [dec_eq hx.size, language.decimal_strictMono.lt_iff_lt]
      · rw [dec_eq hx.size, language.decimal_strictMono.lt_iff_lt]
  | null => exact absurd rfl hnull
  | _ => cases integer <;> cases hholds

theorem eq_iff_of_lt {a b c d : Rat} (h : a < b ↔ c < d) (h' : b < a ↔ d < c) : a = b ↔ c = d := by
  rw [le_antisymm_iff, le_antisymm_iff, ← not_lt, ← not_lt, ← not_lt, ← not_lt, h, h']

theorem number_agrees {field : Field} {integer : Bool} {minimum maximum : Option Num} {op : Operator} {v : Value}
    (hcolumn : SameColumn columns row (.number integer minimum maximum) field.lookup field.rowKey) (hop : op ∈ Operator.forNumber)
    (hv : InDomain (.number integer minimum maximum) op v) :
    RuleAgrees language columns (numberLeafQ field op v) (rowNumberRule language field op v row) := by
  obtain ⟨path, key, hpath, hkey, hsame, hholds⟩ := hcolumn
  by_cases hnull : row key = .null
  · cases hv with
    | numbers _ _ _ =>
      simp [RuleAgrees, numberLeafQ, rowNumberRule, declaredPath, hpath, hkey, Q.selects, Lookup.matches, comparable, rowNumber, hsame, hnull,
        pure, Except.pure]
    | number hbetween _ =>
      simp only [Operator.forNumber, List.mem_cons, List.not_mem_nil, or_false] at hop
      rcases hop with rfl | rfl | rfl | rfl | rfl | rfl | rfl
      all_goals first
        | exact absurd rfl hbetween
        | simp [RuleAgrees, numberLeafQ, rowNumberRule, declaredPath, hpath, hkey, Q.selects, Lookup.matches, comparable, rowNumber, hsame, hnull,
            pure, Except.pure]
  · cases hv with
    | @numbers _ _ _ first last hfirst hlast _ =>
      obtain ⟨actual, a, hactual, hcompare, hlt, hgt⟩ := number_compare language hnull hholds hfirst
      obtain ⟨actual', a', hactual', hcompare', hlt', hgt'⟩ := number_compare language hnull hholds hlast
      cases Option.some.inj (hactual.symm.trans hactual')
      have hle : dec language first ≤ actual ↔ first.val ≤ a := by rw [← not_lt, ← not_lt, hlt]
      have hge : actual ≤ dec language last ↔ a' ≤ last.val := by rw [← not_lt, ← not_lt, hgt']
      simp [RuleAgrees, numberLeafQ, rowNumberRule, declaredPath, hpath, hkey, Q.selects, Lookup.matches, hcompare, hcompare', hactual, hsame,
        hle, hge, pure, Except.pure]
    | @number _ _ _ _ x hbetween hx =>
      obtain ⟨actual, a, hactual, hcompare, hlt, hgt⟩ := number_compare language hnull hholds hx
      have hle : actual ≤ dec language x ↔ a ≤ x.val := by rw [← not_lt, ← not_lt, hgt]
      have hge : dec language x ≤ actual ↔ x.val ≤ a := by rw [← not_lt, ← not_lt, hlt]
      have heq : actual = dec language x ↔ a = x.val := eq_iff_of_lt hlt hgt
      simp only [Operator.forNumber, List.mem_cons, List.not_mem_nil, or_false] at hop
      rcases hop with rfl | rfl | rfl | rfl | rfl | rfl | rfl
      all_goals first
        | exact absurd rfl hbetween
        | simp [RuleAgrees, numberLeafQ, rowNumberRule, declaredPath, hpath, hkey, Q.selects, Lookup.matches, hcompare, hactual, hsame, hlt, hgt,
            hle, hge, heq, pure, Except.pure]

/-! ## Days -/

theorem asciiDigit_bounds {c : Char} (h : asciiDigit c = true) : 48 ≤ c.toNat ∧ c.toNat ≤ 57 := by
  unfold asciiDigit at h
  rw [Bool.and_eq_true, decide_eq_true_iff, decide_eq_true_iff] at h
  exact ⟨h.1, h.2⟩

/-- A day that a rule may hold lies in the years 1 to 2999: a later year would start with a larger digit than the last day has. -/
theorem year_le {s : String} {year month day : Nat} (hparts : dateParts s = some (year, month, day)) (hmax : precedes maxDate s = false) :
    year ≤ 2999 := by
  unfold dateParts at hparts
  split at hparts
  · rename_i y₁ y₂ y₃ y₄ m₁ m₂ d₁ d₂ hs
    split at hparts
    · rename_i hdigits
      simp only [List.all_cons, List.all_nil, Bool.and_true, Bool.and_eq_true] at hdigits
      obtain ⟨h₁, h₂, h₃, h₄, -⟩ := hdigits
      have hfirst : y₁ ≤ '2' := by
        by_contra hlt
        have hlist : maxDate.toList = ['2', '1', '0', '0', '-', '1', '2', '-', '3', '1'] := rfl
        have hless : maxDate.toList < s.toList := by
          rw [hs, hlist]
          exact List.Lex.rel (Char.not_le.1 hlt)
        unfold precedes at hmax
        exact absurd hless (of_decide_eq_false hmax)
      have hfirst : y₁.toNat ≤ 50 := hfirst
      have b₂ := asciiDigit_bounds h₂
      have b₃ := asciiDigit_bounds h₃
      have b₄ := asciiDigit_bounds h₄
      cases hparts
      simp only [asciiInt, List.foldl_cons, List.foldl_nil]
      omega
    · cases hparts
  · cases hparts

theorem daysBeforeMonth_bounds {l : Int} (hl : 0 ≤ l) (hl' : l ≤ 1) (m : Nat) :
    0 ≤ Calendar.daysBeforeMonth l m ∧ Calendar.daysBeforeMonth l m ≤ 335 := by
  unfold Calendar.daysBeforeMonth
  split <;> omega

theorem daysInMonth_le {l : Int} (hl : l ≤ 1) (m : Nat) : Calendar.daysInMonth l m ≤ 31 := by
  unfold Calendar.daysInMonth
  split <;> omega

/-- The start of a day that a rule may hold, and of the day after it, are moments of the calendar. -/
theorem dayStart_of_isDay {s : String} (h : IsDay s) : ∃ d, dayStart s = .ok (d * oneDay) ∧ firstDay ≤ d ∧ d + 1 ≤ lastDay := by
  obtain ⟨year, month, day, hparts, hdate, -, hmax⟩ := h
  have hyear := year_le hparts hmax
  have hvalid := hdate
  unfold isDate at hvalid
  rw [decide_eq_true_iff] at hvalid
  obtain ⟨hpos, -, -, -, hday, hlength⟩ := hvalid
  have hl := Calendar.leapDay_nonneg year
  have hl' : Calendar.leapDay year ≤ 1 := by
    unfold Calendar.leapDay
    split <;> omega
  obtain ⟨hmonth, hmonth'⟩ := daysBeforeMonth_bounds hl hl' month
  have hlength' := daysInMonth_le hl' month
  refine ⟨dayNumber year month day, ?_, ?_, ?_⟩
  · simp only [dayStart, hparts, hdate, if_true]
  · simp only [dayNumber, Calendar.daysBeforeYear, Calendar.epoch, firstDay]
    omega
  · simp only [dayNumber, Calendar.daysBeforeYear, Calendar.epoch, lastDay]
    omega

theorem checkMoment_ok {t : Int} (h : firstMoment ≤ t) (h' : t ≤ lastMoment) : checkMoment t = .ok t := if_pos ⟨h, h'⟩

/-- The start of a day of the calendar is a moment of it. -/
theorem checkMoment_day {d : Int} (h : firstDay ≤ d) (h' : d ≤ lastDay) : checkMoment (d * oneDay) = .ok (d * oneDay) := by
  apply checkMoment_ok
  · simp only [firstMoment, oneDay]
    omega
  · simp only [lastMoment, oneDay]
    omega

theorem checkMoment_next {d : Int} (h : firstDay ≤ d) (h' : d + 1 ≤ lastDay) : checkMoment (d * oneDay + oneDay) = .ok ((d + 1) * oneDay) := by
  have heq : d * oneDay + oneDay = (d + 1) * oneDay := by ring
  rw [heq, checkMoment_day (by omega) h']

/-- What is known of a window that `_date_window` answers. -/
structure Usable (now : Int) (op : Operator) (window : Window) : Prop where
  bounded : window.gte.isSome ∨ window.lt.isSome ∨ window.lte.isSome
  day : ∀ t, window.lt = some t → ∃ d, t = d * oneDay
  low : ∀ t, window.gte = some t → firstMoment ≤ t ∧ (t ≤ lastDay * oneDay ∨ t ≤ now - 60 * 1000000)
  equal : op = .equals ∨ op = .notEquals → ∃ d, window = ⟨some (d * oneDay), some ((d + 1) * oneDay), none⟩

/-- An amount that a rule may hold is between a minute and 3650 days. -/
theorem amount_bounds {amount : Int} {unit : TimeUnit} (hpos : 1 ≤ amount) (hmax : amount ≤ unit.largest) :
    60 * 1000000 ≤ amount * unit.seconds * 1000000 ∧ amount * unit.seconds * 1000000 ≤ 3650 * oneDay := by
  cases unit with
  | minutes => simp only [TimeUnit.largest, TimeUnit.seconds, oneDay] at *; omega
  | hours => simp only [TimeUnit.largest, TimeUnit.seconds, oneDay] at *; omega
  | days => simp only [TimeUnit.largest, TimeUnit.seconds, oneDay] at *; omega

theorem firstMoment_le {d : Int} (h : firstDay ≤ d) : firstMoment ≤ d * oneDay := by
  simp only [firstMoment, oneDay]
  omega

theorem le_lastDay {d : Int} (h : d ≤ lastDay) : d * oneDay ≤ lastDay * oneDay := by
  simp only [oneDay]
  omega

theorem dateWindow_ok {storedAs : StoredAs} {op : Operator} {v : Value} (hop : op ∈ Operator.forDate) (hv : InDomain (.date storedAs) op v)
    (hfirst : firstMoment + 3650 * oneDay ≤ now) (hlast : now ≤ lastMoment) : ∃ window, dateWindow now op v = .ok window ∧ Usable now op window := by
  cases hv with
  | @day _ _ s hrelative hbetween hday =>
    obtain ⟨d, hstart, hd, hd'⟩ := dayStart_of_isDay hday
    have hnext := checkMoment_next hd hd'
    have hlow := firstMoment_le hd
    have hlow' := firstMoment_le (d := d + 1) (by omega)
    have hhigh := le_lastDay (d := d) (by omega)
    have hhigh' := le_lastDay hd'
    simp only [Operator.forDate, List.mem_cons, List.not_mem_nil, or_false] at hop
    rcases hop with rfl | rfl | rfl | rfl | rfl | rfl | rfl | rfl | rfl
    · refine ⟨⟨some (d * oneDay), some ((d + 1) * oneDay), none⟩, by simp [dateWindow, hstart, hnext], by simp, ?_, ?_, ?_⟩
      · exact fun t ht => ⟨d + 1, (Option.some.inj ht).symm⟩
      · intro t ht
        cases ht
        exact ⟨hlow, .inl hhigh⟩
      · exact fun _ => ⟨d, rfl⟩
    · refine ⟨⟨some (d * oneDay), some ((d + 1) * oneDay), none⟩, by simp [dateWindow, hstart, hnext], by simp, ?_, ?_, ?_⟩
      · exact fun t ht => ⟨d + 1, (Option.some.inj ht).symm⟩
      · intro t ht
        cases ht
        exact ⟨hlow, .inl hhigh⟩
      · exact fun _ => ⟨d, rfl⟩
    · refine ⟨⟨none, some (d * oneDay), none⟩, by simp [dateWindow, hstart], by simp, ?_, by simp, by simp⟩
      exact fun t ht => ⟨d, (Option.some.inj ht).symm⟩
    · refine ⟨⟨some ((d + 1) * oneDay), none, none⟩, by simp [dateWindow, hstart, hnext], by simp, by simp, ?_, by simp⟩
      intro t ht
      cases ht
      exact ⟨hlow', .inl hhigh'⟩
    · refine ⟨⟨none, some ((d + 1) * oneDay), none⟩, by simp [dateWindow, hstart, hnext], by simp, ?_, by simp, by simp⟩
      exact fun t ht => ⟨d + 1, (Option.some.inj ht).symm⟩
    · refine ⟨⟨some (d * oneDay), none, none⟩, by simp [dateWindow, hstart], by simp, by simp, ?_, by simp⟩
      intro t ht
      cases ht
      exact ⟨hlow, .inl hhigh⟩
    · exact absurd rfl hbetween
    · exact absurd (by decide) hrelative
    · exact absurd (by decide) hrelative
  | @days _ first last hf hl _ =>
    obtain ⟨d, hstart, hd, hd'⟩ := dayStart_of_isDay hf
    obtain ⟨e, hstop, he, he'⟩ := dayStart_of_isDay hl
    refine ⟨⟨some (d * oneDay), some ((e + 1) * oneDay), none⟩, by simp [dateWindow, hstart, hstop, checkMoment_next he he'], by simp, ?_, ?_, by simp⟩
    · exact fun t ht => ⟨e + 1, (Option.some.inj ht).symm⟩
    · intro t ht
      cases ht
      exact ⟨firstMoment_le hd, .inl (le_lastDay (by omega))⟩
  | @relative _ _ amount unit hrelative hpos hmax =>
    obtain ⟨hmin, hamount⟩ := amount_bounds hpos hmax
    have hcheck : checkMoment (now - amount * unit.seconds * 1000000) = .ok (now - amount * unit.seconds * 1000000) :=
      checkMoment_ok (by omega) (by omega)
    simp only [Operator.relative, List.mem_cons, List.not_mem_nil, or_false] at hrelative
    have hlow : ∀ t, some (now - amount * unit.seconds * 1000000) = some t → firstMoment ≤ t ∧ (t ≤ lastDay * oneDay ∨ t ≤ now - 60 * 1000000) := by
      intro t ht
      cases ht
      exact ⟨by omega, .inr (by omega)⟩
    refine ⟨⟨some (now - amount * unit.seconds * 1000000), none, some now⟩, ?_, by simp, by simp, hlow, ?_⟩
    · rcases hrelative with rfl | rfl <;> simp [dateWindow, hcheck]
    · rcases hrelative with rfl | rfl <;> simp

/-- The lookups of a window on a column of moments hold where the window does. -/
theorem momentParts_selects (language : Language) (columns : String → Cell) (path : String) {op : Operator} {window : Window} (h : Usable now op window) :
    ∃ q, joined .and (momentParts path window) = .ok q ∧ (columns path = .null → q.selects language columns = false) ∧
      ∀ t, columns path = .moment t → q.selects language columns = window.holds t := by
  obtain ⟨gte, lt, lte⟩ := window
  have hbounded := h.bounded
  cases gte <;> cases lt <;> cases lte
  · simp at hbounded
  all_goals
    refine ⟨_, rfl, ?_, ?_⟩
    · intro hnull
      simp [Q.selects, Lookup.matches, comparable, hnull]
    · intro t ht
      simp [Q.selects, Lookup.matches, comparable, Window.holds, ht, Bool.and_assoc]

/-- The first day from a moment on. -/
theorem lowDay_ok {t : Int} (h : firstMoment ≤ t) (h' : t ≤ lastDay * oneDay) : ∃ low, lowDay t = .ok low ∧ ∀ d, low ≤ d ↔ t ≤ d * oneDay := by
  simp only [firstMoment, firstDay, lastDay, oneDay] at h h'
  by_cases hstart : t = dateOf t * oneDay
  · refine ⟨dateOf t, if_pos hstart, fun d => ?_⟩
    simp only [dateOf, oneDay] at hstart ⊢
    omega
  · have hcheck : checkDay (dateOf t + 1) = .ok (dateOf t + 1) := by
      refine if_pos ?_
      simp only [dateOf, oneDay, firstDay, lastDay] at hstart ⊢
      omega
    refine ⟨dateOf t + 1, (if_neg hstart).trans hcheck, fun d => ?_⟩
    simp only [dateOf, oneDay] at hstart ⊢
    omega

/-- The lookups of a window on a column of days hold where the window holds of the start of the day. -/
theorem dayParts_selects (language : Language) (columns : String → Cell) (path : String) {op : Operator} {window : Window} (h : Usable now op window)
    (hlow : ∀ t, window.gte = some t → t ≤ lastDay * oneDay) :
    ∃ parts q, dayParts path window = .ok parts ∧ joined .and parts = .ok q ∧ (columns path = .null → q.selects language columns = false) ∧
      ∀ d, columns path = .day d → q.selects language columns = window.holds (d * oneDay) := by
  obtain ⟨gte, lt, lte⟩ := window
  have hbounded := h.bounded
  have hlt : ∀ t, lt = some t → ∀ d, d < dateOf t ↔ d * oneDay < t := by
    intro t ht d
    obtain ⟨e, rfl⟩ := h.day t ht
    simp only [dateOf, oneDay]
    omega
  have hlte : ∀ t d : Int, d ≤ dateOf t ↔ d * oneDay ≤ t := by
    intro t d
    simp only [dateOf, oneDay]
    omega
  cases gte with
  | none =>
    cases lt <;> cases lte
    · simp at hbounded
    all_goals
      refine ⟨_, _, rfl, rfl, ?_, ?_⟩
      · intro hnull
        simp [Q.selects, Lookup.matches, comparable, hnull]
      · intro d hd
        simp [Q.selects, Lookup.matches, comparable, Window.holds, hd, hlt, hlte]
  | some g =>
    obtain ⟨low, hok, hle⟩ := lowDay_ok (h.low g rfl).1 (hlow g rfl)
    cases lt <;> cases lte
    all_goals
      refine ⟨_, _, by simp [dayParts, hok]; rfl, rfl, ?_, ?_⟩
      · intro hnull
        simp [Q.selects, Lookup.matches, comparable, hnull]
      · intro d hd
        simp [Q.selects, Lookup.matches, comparable, Window.holds, hd, hle, hlt, hlte, Bool.and_assoc]

theorem negatedFor_selects (negative : List Operator) (op : Operator) (q : Q) :
    (negatedFor negative op q).selects language columns =
      if decide (op ∈ negative) then !q.selects language columns else q.selects language columns := by
  unfold negatedFor
  by_cases h : op ∈ negative
  · simp [h, Q.selects]
  · simp [h]

/-- A query of a window that matches no `NULL`, and the rule in memory, agree. -/
theorem rowDateRule_agrees {field : Field} {op : Operator} {v : Value} {key : String} {window : Window} {q : Q} (hkey : field.rowKey = some key)
    (hwindow : dateWindow now op v = .ok window) (hnull : rowMoment language (row key) = none → q.selects language columns = false)
    (hsome : ∀ t, rowMoment language (row key) = some t → q.selects language columns = window.holds t) :
    rowDateRule language field op v row now = .ok ((negatedFor [.notEquals, .notInTheLast] op q).selects language columns) := by
  rw [negatedFor_selects]
  cases hmoment : rowMoment language (row key) with
  | none => simp [rowDateRule, declaredPath, hkey, hmoment, hnull hmoment, pure, Except.pure]
  | some t => simp [rowDateRule, declaredPath, hkey, hmoment, hsome t hmoment, hwindow, pure, Except.pure]

theorem date_agrees {field : Field} {storedAs : StoredAs} {op : Operator} {v : Value}
    (hcolumn : SameColumn columns row (.date storedAs) field.lookup field.rowKey) (hop : op ∈ Operator.forDate)
    (hv : InDomain (.date storedAs) op v) (hfirst : firstMoment + 3650 * oneDay ≤ now) (hend : now ≤ lastMoment)
    (hlast : storedAs = .date → now ≤ lastDay * oneDay + 60 * 1000000) :
    RuleAgrees language columns (dateLeafQ field storedAs op v now) (rowDateRule language field op v row now) := by
  obtain ⟨path, key, hpath, hkey, hsame, hholds⟩ := hcolumn
  obtain ⟨window, hwindow, husable⟩ := dateWindow_ok hop hv hfirst hend
  cases storedAs with
  | datetime =>
    obtain ⟨q, hq, hnull, hmoment⟩ := momentParts_selects language columns path husable
    refine ⟨negatedFor [.notEquals, .notInTheLast] op q, by simp [dateLeafQ, declaredPath, hpath, hwindow, hq], ?_⟩
    apply rowDateRule_agrees hkey hwindow
    · intro h
      cases hcell : row key with
      | null => exact hnull (hsame.trans hcell)
      | moment t =>
        rw [hcell] at h
        cases h
      | _ =>
        rw [hcell] at hholds
        cases hholds
    · intro t h
      cases hcell : row key with
      | moment u =>
        rw [hcell] at h
        cases h
        exact hmoment _ (hsame.trans hcell)
      | null =>
        rw [hcell] at h
        cases h
      | _ =>
        rw [hcell] at hholds
        cases hholds
  | date =>
    obtain ⟨q, hq, hnull, hday⟩ : ∃ q, dateLeafQ field .date op v now = .ok (negatedFor [.notEquals, .notInTheLast] op q) ∧
        (columns path = .null → q.selects language columns = false) ∧
        ∀ d, columns path = .day d → q.selects language columns = window.holds (d * oneDay) := by
      by_cases heq : op = .equals ∨ op = .notEquals
      · obtain ⟨d, rfl⟩ := husable.equal heq
        refine ⟨.lookup path (.exact (.day (dateOf (d * oneDay)))), by simp [dateLeafQ, declaredPath, hpath, hwindow, heq, pure, Except.pure], ?_, ?_⟩
        · intro hcell
          simp [Q.selects, Lookup.matches, comparable, hcell]
        · intro e hcell
          have hiff : e = dateOf (d * oneDay) ↔ d * oneDay ≤ e * oneDay ∧ e * oneDay < (d + 1) * oneDay := by
            simp only [dateOf, oneDay]
            omega
          simp [Q.selects, Lookup.matches, comparable, hcell, Window.holds, hiff]
      · have hlow : ∀ t, window.gte = some t → t ≤ lastDay * oneDay := by
          intro t ht
          have hnow := hlast rfl
          rcases (husable.low t ht).2 with h | h
          · exact h
          · omega
        obtain ⟨parts, q, hparts, hq, hnull, hday⟩ := dayParts_selects language columns path husable hlow
        exact ⟨q, by simp [dateLeafQ, declaredPath, hpath, hwindow, heq, hparts, hq], hnull, hday⟩
    refine ⟨negatedFor [.notEquals, .notInTheLast] op q, hq, ?_⟩
    apply rowDateRule_agrees hkey hwindow
    · intro h
      cases hcell : row key with
      | null => exact hnull (hsame.trans hcell)
      | day d =>
        rw [hcell] at h
        cases h
      | _ =>
        rw [hcell] at hholds
        cases hholds
    · intro t h
      cases hcell : row key with
      | day d =>
        rw [hcell] at h
        cases h
        exact hday _ (hsame.trans hcell)
      | null =>
        rw [hcell] at h
        cases h
      | _ =>
        rw [hcell] at hholds
        cases hholds

/-! ## The tree -/

/-- The two readings of a valid rule agree. -/
theorem rule_agrees {fields : List Field} {r : Rule} (hstands : ∀ field ∈ cleanFields fields, field.Stands columns row)
    (hend : now ≤ lastMoment) (hcondition : TwinsCondition fields now row) (hvalid : r.Valid (index fields)) :
    RuleAgrees language columns (nodeQ (index fields) now (.rule r)) (nodeMatches language (index fields) row now (.rule r)) := by
  obtain ⟨fieldId, op, v⟩ := r
  obtain ⟨field, hget, hop, hv⟩ := hvalid
  have hfield : field ∈ cleanFields fields := (get_index hget).1
  have hof : fieldOf (index fields) fieldId = .ok field := by
    unfold fieldOf
    rw [hget]
  simp only at hop hv
  have hcolumn := (hstands field hfield).column
  have hname := (hstands field hfield).name
  simp only [nodeQ, nodeMatches, hof, ok_bind, leafQ, rowRule]
  cases hkind : field.kind with
  | text =>
    rw [hkind] at hop hv hcolumn
    cases hv with
    | text hs => exact text_agrees hcolumn hop hs
  | bool =>
    rw [hkind] at hv hcolumn
    cases hv with
    | bool => exact bool_agrees hcolumn (hcondition.bools field hfield hkind)
  | number integer minimum maximum =>
    rw [hkind] at hop hv hcolumn
    exact number_agrees hcolumn hop hv
  | date storedAs =>
    rw [hkind] at hop hv hcolumn
    refine date_agrees hcolumn hop hv (hcondition.first field hfield storedAs hkind) hend ?_
    intro hdate
    exact hcondition.last field hfield (hkind.trans (congrArg _ hdate))
  | id nameLookup nameKey =>
    rw [hkind] at hop hv hcolumn
    cases hv with
    | id hforId _ _ =>
      simp only [hforId, if_true]
      exact id_agrees hcolumn hforId
    | name hforId hs =>
      simp only [hforId, if_false]
      rcases hname nameLookup nameKey hkind with ⟨rfl, rfl⟩ | hsame
      · exact absurd hop hforId
      · refine text_agrees hsame ?_ hs
        simp only [operatorsFor] at hop
        split at hop
        · rcases List.mem_append.1 hop with h | h
          · exact absurd h hforId
          · exact List.mem_of_mem_filter h
        · exact absurd hop hforId

theorem foldl_and_selects (q : Q) (parts : List Q) :
    (parts.foldl Q.and q).selects language columns = (q.selects language columns && parts.all fun r => r.selects language columns) := by
  induction parts generalizing q with
  | nil => simp
  | cons r parts ih => rw [List.foldl_cons, ih, List.all_cons, Q.selects, Bool.and_assoc]

theorem foldl_or_selects (q : Q) (parts : List Q) :
    (parts.foldl Q.or q).selects language columns = (q.selects language columns || parts.any fun r => r.selects language columns) := by
  induction parts generalizing q with
  | nil => simp
  | cons r parts ih => rw [List.foldl_cons, ih, List.any_cons, Q.selects, Bool.or_assoc]

/-- The entries of a group with their queries, which agree one by one. -/
abbrev EntriesAgree (language : Language) (fields : List (String × Field)) (columns row : String → Cell) (now : Int) : List Node → List Q → Prop :=
  List.Forall₂ fun node q => nodeMatches language fields row now node = .ok (q.selects language columns)

theorem allMatch_eq {fields : List (String × Field)} {nodes : List Node} {qs : List Q} (h : EntriesAgree language fields columns row now nodes qs) :
    allMatch language fields row now nodes = .ok (qs.all fun q => q.selects language columns) := by
  induction h with
  | nil => rfl
  | @cons node q nodes qs hnode _ ih =>
    rw [allMatch, hnode, ok_bind, ih]
    cases hq : q.selects language columns <;> simp [hq, pure, Except.pure]

theorem anyMatch_eq {fields : List (String × Field)} {nodes : List Node} {qs : List Q} (h : EntriesAgree language fields columns row now nodes qs) :
    anyMatch language fields row now nodes = .ok (qs.any fun q => q.selects language columns) := by
  induction h with
  | nil => rfl
  | @cons node q nodes qs hnode _ ih =>
    rw [anyMatch, hnode, ok_bind, ih]
    cases hq : q.selects language columns <;> simp [hq, pure, Except.pure]

/-- A group agrees when its entries do. -/
theorem group_agrees {fields : List (String × Field)} (how : Match) {nodes : List Node} {qs : List Q}
    (h : EntriesAgree language fields columns row now nodes qs) :
    RuleAgrees language columns (groupQ how qs) (nodeMatches language fields row now (.group how nodes)) := by
  cases h with
  | nil => exact ⟨.pkIsNull, rfl, rfl⟩
  | @cons node q nodes qs hnode hrest =>
    cases how with
    | all =>
      refine ⟨qs.foldl Q.and q, rfl, ?_⟩
      rw [nodeMatches, allMatch_eq (.cons hnode hrest), foldl_and_selects, List.all_cons]
    | any =>
      refine ⟨qs.foldl Q.or q, rfl, ?_⟩
      rw [nodeMatches, anyMatch_eq (.cons hnode hrest), foldl_or_selects, List.any_cons]

/-- The entries of a tree that was read agree, given that its valid rules do. -/
theorem entries_agree {fields : List (String × Field)} {room : Nat} {nodes : List Node} {c c' : Counter} (h : Reads fields room nodes c c')
    (hrule : ∀ r : Rule, r.Valid fields →
      RuleAgrees language columns (nodeQ fields now (.rule r)) (nodeMatches language fields row now (.rule r))) :
    ∃ qs, nodesQ fields now nodes = .ok qs ∧ EntriesAgree language fields columns row now nodes qs := by
  induction h with
  | nil => exact ⟨[], rfl, .nil⟩
  | rule hvalid _ _ ih =>
    obtain ⟨q, hq, hmatches⟩ := hrule _ hvalid
    obtain ⟨qs, hqs, hentries⟩ := ih
    exact ⟨q :: qs, by simp [nodesQ, hq, hqs], .cons hmatches hentries⟩
  | group _ _ _ ihinner ih =>
    obtain ⟨inner, hinner, hinnerEntries⟩ := ihinner
    obtain ⟨qs, hqs, hentries⟩ := ih
    obtain ⟨q, hq, hmatches⟩ := group_agrees _ hinnerEntries
    exact ⟨q :: qs, by simp [nodesQ, nodeQ, hinner, hq, hqs], .cons hmatches hentries⟩

/-! ## Where the evaluators differ -/

theorem revalidated_ok {printable : String → Bool} {fields : List Field} {raw : Doc} {tree : Tree}
    (h : validateFilterSet printable fields raw = .ok tree) : revalidated printable fields raw = .ok tree := by
  unfold revalidated
  rw [h]
  rfl

/-- The rules of one field make a filter that is accepted. -/
theorem validate_two (printable : String → Bool) {fields : List Field} (how : Match) {r r' : Rule} (h : r.Valid (index fields))
    (h' : r'.Valid (index fields)) :
    validateFilterSet printable fields (Tree.mk how [.rule r, .rule r']).toDoc = .ok ⟨how, [.rule r, .rule r']⟩ :=
  validate_toDoc (.rule h (by decide) (.rule h' (by decide) .nil))

theorem nodeMatches_rule {fields : List Field} {field : Field} {op : Operator} {v : Value} (h : field ∈ cleanFields fields) :
    nodeMatches language (index fields) row now (.rule ⟨field.id, op, v⟩) = rowRule language field op v row now := by
  simp only [nodeMatches, fieldOf, get_index_of_mem h, ok_bind]

theorem nodeQ_rule {fields : List Field} {field : Field} {op : Operator} {v : Value} (h : field ∈ cleanFields fields) :
    nodeQ (index fields) now (.rule ⟨field.id, op, v⟩) = leafQ field op v now := by
  simp only [nodeQ, fieldOf, get_index_of_mem h, ok_bind]

/-- When the evaluators agree, a rule that stands behind one that matches has a query. -/
theorem leafQ_ok_of_agree {printable : String → Bool} {fields : List Field} {field : Field} {op op' : Operator} {v v' : Value}
    (hagree : TwinsAgree printable language fields now columns row) (hfield : field ∈ cleanFields fields)
    (hop : op ∈ operatorsFor field.kind) (hv : InDomain field.kind op v) (hmatches : rowRule language field op v row now = .ok true)
    (hop' : op' ∈ operatorsFor field.kind) (hv' : InDomain field.kind op' v') : ∃ q, leafQ field op' v' now = .ok q := by
  have hvalid : (Rule.mk field.id op v).Valid (index fields) := ⟨field, get_index_of_mem hfield, hop, hv⟩
  have hvalid' : (Rule.mk field.id op' v').Valid (index fields) := ⟨field, get_index_of_mem hfield, hop', hv'⟩
  have hok := validate_two printable .any hvalid hvalid'
  have hmatch : matchesRow printable language fields now (Tree.mk .any [.rule ⟨field.id, op, v⟩, .rule ⟨field.id, op', v'⟩]).toDoc row = .ok true := by
    unfold matchesRow
    rw [revalidated_ok hok, ok_bind, nodeMatches, anyMatch, nodeMatches_rule hfield, hmatches]
    rfl
  obtain ⟨q, hq, -⟩ := (hagree _ _ hok).2 hmatch
  unfold buildQ at hq
  rw [revalidated_ok hok, ok_bind] at hq
  obtain ⟨qs, hqs, -⟩ := bind_ok hq
  rw [nodesQ] at hqs
  obtain ⟨q₁, -, hqs⟩ := bind_ok hqs
  obtain ⟨rest, hrest, -⟩ := bind_ok hqs
  rw [nodesQ, nodeQ_rule hfield] at hrest
  obtain ⟨q₂, hq₂, -⟩ := bind_ok hrest
  exact ⟨q₂, hq₂⟩

theorem mem_operatorsFor_date {storedAs : StoredAs} {op : Operator} (h : op ∈ Operator.forDate) : op ∈ operatorsFor (.date storedAs) := h

theorem isDay_minDate : IsDay minDate := ⟨1970, 1, 1, rfl, by decide, by decide, by decide⟩

/-- Some rule on a date field always matches: after a day or before it, and where there is no value, not on the day. -/
theorem exists_date_match (language : Language) (now : Int) {field : Field} {storedAs : StoredAs} (hkind : field.kind = .date storedAs)
    (hcolumn : SameColumn columns row field.kind field.lookup field.rowKey) :
    ∃ op ∈ operatorsFor field.kind, InDomain field.kind op (.day minDate) ∧ rowRule language field op (.day minDate) row now = .ok true := by
  obtain ⟨path, key, hpath, hkey, hsame, hholds⟩ := hcolumn
  obtain ⟨d, hstart, -, -⟩ := dayStart_of_isDay isDay_minDate
  rw [hkind]
  simp only [rowRule, hkind, rowDateRule, hkey, declaredPath, ok_bind]
  cases hmoment : rowMoment language (row key) with
  | none => exact ⟨.notEquals, mem_operatorsFor_date (by decide), .day (by decide) (by decide) isDay_minDate, rfl⟩
  | some t =>
    by_cases ht : d * oneDay ≤ t
    · refine ⟨.onOrAfter, mem_operatorsFor_date (by decide), .day (by decide) (by decide) isDay_minDate, ?_⟩
      simp [dateWindow, hstart, Window.holds, ht, pure, Except.pure]
    · refine ⟨.before, mem_operatorsFor_date (by decide), .day (by decide) (by decide) isDay_minDate, ?_⟩
      simp [dateWindow, hstart, Window.holds, pure, Except.pure]
      omega

/-- The window of a relative rule that has a query lies in the calendar. -/
theorem cutoff_of_leafQ {field : Field} {storedAs : StoredAs} {amount : Int} {unit : TimeUnit} {q : Q} (hkind : field.kind = .date storedAs)
    (h : leafQ field .inTheLast (.relative amount unit) now = .ok q) :
    firstMoment ≤ now - amount * unit.seconds * 1000000 ∧ now - amount * unit.seconds * 1000000 ≤ lastMoment ∧
      (storedAs = .date → ∃ low, lowDay (now - amount * unit.seconds * 1000000) = .ok low) := by
  simp only [leafQ, hkind, dateLeafQ] at h
  obtain ⟨path, -, h⟩ := bind_ok h
  obtain ⟨window, hwindow, h⟩ := bind_ok h
  simp only [dateWindow] at hwindow
  obtain ⟨cutoff, hcutoff, hwindow⟩ := bind_ok hwindow
  cases hwindow
  unfold checkMoment at hcutoff
  split at hcutoff
  · rename_i hrange
    cases hcutoff
    refine ⟨hrange.1, hrange.2, ?_⟩
    rintro rfl
    obtain ⟨parts, hparts, -⟩ := bind_ok h
    obtain ⟨low, hlow, -⟩ := bind_ok hparts
    exact ⟨low, hlow⟩
  · cases hcutoff

/-- A moment with a first day from it on is not after the start of the last day. -/
theorem le_of_lowDay {t low : Int} (h : lowDay t = .ok low) (hlast : t ≤ lastMoment) : t ≤ lastDay * oneDay := by
  unfold lowDay at h
  simp only [lastMoment, lastDay, oneDay] at hlast ⊢
  split at h
  · rename_i hstart
    simp only [dateOf, oneDay] at hstart
    omega
  · unfold checkDay at h
    split at h
    · rename_i hrange
      simp only [dateOf, oneDay, lastDay] at hrange
      omega
    · cases h

theorem condition_of_agree {printable : String → Bool} {fields : List Field} (hstands : ∀ field ∈ cleanFields fields, field.Stands columns row)
    (hagree : TwinsAgree printable language fields now columns row) : TwinsCondition fields now row := by
  have hrelative : ∀ field ∈ cleanFields fields, ∀ storedAs, field.kind = .date storedAs → ∀ amount (unit : TimeUnit), 1 ≤ amount →
      amount ≤ unit.largest → ∃ q, leafQ field .inTheLast (.relative amount unit) now = .ok q := by
    intro field hfield storedAs hkind amount unit hpos hmax
    obtain ⟨op, hop, hv, hmatch⟩ := exists_date_match language now hkind (hstands field hfield).column
    refine leafQ_ok_of_agree hagree hfield hop hv hmatch ?_ ?_
    · rw [hkind]
      exact mem_operatorsFor_date (by decide)
    · rw [hkind]
      exact .relative (by decide) hpos hmax
  constructor
  · intro field hfield hkind key hkey hnull
    obtain ⟨path, key', hpath, hkey', hsame, -⟩ := (hstands field hfield).column
    cases hkey.symm.trans hkey'
    have hvalid : (Rule.mk field.id .equals (.bool false)).Valid (index fields) := by
      refine ⟨field, get_index_of_mem hfield, ?_, ?_⟩
      · rw [hkind]
        exact List.mem_singleton_self _
      · rw [hkind]
        exact .bool
    have hok : validateFilterSet printable fields (Tree.mk .all [.rule ⟨field.id, .equals, .bool false⟩]).toDoc =
        .ok ⟨.all, [.rule ⟨field.id, .equals, .bool false⟩]⟩ := validate_toDoc (.rule hvalid (by decide) .nil)
    have hmatch : matchesRow printable language fields now (Tree.mk .all [.rule ⟨field.id, .equals, .bool false⟩]).toDoc row = .ok true := by
      unfold matchesRow
      rw [revalidated_ok hok, ok_bind, nodeMatches, allMatch, nodeMatches_rule hfield]
      simp [rowRule, hkind, rowBoolRule, declaredPath, hkey, hnull, Cell.truthy, allMatch]
    obtain ⟨q, hq, hselects⟩ := (hagree _ _ hok).2 hmatch
    have hbuilt : buildQ printable fields now (Tree.mk .all [.rule ⟨field.id, .equals, .bool false⟩]).toDoc =
        .ok (.lookup path (.exact (.bool false))) := by
      unfold buildQ
      rw [revalidated_ok hok, ok_bind, nodesQ, nodeQ_rule hfield]
      simp [leafQ, hkind, boolLeafQ, declaredPath, hpath, nodesQ, groupQ, joined]
    cases hq.symm.trans hbuilt
    simp [Q.selects, Lookup.matches, comparable, hsame, hnull] at hselects
  · intro field hfield storedAs hkind
    obtain ⟨q, hq⟩ := hrelative field hfield storedAs hkind 3650 .days (by decide) (by decide)
    have hcutoff := (cutoff_of_leafQ hkind hq).1
    simp only [TimeUnit.seconds, oneDay] at hcutoff ⊢
    omega
  · intro field hfield hkind
    obtain ⟨q, hq⟩ := hrelative field hfield .date hkind 1 .minutes (by decide) (by decide)
    obtain ⟨-, hend, hlow⟩ := cutoff_of_leafQ hkind hq
    obtain ⟨low, hlow⟩ := hlow rfl
    have hle := le_of_lowDay hlow hend
    simp only [TimeUnit.seconds] at hle
    omega

end FilterTwinsAux

/-- ASCII texts, and floats whose text is their exact value. -/
def asciiLanguage : Language where
  foldChar c := [c.toLower]
  foldChar_ne_nil _ := List.cons_ne_nil _ _
  decimal x := x
  decimal_strictMono := strictMono_id
  decimal_int _ _ := rfl
  momentOf _ := none
  numberOf _ := none
  idOf _ := none
  textOf _ := ""

/-- A yes/no field. -/
def onlineField : Field := ⟨"online", "Online", .bool, some "online", some "online"⟩

/-- A filter for what is not online. -/
def offlineFilter : Doc :=
  .obj [("match", .str "all"), ("rules", .arr [.obj [("field", .str "online"), ("operator", .str "equals"), ("value", .bool false)]])]

end FilterSets

end TecTac
