import TecTac.Version

/-!
# What the patterns take

A text that `Version.parse` takes is a word between blanks, and the word has neither a blank nor a comma in it; so such a word can stand in a constraint
and is read there as the same version. A constraint raises on a version exactly when the version comes to a part that is not well formed.
-/

namespace TecTac

/-- A character that can stand in a word of a constraint. -/
def isPlain (c : Char) : Bool := !isSpace c && c != ','

theorem decimalDigit_range {c : Char} (h : isDecimal c = true) : ∃ first ∈ decimalZeros, ∃ d, d < 10 ∧ c.toNat = first + d := by
  unfold isDecimal decimalDigit at h
  rw [Option.isSome_map, List.find?_isSome] at h
  obtain ⟨first, hmem, hrange⟩ := h
  simp only [Bool.and_eq_true, decide_eq_true_eq] at hrange
  exact ⟨first, hmem, c.toNat - first, by omega, by omega⟩

/-- The characters that are no digits, by their numbers: the blanks and the comma. -/
theorem isPlain_of_isDecimal {c : Char} (h : isDecimal c = true) : isPlain c = true := by
  have hplain : ∀ first ∈ decimalZeros, ∀ d < 10, (decide (9 ≤ first + d ∧ first + d ≤ 13) || decide (28 ≤ first + d ∧ first + d ≤ 32) ||
      first + d == 133 || first + d == 160 || first + d == 5760 || decide (8192 ≤ first + d ∧ first + d ≤ 8202) || first + d == 8232 ||
      first + d == 8233 || first + d == 8239 || first + d == 8287 || first + d == 12288 || first + d == 44) = false := by
    decide +kernel
  obtain ⟨first, hmem, d, hd, hc⟩ := decimalDigit_range h
  have := hplain first hmem d hd
  rw [← hc] at this
  have hcomma : c.toNat = 44 → False := by
    intro h44
    rw [h44] at this
    simp at this
  unfold isPlain isSpace
  simp only [Bool.or_eq_false_iff] at this
  simp only [this, Bool.or_self, Bool.not_false, Bool.true_and, bne_iff_ne, ne_eq]
  rintro rfl
  exact hcomma rfl

namespace Version

/-- The characters of a suffix are plain. -/
theorem isPlain_of_isSuffixChar {c : Char} (h : isSuffixChar c = true) : isPlain c = true := by
  unfold isSuffixChar isAlphanumeric at h
  simp only [Bool.or_eq_true, Bool.and_eq_true, decide_eq_true_eq, beq_iff_eq, Char.le_def, UInt32.le_iff_toNat_le] at h
  have hn : c.toNat = c.val.toNat := rfl
  have hrange : 45 ≤ c.toNat ∧ c.toNat ≤ 122 := by
    rcases h with (((h | h) | h) | h) | h
    · simp at h
      omega
    · simp at h
      omega
    · simp at h
      omega
    · subst h
      decide
    · subst h
      decide
  have hcomma : c ≠ ',' := by
    rintro rfl
    exact absurd hrange.1 (by decide)
  simp only [isPlain, isSpace, Bool.and_eq_true, Bool.not_eq_true', bne_iff_ne, ne_eq, hcomma, not_false_eq_true, and_true, Bool.or_eq_false_iff,
    decide_eq_false_iff_not, beq_eq_false_iff_ne]
  omega

theorem isPlain_of_isSuffixStart {c : Char} (h : isSuffixStart c = true) : isPlain c = true := by
  unfold isSuffixStart at h
  simp only [Bool.or_eq_true, beq_iff_eq] at h
  rcases h with (rfl | rfl) | rfl <;> decide

end Version

/-! ## Words between blanks -/

/-- A text without a blank or a comma. -/
def Plain (s : List Char) : Prop := ∀ c ∈ s, isPlain c = true

/-- A text of blanks. -/
def Blank (s : List Char) : Prop := ∀ c ∈ s, isSpace c = true

theorem isSpace_of_isPlain {c : Char} (h : isPlain c = true) : isSpace c = false := by
  unfold isPlain at h
  simpa using (Bool.and_eq_true_iff.mp h).1

theorem dropWhile_append_of_blank {front : List Char} (h : Blank front) (s : List Char) : (front ++ s).dropWhile isSpace = s.dropWhile isSpace := by
  induction front with
  | nil => rfl
  | cons c front ih =>
    rw [List.cons_append, List.dropWhile_cons_of_pos (h c List.mem_cons_self)]
    exact ih fun d hd => h d (List.mem_cons_of_mem _ hd)

theorem dropWhile_of_plain {word : List Char} (h : Plain word) (s : List Char) (hne : word ≠ []) : (word ++ s).dropWhile isSpace = word ++ s := by
  match word, hne with
  | c :: cs, _ =>
    rw [List.cons_append, List.dropWhile_cons_of_neg (by simp [isSpace_of_isPlain (h c List.mem_cons_self)])]

theorem Blank.reverse {s : List Char} (h : Blank s) : Blank s.reverse := fun c hc => h c (List.mem_reverse.mp hc)

theorem Plain.reverse {s : List Char} (h : Plain s) : Plain s.reverse := fun c hc => h c (List.mem_reverse.mp hc)

/-- Stripping a word between blanks leaves the word. -/
theorem strip_eq_of_plain {front word back : List Char} (hfront : Blank front) (hword : Plain word) (hne : word ≠ []) (hback : Blank back) :
    strip (front ++ (word ++ back)) = word := by
  unfold strip
  rw [dropWhile_append_of_blank hfront, dropWhile_of_plain hword back hne, List.reverse_append, dropWhile_append_of_blank hback.reverse]
  have := dropWhile_of_plain hword.reverse [] (by simpa using hne)
  rw [List.append_nil] at this
  rw [this, List.reverse_reverse]

/-- Stripping takes blanks off both ends. -/
theorem strip_spec (s : List Char) : ∃ front back, s = front ++ (strip s ++ back) ∧ Blank front ∧ Blank back := by
  have hblank : ∀ l : List Char, Blank (l.takeWhile isSpace) := fun l c hc => List.mem_takeWhile_imp hc
  refine ⟨s.takeWhile isSpace, ((s.dropWhile isSpace).reverse.takeWhile isSpace).reverse, ?_, hblank s, (hblank _).reverse⟩
  unfold strip
  rw [← List.reverse_append, List.takeWhile_append_dropWhile, List.reverse_reverse, List.takeWhile_append_dropWhile]

/-- A text that was stripped neither begins nor ends with a blank. -/
theorem ends_strip (s : List Char) : (∀ c ∈ (strip s).head?, isSpace c = false) ∧ ∀ c ∈ (strip s).getLast?, isSpace c = false := by
  have hhead : ∀ (l : List Char), ∀ c ∈ (l.dropWhile isSpace).head?, isSpace c = false := by
    intro l c hc
    have := List.head?_dropWhile_not isSpace l
    rw [Option.mem_def.mp hc] at this
    simpa using this
  constructor
  · intro c hc
    obtain ⟨back, hback⟩ := List.dropWhile_suffix isSpace (l := (s.dropWhile isSpace).reverse)
    refine hhead s c ?_
    have hsplit : s.dropWhile isSpace = strip s ++ back.reverse := by
      rw [strip, ← List.reverse_append, hback, List.reverse_reverse]
    rw [hsplit, List.head?_append]
    simp [Option.mem_def.mp hc]
  · intro c hc
    rw [strip, List.getLast?_reverse] at hc
    exact hhead _ c hc

theorem dropWhile_strip (s : List Char) : (strip s).dropWhile isSpace = strip s := by
  cases hs : strip s with
  | nil => rfl
  | cons c cs =>
    have := (ends_strip s).1 c (by simp [hs])
    rw [List.dropWhile_cons_of_neg (by simp [this])]

theorem Blank.eq_nil_of_strip {s front back : List Char} (h : strip s = front ++ back) (hback : Blank back) : back = [] := by
  rcases List.eq_nil_or_concat back with rfl | ⟨back', c, rfl⟩
  · rfl
  · have := (ends_strip s).2 c (by simp [h])
    rw [hback c (by simp)] at this
    cases this

theorem takeWhile_append_blank {p : Char → Bool} (hp : ∀ c, isSpace c = true → p c = false) (s : List Char) {back : List Char} (hback : Blank back) :
    (s ++ back).takeWhile p = s.takeWhile p ∧ (s ++ back).dropWhile p = s.dropWhile p ++ back := by
  have hnone : back.takeWhile p = [] ∧ back.dropWhile p = back := by
    cases back with
    | nil => simp
    | cons c cs => simp [hp c (hback c List.mem_cons_self)]
  induction s with
  | nil => simpa using hnone
  | cons c cs ih => by_cases hc : p c = true <;> simp [hc, ih]

/-! ## Versions -/

theorem number_eq_some {s rest : List Char} {n : Nat} (h : number s = some (n, rest)) :
    ∃ digits, s = digits ++ rest ∧ digits ≠ [] ∧ (∀ c ∈ digits, isDecimal c = true) ∧ n = (intOfDigits digits).getD 0 ∧ ∀ c ∈ rest.head?, isDecimal c = false := by
  unfold number at h
  simp only [Option.ite_none_left_eq_some, Option.some.injEq, Prod.mk.injEq] at h
  obtain ⟨hne, rfl, rfl⟩ := h
  refine ⟨s.takeWhile isDecimal, (List.takeWhile_append_dropWhile).symm, hne, fun c hc => List.mem_takeWhile_imp hc, rfl, ?_⟩
  intro c hc
  have := List.head?_dropWhile_not isDecimal s
  rw [Option.mem_def.mp hc] at this
  simpa using this

theorem dotted_eq_some {s rest : List Char} {n : Nat} (h : dotted s = some (n, rest)) : ∃ t, s = '.' :: t ∧ number t = some (n, rest) := by
  unfold dotted at h
  split at h
  · exact ⟨_, rfl, h⟩
  · cases h

namespace Version

theorem ending_eq_some {s suffix : List Char} (h : ending s = some suffix) : ∃ back, s = suffix ++ back ∧ Blank back ∧
    (suffix = [] ∨ ∃ c body, suffix = c :: body ∧ body ≠ [] ∧ isSuffixStart c = true ∧ ∀ d ∈ body, isSuffixChar d = true) := by
  unfold ending at h
  split at h
  · cases h
    exact ⟨[], rfl, by simp [Blank], .inl rfl⟩
  · rename_i c cs
    split at h
    · rename_i hstart
      simp only [Option.ite_none_right_eq_some, Option.some.injEq] at h
      obtain ⟨⟨hne, hblank⟩, rfl⟩ := h
      refine ⟨cs.dropWhile isSuffixChar, by simp, fun d hd => List.all_eq_true.mp hblank d hd, .inr ⟨c, _, rfl, hne, hstart, ?_⟩⟩
      exact fun d hd => List.mem_takeWhile_imp hd
    · simp only [Option.ite_none_right_eq_some, Option.some.injEq] at h
      obtain ⟨hblank, rfl⟩ := h
      exact ⟨c :: cs, rfl, fun d hd => List.all_eq_true.mp hblank d hd, .inl rfl⟩

theorem ending_plain {s suffix : List Char} (h : ending s = some suffix) : ∃ back, s = suffix ++ back ∧ Blank back ∧ Plain suffix := by
  obtain ⟨back, rfl, hback, hsuffix⟩ := ending_eq_some h
  refine ⟨back, rfl, hback, ?_⟩
  rcases hsuffix with rfl | ⟨c, body, rfl, -, hstart, hbody⟩
  · simp [Plain]
  · intro d hd
    rcases List.mem_cons.mp hd with rfl | hd
    · exact isPlain_of_isSuffixStart hstart
    · exact isPlain_of_isSuffixChar (hbody d hd)

/-- The readings that `rest` tries. -/
theorem rest_eq_some {major : Nat} {s : List Char} {v : Version} (h : rest major s = some v) :
    (∃ suffix, ending s = some suffix ∧ v = ⟨major, 0, 0, suffix⟩) ∨
    (∃ minor s' suffix, dotted s = some (minor, s') ∧ ending s' = some suffix ∧ v = ⟨major, minor, 0, suffix⟩) ∨
    ∃ minor s' patch s'' suffix, dotted s = some (minor, s') ∧ dotted s' = some (patch, s'') ∧ ending s'' = some suffix ∧
      v = ⟨major, minor, patch, suffix⟩ := by
  have hmap : ∀ {s : List Char} {f : List Char → Version}, (ending s).map f = some v → ∃ suffix, ending s = some suffix ∧ v = f suffix := by
    intro s f hs
    obtain ⟨suffix, hsuffix, rfl⟩ := Option.map_eq_some_iff.mp hs
    exact ⟨suffix, hsuffix, rfl⟩
  unfold rest at h
  split at h
  · exact .inl (hmap h)
  · rename_i minor s' hminor
    split at h
    · rcases Option.or_eq_some_iff.mp h with h | ⟨-, h⟩
      · obtain ⟨suffix, hsuffix, rfl⟩ := hmap h
        exact .inr (.inl ⟨minor, s', suffix, hminor, hsuffix, rfl⟩)
      · exact .inl (hmap h)
    · rename_i patch s'' hpatch
      rcases Option.or_eq_some_iff.mp h with h | ⟨-, h⟩
      · obtain ⟨suffix, hsuffix, rfl⟩ := hmap h
        exact .inr (.inr ⟨minor, s', patch, s'', suffix, hminor, hpatch, hsuffix, rfl⟩)
      · rcases Option.or_eq_some_iff.mp h with h | ⟨-, h⟩
        · obtain ⟨suffix, hsuffix, rfl⟩ := hmap h
          exact .inr (.inl ⟨minor, s', suffix, hminor, hsuffix, rfl⟩)
        · exact .inl (hmap h)

theorem plain_digits {digits : List Char} (h : ∀ c ∈ digits, isDecimal c = true) : Plain digits := fun c hc => isPlain_of_isDecimal (h c hc)

theorem rest_plain {major : Nat} {s : List Char} {v : Version} (h : rest major s = some v) : ∃ word back, s = word ++ back ∧ Plain word ∧ Blank back := by
  have hdotted : ∀ {s t : List Char} {n : Nat}, dotted s = some (n, t) → ∃ word, s = word ++ t ∧ Plain word := by
    intro s t n hs
    obtain ⟨u, rfl, hu⟩ := dotted_eq_some hs
    obtain ⟨digits, rfl, -, hdigits, -, -⟩ := number_eq_some hu
    refine ⟨'.' :: digits, rfl, ?_⟩
    intro c hc
    rcases List.mem_cons.mp hc with rfl | hc
    · decide
    · exact plain_digits hdigits c hc
  have happend : ∀ {s t : List Char}, Plain s → Plain t → Plain (s ++ t) := by
    intro s t hs ht c hc
    rcases List.mem_append.mp hc with hc | hc
    · exact hs c hc
    · exact ht c hc
  rcases rest_eq_some h with ⟨suffix, hsuffix, -⟩ | ⟨minor, s', suffix, hminor, hsuffix, -⟩ | ⟨minor, s', patch, s'', suffix, hminor, hpatch, hsuffix, -⟩
  · obtain ⟨back, rfl, hback, hplain⟩ := ending_plain hsuffix
    exact ⟨suffix, back, rfl, hplain, hback⟩
  · obtain ⟨word, rfl, hword⟩ := hdotted hminor
    obtain ⟨back, rfl, hback, hplain⟩ := ending_plain hsuffix
    exact ⟨word ++ suffix, back, by simp, happend hword hplain, hback⟩
  · obtain ⟨word, rfl, hword⟩ := hdotted hminor
    obtain ⟨word', rfl, hword'⟩ := hdotted hpatch
    obtain ⟨back, rfl, hback, hplain⟩ := ending_plain hsuffix
    exact ⟨word ++ (word' ++ suffix), back, by simp, happend hword (happend hword' hplain), hback⟩

/-- A version is a word between blanks that begins with a digit. -/
theorem read_word {value : List Char} {v : Version} (h : read value = some v) :
    ∃ front c word back, value = front ++ (c :: word ++ back) ∧ Blank front ∧ isDecimal c = true ∧ Plain (c :: word) ∧ Blank back := by
  unfold read at h
  obtain ⟨⟨major, s⟩, hnumber, hrest⟩ := Option.bind_eq_some_iff.mp h
  obtain ⟨digits, hdigits, hne, hdecimal, -, -⟩ := number_eq_some hnumber
  obtain ⟨word, back, rfl, hword, hback⟩ := rest_plain hrest
  match digits, hne with
  | c :: cs, _ =>
    refine ⟨value.takeWhile isSpace, c, cs ++ word, back, ?_, fun d hd => List.mem_takeWhile_imp hd, hdecimal c List.mem_cons_self, ?_, hback⟩
    · have := List.takeWhile_append_dropWhile (p := isSpace) (l := value)
      rw [hdigits] at this
      simpa using this.symm
    · intro d hd
      rw [← List.cons_append, List.mem_append] at hd
      rcases hd with hd | hd
      · exact plain_digits hdecimal d hd
      · exact hword d hd

theorem number_append_blank (s : List Char) {back : List Char} (hback : Blank back) :
    number (s ++ back) = (number s).map fun found => (found.1, found.2 ++ back) := by
  have hdecimal : ∀ c, isSpace c = true → isDecimal c = false := by
    intro c hc
    by_contra h
    rw [isSpace_of_isPlain (isPlain_of_isDecimal (by simpa using h))] at hc
    cases hc
  obtain ⟨htake, hdrop⟩ := takeWhile_append_blank hdecimal s hback
  unfold number
  simp only [htake, hdrop]
  split <;> rfl

theorem dotted_append_blank (s : List Char) {back : List Char} (hback : Blank back) :
    dotted (s ++ back) = (dotted s).map fun found => (found.1, found.2 ++ back) := by
  cases s with
  | nil =>
    cases back with
    | nil => rfl
    | cons c cs =>
      have hc : c ≠ '.' := by
        rintro rfl
        exact absurd (hback '.' List.mem_cons_self) (by decide)
      simp [dotted, hc]
  | cons c cs =>
    by_cases hc : c = '.'
    · subst hc
      exact number_append_blank cs hback
    · simp [dotted, hc]

theorem ending_append_blank (s : List Char) {back : List Char} (hback : Blank back) : ending (s ++ back) = ending s := by
  have hchar : ∀ c, isSpace c = true → isSuffixChar c = false := by
    intro c hc
    by_contra h
    rw [isSpace_of_isPlain (isPlain_of_isSuffixChar (by simpa using h))] at hc
    cases hc
  have hall : back.all isSpace = true := List.all_eq_true.mpr hback
  cases s with
  | nil =>
    cases back with
    | nil => rfl
    | cons c cs =>
      have hstart : isSuffixStart c = false := by
        by_contra h
        have := isSpace_of_isPlain (isPlain_of_isSuffixStart (by simpa using h))
        rw [hback c List.mem_cons_self] at this
        cases this
      simp only [List.nil_append, ending, hstart, hall, Bool.false_eq_true, if_false, if_true]
  | cons c cs =>
    obtain ⟨htake, hdrop⟩ := takeWhile_append_blank hchar cs hback
    have hcons : (c :: (cs ++ back)).all isSpace = (c :: cs).all isSpace := by simp [hall]
    simp only [List.cons_append, ending, htake, hdrop, List.all_append, hall, Bool.and_true, hcons]

theorem rest_append_blank (major : Nat) (s : List Char) {back : List Char} (hback : Blank back) : rest major (s ++ back) = rest major s := by
  unfold rest
  rw [dotted_append_blank s hback, ending_append_blank s hback]
  cases dotted s with
  | none => rfl
  | some found =>
    obtain ⟨minor, s'⟩ := found
    simp only [Option.map_some, dotted_append_blank s' hback, ending_append_blank s' hback]
    cases dotted s' with
    | none => rfl
    | some found' => simp only [Option.map_some, ending_append_blank found'.2 hback]

/-- The blanks around a version do not count. -/
theorem read_strip (value : List Char) : read (strip value) = read value := by
  obtain ⟨front, back, heq, hfront, hback⟩ := strip_spec value
  have hdrop : value.dropWhile isSpace = (strip value ++ back).dropWhile isSpace := by
    conv_lhs => rw [heq]
    exact dropWhile_append_of_blank hfront _
  unfold read
  rw [hdrop, dropWhile_strip]
  have hkeep : (strip value ++ back).dropWhile isSpace = strip value ++ back ∨ strip value = [] := by
    cases hs : strip value with
    | nil => exact .inr rfl
    | cons c cs =>
      have := (ends_strip value).1 c (by simp [hs])
      exact .inl (by rw [List.cons_append, List.dropWhile_cons_of_neg (by simp [this])])
  rcases hkeep with hkeep | hnil
  · rw [hkeep, number_append_blank _ hback]
    cases number (strip value) with
    | none => rfl
    | some found => exact (rest_append_blank found.1 found.2 hback).symm
  · rw [hnil, List.nil_append, show back.dropWhile isSpace = [] from List.dropWhile_eq_nil_iff.mpr hback]

/-- A version without blanks around it is a word. -/
theorem plain_of_read {value : List Char} {v : Version} (h : read value = some v) (hstrip : strip value = value) :
    ∃ c word, value = c :: word ∧ isDecimal c = true ∧ Plain value := by
  obtain ⟨front, c, word, back, heq, hfront, hc, hword, hback⟩ := read_word h
  have hvalue : value = c :: word := by
    rw [← hstrip, heq]
    exact strip_eq_of_plain hfront hword (by simp) hback
  exact ⟨c, word, hvalue, hc, hvalue ▸ hword⟩

end Version

/-! ## Constraints -/

/-- A part of a constraint is well formed and holds of a version. -/
def PartHolds (current : Version) (p : List Char) : Prop :=
  ∃ operator expected, Constraint.part p = some (operator, expected) ∧ operator.holds (current.order expected) = true

theorem part_eq_some {p : List Char} {operator : Operator} {expected : Version} (h : Constraint.part p = some (operator, expected)) :
    ∃ word, Constraint.read p = some (operator, word) ∧ Version.read word = some expected := by
  unfold Constraint.part at h
  obtain ⟨⟨operator', word⟩, hread, h⟩ := Option.bind_eq_some_iff.mp h
  obtain ⟨expected', hversion, h⟩ := Option.bind_eq_some_iff.mp h
  cases h
  exact ⟨word, hread, hversion⟩

theorem satisfiesParts_read (constraint : List Char) (current : Version) (p : List Char) (ps : List (List Char)) :
    satisfiesParts constraint current (p :: ps) = match Constraint.read p with
      | none => .error (.constraint constraint)
      | some (operator, word) => do
        let expected ← Version.parse word
        if operator.holds (current.order expected) then satisfiesParts constraint current ps else return false := rfl

/-- What the loop does at a part. -/
theorem satisfiesParts_cons (constraint : List Char) (current : Version) (p : List Char) (ps : List (List Char)) :
    (Constraint.part p = none ∧ ∃ e, satisfiesParts constraint current (p :: ps) = .error e) ∨
      ∃ operator expected, Constraint.part p = some (operator, expected) ∧ satisfiesParts constraint current (p :: ps) =
        if operator.holds (current.order expected) then satisfiesParts constraint current ps else .ok false := by
  rw [satisfiesParts_read]
  cases hread : Constraint.read p with
  | none => exact .inl ⟨by simp [Constraint.part, hread], _, rfl⟩
  | some found =>
    obtain ⟨operator, word⟩ := found
    cases hversion : Version.read word with
    | none => exact .inl ⟨by simp [Constraint.part, hread, hversion], .version word, by simp [Version.parse, hversion]⟩
    | some expected => exact .inr ⟨operator, expected, by simp [Constraint.part, hread, hversion], by simp [Version.parse, hversion]; rfl⟩

/-- The loop raises exactly when the version comes to a part that is not well formed. -/
theorem satisfiesParts_error_iff (constraint : List Char) (current : Version) (ps : List (List Char)) :
    (∃ e, satisfiesParts constraint current ps = .error e) ↔
      ∃ front p back, ps = front ++ p :: back ∧ Constraint.part p = none ∧ ∀ q ∈ front, PartHolds current q := by
  induction ps with
  | nil => simp [satisfiesParts]
  | cons p ps ih =>
    rcases satisfiesParts_cons constraint current p ps with ⟨hnone, herror⟩ | ⟨operator, expected, hpart, heq⟩
    · exact ⟨fun _ => ⟨[], p, ps, rfl, hnone, by simp⟩, fun _ => herror⟩
    · rw [heq]
      constructor
      · intro h
        split at h
        · rename_i hholds
          obtain ⟨front, q, back, rfl, hnone, hfront⟩ := ih.mp h
          refine ⟨p :: front, q, back, rfl, hnone, ?_⟩
          intro r hr
          rcases List.mem_cons.mp hr with rfl | hr
          · exact ⟨operator, expected, hpart, hholds⟩
          · exact hfront r hr
        · obtain ⟨e, he⟩ := h
          cases he
      · rintro ⟨front, q, back, hsplit, hnone, hfront⟩
        cases front with
        | nil =>
          cases hsplit
          rw [hpart] at hnone
          cases hnone
        | cons r front =>
          cases hsplit
          obtain ⟨operator', expected', hpart', hholds⟩ := hfront p List.mem_cons_self
          rw [hpart] at hpart'
          cases hpart'
          rw [if_pos hholds]
          exact ih.mpr ⟨front, q, back, rfl, hnone, fun r hr => hfront r (List.mem_cons_of_mem _ hr)⟩

theorem takeWhile_plain {word : List Char} (h : Plain word) : word.takeWhile (fun c => !isSpace c && c != ',') = word :=
  List.takeWhile_eq_self_iff.mpr h

theorem dropWhile_plain {word : List Char} (h : Plain word) : word.dropWhile (fun c => !isSpace c && c != ',') = [] :=
  List.dropWhile_eq_nil_iff.mpr h

/-- A text between two characters that are no blanks is stripped already. -/
theorem strip_append_of_ends {s back : List Char} (hne : s ≠ []) (hhead : ∀ c ∈ s.head?, isSpace c = false) (hlast : ∀ c ∈ s.getLast?, isSpace c = false)
    (hback : Blank back) : strip (s ++ back) = s := by
  have hkeep : ∀ (t u : List Char), t ≠ [] → (∀ c ∈ t.head?, isSpace c = false) → (t ++ u).dropWhile isSpace = t ++ u := by
    intro t u ht hhead
    cases t with
    | nil => exact absurd rfl ht
    | cons c cs => rw [List.cons_append, List.dropWhile_cons_of_neg (by simp [hhead c (by simp)])]
  have hreverse : s.reverse.dropWhile isSpace = s.reverse := by
    have := hkeep s.reverse [] (by simpa using hne) (by rwa [List.head?_reverse])
    rwa [List.append_nil] at this
  rw [strip, hkeep s back hne hhead, List.reverse_append, dropWhile_append_of_blank hback.reverse, hreverse, List.reverse_reverse]

theorem token_word {front word : List Char} (hfront : Blank front) (h : Plain word) (hne : word ≠ []) : Constraint.token (front ++ word) = some word := by
  have hdrop : (front ++ word).dropWhile isSpace = word := by
    rw [dropWhile_append_of_blank hfront]
    simpa using dropWhile_of_plain h [] hne
  simp only [Constraint.token, hdrop, takeWhile_plain h, dropWhile_plain h]
  simp [hne]

theorem not_isDecimal_operator {c : Char} (h : isDecimal c = true) : c ≠ '=' ∧ c ≠ '>' ∧ c ≠ '<' ∧ c ≠ '!' ∧ c ≠ '*' := by
  refine ⟨?_, ?_, ?_, ?_, ?_⟩ <;>
    (rintro rfl
     revert h
     decide)

/-- The constraint for what is newer than a version names that version. -/
theorem part_above {word : List Char} {v : Version} (h : Version.read word = some v) :
    ∃ kept, Constraint.isAny ('>' :: word) = false ∧ Constraint.parts ('>' :: word) = [kept] ∧ Constraint.part kept = some (.gt, v) := by
  obtain ⟨front, c, cs, back, rfl, hfront, hc, hplain, hback⟩ := Version.read_word h
  -- the blanks behind the version are stripped, those before it are not
  have hlast : ∀ d ∈ ('>' :: (front ++ c :: cs)).getLast?, isSpace d = false := by
    intro d hd
    have hmem : d ∈ c :: cs := by
      rw [List.getLast?_cons, List.getLast?_append] at hd
      cases hcs : (c :: cs).getLast? with
      | none => simp at hcs
      | some e =>
        rw [hcs] at hd
        cases hd
        exact List.mem_of_getLast? hcs
    exact isSpace_of_isPlain (hplain d hmem)
  have hraw : Constraint.raw ('>' :: (front ++ (c :: cs ++ back))) = '>' :: (front ++ c :: cs) := by
    have hhead : ∀ d ∈ ('>' :: (front ++ c :: cs)).head?, isSpace d = false := by
      intro d hd
      cases hd
      decide
    simpa [Constraint.raw] using strip_append_of_ends (List.cons_ne_nil _ _) hhead hlast hback
  refine ⟨'>' :: (front ++ c :: cs), ?_, ?_, ?_⟩
  · rw [Constraint.isAny, hraw]
    simp
  · rw [Constraint.parts, hraw]
    refine List.splitOn_eq_singleton ?_
    intro hmem
    rcases List.mem_cons.mp hmem with hmem | hmem
    · cases hmem
    · rcases List.mem_append.mp hmem with hmem | hmem
      · exact absurd (hfront ',' hmem) (by decide)
      · exact absurd (hplain ',' hmem) (by decide)
  · have hdrop : ('>' :: (front ++ c :: cs)).dropWhile isSpace = '>' :: (front ++ c :: cs) := by
      rw [List.dropWhile_cons_of_neg (by decide)]
    have htoken : Constraint.token (front ++ c :: cs) = some (c :: cs) := token_word hfront hplain (by simp)
    have hequals : (front ++ c :: cs).head? ≠ some '=' := by
      cases front with
      | nil => simpa using (not_isDecimal_operator hc).1
      | cons d ds =>
        intro heq
        cases heq
        exact absurd (hfront '=' List.mem_cons_self) (by decide)
    have hread : Constraint.read ('>' :: (front ++ c :: cs)) = some (.gt, c :: cs) := by
      have hge : ['>', '='].isPrefixOf ('>' :: (front ++ c :: cs)) = false := by
        cases hs : front ++ c :: cs with
        | nil => rfl
        | cons d ds =>
          rw [hs] at hequals
          have hne : d ≠ '=' := by simpa using hequals
          simp [List.isPrefixOf, Ne.symm hne]
      simp only [Constraint.read, hdrop, Constraint.operators, List.findSome?_cons, Constraint.withOperator, hge]
      simp [List.isPrefixOf, htoken]
    have hword : Version.read (c :: cs) = some v := by
      rw [← h, ← Version.read_strip (front ++ (c :: cs ++ back)), strip_eq_of_plain hfront hplain (by simp) hback]
    simp [Constraint.part, hread, hword]

/-- Whether one of two versions is newer than the other can always be told. -/
theorem versionSatisfies_above {version word : List Char} {v w : Version} (hv : Version.read version = some v) (hw : Version.read word = some w) :
    versionSatisfies version ('>' :: word) = .ok (Operator.gt.holds (v.order w)) := by
  obtain ⟨kept, hany, hparts, hpart⟩ := part_above hw
  rw [versionSatisfies, hany, hparts, Version.parse, hv]
  rcases satisfiesParts_cons ('>' :: word) v kept [] with ⟨hnone, -⟩ | ⟨operator, expected, hpart', heq⟩
  · rw [hpart] at hnone
    cases hnone
  · rw [hpart] at hpart'
    cases hpart'
    simp only [Bool.false_eq_true, if_false, Raise.ok_bind, heq]
    cases Operator.gt.holds (v.order w) <;> rfl

end TecTac
