import TecTac.Lemmas.Version

/-!
# One version order

The order of `module_state.py` is a total preorder, and the keys of `system_update.py` and of the root helper can always be compared. The two orders agree
on versions that both patterns read alike, unless the letter case of a suffix decides, and then so do the two readers of a constraint that is one
comparison. They do not agree in general: `1.2x` is `1` with the suffix `.2x` for one of them and `1.2` with the suffix `x` for the other.
-/

namespace TecTac

open SystemUpdate

/-! ## What is said of two texts -/

/-- What is assumed of `str.lower`: on ASCII it is the usual one. -/
def LowersAscii (lower : List Char → List Char) : Prop := ∀ s : List Char, (∀ c ∈ s, c.toNat < 128) → lower s = s.map Char.toLower

/-- Both patterns read the same numbers: what follows the numbers that are there is a suffix, or nothing. -/
def ReadsAlike (value : List Char) : Prop := ∃ nums s, numbers (strip value) = some (nums, s) ∧ (Version.ending s).isSome

/-- A suffix that is no rebuild number. -/
def Ordinary (suffix : List Char) : Prop := suffix ≠ [] ∧ rebuild suffix = none

/-- Two suffixes stand in one order, with the case of their letters and without it. -/
def CaseBlind (s t : List Char) : Prop := textOrder s t = textOrder (s.map Char.toLower) (t.map Char.toLower)

/-- The orders of the two texts agree. -/
def OrdersAgree (lower : List Char → List Char) (a b : List Char) (v w : Version) : Prop :=
  (versionKey lower a).order (versionKey lower b) = some (v.order w) ∧
    (helperVersionKey lower (some a)).order (helperVersionKey lower (some b)) = some (v.order w)

/-- A constraint that is one comparison with a version, and not the one that asks for another version. -/
structure OneComparison (constraint : List Char) (operator : Operator) (word : List Char) (w : Version) : Prop where
  asks : Constraint.isAny constraint = false
  one : ∃ p, Constraint.parts constraint = [p] ∧ Constraint.read p = some (operator, word)
  version : Version.parse word = .ok w
  operator : operator ≠ .ne

namespace OneOrderAux

/-! ## Orders part by part -/

theorem textOrder_eq_iff {s t : List Char} : textOrder s t = .eq ↔ s = t := by
  unfold textOrder
  split
  · simp [*]
  · split <;> simp [*]

theorem textOrder_isLE_iff {s t : List Char} : (textOrder s t).isLE = true ↔ s ≤ t := by
  unfold textOrder
  split
  · rename_i h
    simp [h]
  · rename_i h
    split
    · rename_i hlt
      simp [le_of_lt hlt]
    · rename_i hlt
      simp only [Ordering.isLE_gt, Bool.false_eq_true, false_iff, not_le]
      exact lt_of_le_of_ne (not_lt.mp hlt) (Ne.symm h)

instance : Std.TransCmp textOrder where
  eq_swap := by
    intro s t
    unfold textOrder
    rcases lt_trichotomy s t with h | h | h
    · simp [h, ne_of_lt h, ne_of_gt h, not_lt_of_gt h]
    · simp [h]
    · simp [h, ne_of_lt h, ne_of_gt h, not_lt_of_gt h]
  isLE_trans := by
    intro s t u hst htu
    exact textOrder_isLE_iff.2 (le_trans (textOrder_isLE_iff.1 hst) (textOrder_isLE_iff.1 htu))

/-- The kind of a suffix: a rebuild comes after no suffix, and any other suffix before it. -/
def rank (s : List Char) : Nat :=
  match rebuild s with
  | some _ => 2
  | none => if s = [] then 1 else 0

def rebuildNumber (s : List Char) : Nat := (rebuild s).getD 0

/-- The suffix, where it counts as a text. -/
def suffixText (s : List Char) : List Char := if (rebuild s).isSome then [] else s

/-- The order of two suffixes when texts are read through `f`. -/
def suffixOrder (f : List Char → List Char) (s t : List Char) : Ordering :=
  ((compare (rank s) (rank t)).then (compare (rebuildNumber s) (rebuildNumber t))).then (textOrder (f (suffixText s)) (f (suffixText t)))

theorem order_eq (v w : Version) : v.order w = (v.compareCore w).then (suffixOrder id v.suffix w.suffix) := by
  unfold Version.order
  cases v.compareCore w with
  | lt => rfl
  | gt => rfl
  | eq =>
    simp only [Ordering.eq_then]
    split
    · rename_i heq
      simp [heq, suffixOrder, textOrder]
    · rename_i hne
      unfold suffixOrder rank rebuildNumber suffixText
      cases hv : rebuild v.suffix with
      | some n =>
        cases hw : rebuild w.suffix with
        | some m => simp [textOrder]
        | none =>
          simp only [Option.isSome_some, Option.isSome_none]
          split <;> rfl
      | none =>
        cases hw : rebuild w.suffix with
        | some m =>
          simp only [Option.isSome_some, Option.isSome_none]
          split <;> rfl
        | none =>
          simp only [Option.isSome_none, Bool.false_eq_true, if_false, id_eq]
          by_cases hvn : v.suffix = []
          · have hwn : w.suffix ≠ [] := fun h => hne (hvn.trans h.symm)
            simp [hvn, hwn, show compare 1 0 = Ordering.gt from rfl]
          · by_cases hwn : w.suffix = []
            · simp [hvn, hwn, show compare 0 1 = Ordering.lt from rfl]
            · simp [hvn, hwn, textOrder, hne]

/-- The order of `module_state.py` compares the parts of two versions one after the other. -/
instance : Std.TransCmp Version.order := by
  have hsuffix : Std.TransCmp fun v w : Version => textOrder (suffixText v.suffix) (suffixText w.suffix) := {
    eq_swap := Std.OrientedCmp.eq_swap
    isLE_trans := Std.TransCmp.isLE_trans }
  have heq : Version.order = compareLex (compareOn Version.major) (compareLex (compareOn Version.minor) (compareLex (compareOn Version.patch)
      (compareLex (compareOn fun v => rank v.suffix) (compareLex (compareOn fun v => rebuildNumber v.suffix)
        fun v w => textOrder (suffixText v.suffix) (suffixText w.suffix))))) := by
    funext v w
    rw [order_eq, suffixOrder, Version.compareCore]
    simp only [Ordering.then_assoc, id_eq]
    rfl
  rw [heq]
  infer_instance

/-! ## Keys -/

/-- A last part as a number and a text. -/
def lastNumber : KeyEnd → Nat
  | .number n => n
  | .text _ => 0

def lastText : KeyEnd → List Char
  | .number _ => []
  | .text s => s

/-- The keys that are made: the last part is a number exactly at the rank of a rebuild. -/
def Made (k : Key) : Prop := (k.rank = 2 ∧ ∃ n, k.last = .number n) ∨ k.rank ≠ 2 ∧ ∃ s, k.last = .text s

theorem made_versionKey (lower : List Char → List Char) (value : List Char) : Made (versionKey lower value) := by
  unfold versionKey
  split
  · exact .inr ⟨by simp, _, rfl⟩
  · split
    · exact .inr ⟨by simp, _, rfl⟩
    · split
      · exact .inl ⟨rfl, _, rfl⟩
      · refine .inr ⟨?_, _, rfl⟩
        simp only
        split <;> simp

/-- Two keys that are made are ordered part by part. -/
theorem order_made {k l : Key} (hk : Made k) (hl : Made l) : k.order l =
    some ((((((compare k.major l.major).then (compare k.minor l.minor)).then (compare k.patch l.patch)).then (compare k.rank l.rank)).then
      (compare (lastNumber k.last) (lastNumber l.last))).then (textOrder (lastText k.last) (lastText l.last))) := by
  unfold Key.order
  generalize hfront : ((compare k.major l.major).then (compare k.minor l.minor)).then (compare k.patch l.patch) = front
  cases hranks : front.then (compare k.rank l.rank) with
  | lt => rfl
  | gt => rfl
  | eq =>
    have hrank : k.rank = l.rank := Nat.compare_eq_eq.mp (Ordering.then_eq_eq.mp hranks).2
    rcases hk with ⟨hk, n, hn⟩ | ⟨hk, s, hs⟩ <;> rcases hl with ⟨hl, m, hm⟩ | ⟨hl, t, ht⟩
    · simp [hn, hm, KeyEnd.order, lastNumber, lastText, textOrder]
    · exact absurd (hrank.symm.trans hk) hl
    · exact absurd (hrank.trans hl) hk
    · simp [hs, ht, KeyEnd.order, lastNumber, lastText]

theorem order_eq_eq_iff {k l : Key} (hk : Made k) (hl : Made l) : k.order l = some .eq ↔ k = l := by
  rw [order_made hk hl, Option.some.injEq]
  simp only [Ordering.then_eq_eq, Nat.compare_eq_eq, textOrder_eq_iff]
  constructor
  · rintro ⟨⟨⟨⟨⟨hmajor, hminor⟩, hpatch⟩, hrank⟩, hnumber⟩, htext⟩
    obtain ⟨a, b, c, r, e⟩ := k
    obtain ⟨a', b', c', r', e'⟩ := l
    simp only at hmajor hminor hpatch hrank hnumber htext
    subst hmajor hminor hpatch hrank
    rcases hk with ⟨hk, n, rfl⟩ | ⟨hk, s, rfl⟩ <;> rcases hl with ⟨hl, m, rfl⟩ | ⟨hl, t, rfl⟩
    · simpa [lastNumber] using hnumber
    · exact absurd hk hl
    · exact absurd hl hk
    · simpa [lastText] using htext
  · rintro rfl
    simp

/-- The key of a version that was read. -/
def keyOf (lower : List Char → List Char) (v : Version) : Key :=
  match rebuild v.suffix with
  | some n => ⟨v.major, v.minor, v.patch, 2, .number n⟩
  | none => ⟨v.major, v.minor, v.patch, if v.suffix = [] then 1 else 0, .text (lower v.suffix)⟩

theorem ascii_of_ending {s suffix : List Char} (h : Version.ending s = some suffix) : ∀ c ∈ suffix, c.toNat < 128 := by
  obtain ⟨back, -, -, rfl | ⟨c, body, rfl, -, hstart, hbody⟩⟩ := Version.ending_eq_some h
  · simp
  · intro d hd
    rcases List.mem_cons.mp hd with rfl | hd
    · simp only [Version.isSuffixStart, Bool.or_eq_true, beq_iff_eq] at hstart
      rcases hstart with (rfl | rfl) | rfl <;> decide
    · have := hbody d hd
      simp only [Version.isSuffixChar, Version.isAlphanumeric, Bool.or_eq_true, Bool.and_eq_true, decide_eq_true_eq, beq_iff_eq, Char.le_def,
        UInt32.le_iff_toNat_le] at this
      have hn : d.toNat = d.val.toNat := rfl
      rcases this with (((h | h) | h) | rfl) | rfl
      · simp at h
        omega
      · simp at h
        omega
      · simp at h
        omega
      · decide
      · decide

/-- The reading of a text that both patterns read alike. -/
theorem alike_spec {value : List Char} (h : ReadsAlike value) (lower : List Char → List Char) :
    ∃ v, Version.read value = some v ∧ (∀ c ∈ v.suffix, c.toNat < 128) ∧ versionKey lower value = keyOf lower v := by
  obtain ⟨⟨major, minor, patch⟩, s, hnumbers, hend⟩ := h
  obtain ⟨suffix, hsuffix⟩ := Option.isSome_iff_exists.mp hend
  obtain ⟨t, hnumber, hrest, hsub⟩ : ∃ t, number (strip value) = some (major, t) ∧
      Version.rest major t = some ⟨major, minor, patch, suffix⟩ ∧ ∃ front, t = front ++ s := by
    unfold numbers at hnumbers
    cases hmajor : number (strip value) with
    | none => simp [hmajor] at hnumbers
    | some found =>
      obtain ⟨n, t⟩ := found
      simp only [hmajor] at hnumbers
      cases hminor : dotted t with
      | none =>
        simp only [hminor, Option.some.injEq, Prod.mk.injEq] at hnumbers
        obtain ⟨⟨rfl, rfl, rfl⟩, rfl⟩ := hnumbers
        exact ⟨t, rfl, by simp [Version.rest, hminor, hsuffix], [], rfl⟩
      | some found' =>
        obtain ⟨n', t'⟩ := found'
        obtain ⟨u, rfl, hu⟩ := dotted_eq_some hminor
        obtain ⟨digits, rfl, -⟩ := number_eq_some hu
        simp only [hminor] at hnumbers
        cases hpatch : dotted t' with
        | none =>
          simp only [hpatch, Option.some.injEq, Prod.mk.injEq] at hnumbers
          obtain ⟨⟨rfl, rfl, rfl⟩, rfl⟩ := hnumbers
          exact ⟨_, rfl, by simp [Version.rest, hminor, hpatch, hsuffix], '.' :: digits, rfl⟩
        | some found'' =>
          obtain ⟨n'', t''⟩ := found''
          obtain ⟨u', rfl, hu'⟩ := dotted_eq_some hpatch
          obtain ⟨digits', rfl, -⟩ := number_eq_some hu'
          simp only [hpatch, Option.some.injEq, Prod.mk.injEq] at hnumbers
          obtain ⟨⟨rfl, rfl, rfl⟩, rfl⟩ := hnumbers
          exact ⟨_, rfl, by simp [Version.rest, hminor, hpatch, hsuffix], '.' :: digits ++ '.' :: digits', by simp⟩
  obtain ⟨front, rfl⟩ := hsub
  obtain ⟨digits, hstrip, hne, hdecimal, -, -⟩ := number_eq_some hnumber
  obtain ⟨back, rfl, hback, hplain⟩ := Version.ending_plain hsuffix
  -- the text was stripped, so that nothing follows the suffix
  have hnil : back = [] := by
    have hsplit : strip value = (digits ++ (front ++ suffix)) ++ back := by
      rw [hstrip]
      simp
    exact Blank.eq_nil_of_strip hsplit hback
  subst hnil
  have hread : Version.read value = some ⟨major, minor, patch, suffix⟩ := by
    rw [← Version.read_strip, Version.read, dropWhile_strip, hnumber]
    exact hrest
  refine ⟨_, hread, ascii_of_ending hsuffix, ?_⟩
  have hv : withoutV (strip value) = strip value := by
    rw [hstrip]
    match digits, hne with
    | c :: cs, _ =>
      have hc : c ≠ 'v' ∧ c ≠ 'V' := by
        constructor <;>
          (rintro rfl
           exact absurd (hdecimal _ List.mem_cons_self) (by decide))
      simp [withoutV, hc.1, hc.2]
  have hstripped : strip (suffix ++ []) = suffix := by
    rcases suffix with - | ⟨c, cs⟩
    · rfl
    · have hblank : Blank [] := by simp [Blank]
      exact strip_eq_of_plain hblank hplain (by simp) hblank
  have hline : '\n' ∉ suffix ++ [] := by
    rw [List.append_nil]
    intro hmem
    exact absurd (hplain _ hmem) (by decide)
  rw [versionKey, hv, hnumbers]
  simp only [hline, if_false, hstripped]
  rfl

theorem made_keyOf (lower : List Char → List Char) (v : Version) : Made (keyOf lower v) := by
  unfold keyOf
  split
  · exact .inl ⟨rfl, _, rfl⟩
  · refine .inr ⟨?_, _, rfl⟩
    simp only
    split <;> simp

/-- The keys of two versions that were read compare their suffixes without the case of the letters. -/
theorem order_keyOf {lower : List Char → List Char} (hnil : lower [] = []) (v w : Version) :
    (keyOf lower v).order (keyOf lower w) = some ((v.compareCore w).then (suffixOrder lower v.suffix w.suffix)) := by
  have hparts : ∀ v : Version, (keyOf lower v).major = v.major ∧ (keyOf lower v).minor = v.minor ∧ (keyOf lower v).patch = v.patch ∧
      (keyOf lower v).rank = rank v.suffix ∧ lastNumber (keyOf lower v).last = rebuildNumber v.suffix ∧
      lastText (keyOf lower v).last = lower (suffixText v.suffix) := by
    intro v
    unfold keyOf rank rebuildNumber suffixText
    cases rebuild v.suffix with
    | none => exact ⟨rfl, rfl, rfl, rfl, rfl, rfl⟩
    | some n => exact ⟨rfl, rfl, rfl, rfl, rfl, hnil.symm⟩
  obtain ⟨hmajor, hminor, hpatch, hrank, hnumber, htext⟩ := hparts v
  obtain ⟨hmajor', hminor', hpatch', hrank', hnumber', htext'⟩ := hparts w
  rw [order_made (made_keyOf lower v) (made_keyOf lower w), hmajor, hminor, hpatch, hrank, hnumber, htext, hmajor', hminor', hpatch', hrank', hnumber',
    htext', suffixOrder, Version.compareCore]
  simp only [Ordering.then_assoc]

/-- Only two suffixes that are no rebuilds are compared as texts. -/
theorem suffixOrder_eq_iff (f : List Char → List Char) (s t : List Char) :
    suffixOrder id s t = suffixOrder f s t ↔ (Ordinary s → Ordinary t → textOrder s t = textOrder (f s) (f t)) := by
  have hrank : ∀ s : List Char, (∃ n, rebuild s = some n ∧ rank s = 2 ∧ suffixText s = []) ∨ (s = [] ∧ rank s = 1) ∨
      (Ordinary s ∧ rank s = 0 ∧ rebuildNumber s = 0 ∧ suffixText s = s) := by
    intro s
    unfold rank suffixText rebuildNumber Ordinary
    cases hs : rebuild s with
    | some n => exact .inl ⟨n, rfl, rfl, rfl⟩
    | none =>
      by_cases hnil : s = []
      · exact .inr (.inl ⟨hnil, by simp [hnil]⟩)
      · exact .inr (.inr ⟨⟨hnil, rfl⟩, by simp [hnil], rfl, by simp⟩)
  have hself : ∀ u : List Char, textOrder u u = .eq := fun u => textOrder_eq_iff.2 rfl
  have hnot : ∀ {s : List Char} {n : Nat}, rebuild s = some n → ¬ Ordinary s := by
    rintro s n hs ⟨-, hnone⟩
    rw [hs] at hnone
    cases hnone
  unfold suffixOrder
  rcases hrank s with ⟨n, hs, hsr, hst⟩ | ⟨rfl, hsr⟩ | ⟨hso, hsr, hsn, hst⟩ <;>
    rcases hrank t with ⟨m, ht, htr, htt⟩ | ⟨rfl, htr⟩ | ⟨hto, htr, htn, htt⟩
  · simp [hsr, htr, hst, htt, hself, hnot hs]
  · simp [hsr, htr, hnot hs, show compare 2 1 = Ordering.gt from rfl]
  · simp [hsr, htr, hnot hs, show compare 2 0 = Ordering.gt from rfl]
  · simp [hsr, htr, hnot ht, show compare 1 2 = Ordering.lt from rfl]
  · simp [hself]
  · simp [hsr, htr, Ordinary, show compare 1 0 = Ordering.gt from rfl]
  · simp [hsr, htr, hnot ht, show compare 0 2 = Ordering.lt from rfl]
  · simp [hsr, htr, Ordinary, show compare 0 1 = Ordering.lt from rfl]
  · simp [hsr, htr, hsn, htn, hst, htt, hso, hto]

theorem compareCore_eq_iff (v w : Version) : v.compareCore w = .eq ↔ v.core = w.core := by
  simp [Version.compareCore, Version.core, Ordering.then_eq_eq, and_assoc]

/-- Where both patterns read two versions alike, the orders agree unless the case of the letters decides. -/
theorem ordersAgree_iff {lower : List Char → List Char} (hlower : LowersAscii lower) {a b : List Char} (ha : ReadsAlike a) (hb : ReadsAlike b)
    {v w : Version} (hv : Version.read a = some v) (hw : Version.read b = some w) : OrdersAgree lower a b v w ↔
      (v.core = w.core → Ordinary v.suffix → Ordinary w.suffix → CaseBlind v.suffix w.suffix) := by
  obtain ⟨v', hv', hascii, hkey⟩ := alike_spec ha lower
  obtain ⟨w', hw', hascii', hkey'⟩ := alike_spec hb lower
  obtain rfl : v' = v := Option.some.inj (hv'.symm.trans hv)
  obtain rfl : w' = w := Option.some.inj (hw'.symm.trans hw)
  have hhelper : OrdersAgree lower a b v' w' ↔ (versionKey lower a).order (versionKey lower b) = some (v'.order w') := and_iff_left_of_imp id
  rw [hhelper, hkey, hkey', order_keyOf (hlower [] (by simp)), order_eq, Option.some.injEq, eq_comm, ← compareCore_eq_iff]
  have hcase : suffixOrder id v'.suffix w'.suffix = suffixOrder lower v'.suffix w'.suffix ↔
      (Ordinary v'.suffix → Ordinary w'.suffix → CaseBlind v'.suffix w'.suffix) := by
    rw [suffixOrder_eq_iff, CaseBlind, hlower _ hascii, hlower _ hascii']
  rw [← hcase]
  cases v'.compareCore w' <;> simp

/-! ## Constraints of one comparison -/

theorem token_eq_some {s word : List Char} (h : Constraint.token s = some word) :
    ∃ front back, s = front ++ (word ++ back) ∧ Blank front ∧ Plain word ∧ word ≠ [] ∧ Blank back := by
  unfold Constraint.token at h
  simp only [Option.ite_none_right_eq_some, Option.some.injEq] at h
  obtain ⟨⟨hne, hback⟩, rfl⟩ := h
  refine ⟨s.takeWhile isSpace, (s.dropWhile isSpace).dropWhile fun c => !isSpace c && c != ',', ?_, fun c hc => List.mem_takeWhile_imp hc,
    fun c hc => by simpa [isPlain] using List.mem_takeWhile_imp hc, hne, fun c hc => List.all_eq_true.mp hback c hc⟩
  rw [List.takeWhile_append_dropWhile, List.takeWhile_append_dropWhile]

/-- A word that names a version begins with a digit. -/
theorem head_of_token {s word : List Char} {w : Version} (h : Constraint.token s = some word) (hw : Version.read word = some w) {c : Char}
    (hc : c ∈ s.head?) : isSpace c = true ∨ isDecimal c = true := by
  obtain ⟨front, back, rfl, hfront, hword, hne, -⟩ := token_eq_some h
  have hblank : Blank [] := by simp [Blank]
  have hstrip : strip word = word := by simpa using strip_eq_of_plain hblank hword hne hblank
  obtain ⟨d, ds, rfl, hd, -⟩ := Version.plain_of_read hw hstrip
  cases front with
  | nil =>
    cases hc
    exact .inr hd
  | cons x xs =>
    cases hc
    exact .inl (hfront _ List.mem_cons_self)

/-- What `system_update.py` makes of a constraint that is one comparison: it finds the operator and the word. -/
theorem satisfies_eq {lower : List Char → List Char} {version p word : List Char} {operator : Operator} {w : Version} (hversion : version ≠ [])
    (hread : Constraint.read p = some (operator, word)) (hw : Version.read word = some w) (hne : operator ≠ .ne) {constraint : List Char}
    (hp : strip constraint = p) (hconstraint : constraint ≠ []) :
    satisfies lower (some version) (some constraint) = ((versionKey lower version).order (versionKey lower word)).map operator.holds := by
  have hdrop : p.dropWhile isSpace = p := by rw [← hp, dropWhile_strip]
  have hnotEq : ∀ c, isSpace c = true ∨ isDecimal c = true → c ≠ '=' ∧ c ≠ '>' ∧ c ≠ '<' := by
    rintro c (hc | hc)
    · refine ⟨?_, ?_, ?_⟩ <;>
        (rintro rfl
         revert hc
         decide)
    · exact ⟨(not_isDecimal_operator hc).1, (not_isDecimal_operator hc).2.1, (not_isDecimal_operator hc).2.2.1⟩
  have hstripToken : ∀ {s : List Char}, Constraint.token s = some word → strip s = word := by
    intro s hs
    obtain ⟨front, back, rfl, hfront, hword, hnil, hback⟩ := token_eq_some hs
    exact strip_eq_of_plain hfront hword hnil hback
  match version, hversion, constraint, hconstraint with
  | x :: xs, _, y :: ys, _ =>
  simp only [satisfies, Option.getD_some, hp]
  simp only [Constraint.read, hdrop] at hread
  rcases Option.or_eq_some_iff.mp hread with hfound | ⟨-, hplain⟩
  · obtain ⟨entry, hentry, hwith⟩ := List.exists_of_findSome?_eq_some hfound
    unfold Constraint.withOperator at hwith
    simp only [Option.ite_none_right_eq_some, Option.map_eq_some_iff, Prod.mk.injEq] at hwith
    obtain ⟨hunder, word', htoken, rfl, rfl⟩ := hwith
    obtain ⟨rest, rfl⟩ := List.isPrefixOf_iff_prefix.mp hunder
    rw [List.drop_left] at htoken
    have hhead : ∀ c ∈ rest.head?, c ≠ '=' := fun c hc => (hnotEq c (head_of_token htoken hw hc)).1
    have hstrip := hstripToken htoken
    simp only [Constraint.operators, List.mem_cons, List.not_mem_nil, or_false] at hentry
    rcases hentry with rfl | rfl | rfl | rfl | rfl | rfl
    · simp [SystemUpdate.operators, List.isPrefixOf, hstrip]
    · exact absurd rfl hne
    · simp [SystemUpdate.operators, hstrip]
    · simp [SystemUpdate.operators, List.isPrefixOf, hstrip]
    -- an operator of one character is not taken for the longer one
    · cases rest with
      | nil => simp [Constraint.token] at htoken
      | cons d ds => simp [SystemUpdate.operators, List.isPrefixOf, Ne.symm (hhead d rfl), hstrip]
    · cases rest with
      | nil => simp [Constraint.token] at htoken
      | cons d ds => simp [SystemUpdate.operators, List.isPrefixOf, Ne.symm (hhead d rfl), hstrip]
  · obtain ⟨word', htoken, heq⟩ := Option.map_eq_some_iff.mp hplain
    cases heq
    obtain rfl : p = word := by rw [← hstripToken htoken, ← hp, strip_strip]
    obtain ⟨c, cs, rfl, hc, -⟩ := Version.plain_of_read hw (by rw [← hp, strip_strip])
    obtain ⟨heq, hgt, hlt⟩ := hnotEq c (.inr hc)
    have hnone : SystemUpdate.operators.find? (fun entry => entry.1.isPrefixOf (c :: cs)) = none := by
      simp [SystemUpdate.operators, List.isPrefixOf, Ne.symm heq, Ne.symm hgt, Ne.symm hlt]
    rw [hnone]
    have hiff := order_eq_eq_iff (made_versionKey lower (x :: xs)) (made_versionKey lower (c :: cs))
    rw [order_made (made_versionKey lower (x :: xs)) (made_versionKey lower (c :: cs))] at hiff ⊢
    simp only [Option.some.injEq] at hiff
    simp only [← hiff, Option.map_some, Operator.holds, Option.some.injEq]
    exact (beq_eq_decide _ _).symm

theorem satisfies_agrees {lower : List Char → List Char} {version constraint p word : List Char} {operator : Operator} {v w : Version}
    (hany : Constraint.isAny constraint = false) (hparts : Constraint.parts constraint = [p]) (hread : Constraint.read p = some (operator, word))
    (hne : operator ≠ .ne) (hv : Version.read version = some v) (hw : Version.read word = some w) (hagree : OrdersAgree lower version word v w) :
    versionSatisfies version constraint = .ok (operator.holds (v.order w)) ∧
      satisfies lower (some version) (some constraint) = some (operator.holds (v.order w)) := by
  have hp : strip constraint = p := by
    have hjoin : [','].intercalate ((Constraint.raw constraint).splitOn ',') = Constraint.raw constraint := List.intercalate_splitOn ','
    rw [show (Constraint.raw constraint).splitOn ',' = [p] from hparts] at hjoin
    simpa [List.intercalate, Constraint.raw] using hjoin.symm
  have hconstraint : constraint ≠ [] := by
    rintro rfl
    exact absurd hany (by decide)
  have hversion : version ≠ [] := by
    rintro rfl
    simp [Version.read, number] at hv
  constructor
  · rw [versionSatisfies, hany, hparts, Version.parse, hv]
    simp only [Bool.false_eq_true, if_false, Raise.ok_bind]
    rcases satisfiesParts_cons constraint v p [] with ⟨hnone, -⟩ | ⟨operator', expected, hpart, heq⟩
    · simp [Constraint.part, hread, hw] at hnone
    · obtain ⟨word', hread', hw'⟩ := part_eq_some hpart
      rw [hread] at hread'
      cases hread'
      rw [hw] at hw'
      cases hw'
      rw [heq]
      cases operator.holds (v.order w) <;> rfl
  · rw [satisfies_eq hversion hread hw hne hp hconstraint, hagree.1]
    rfl

end OneOrderAux

open OneOrderAux

/-- The order of module versions is a total preorder, and the keys can always be compared. Both orders agree on two versions that are read alike exactly
when the case of the letters does not decide, and both readers answer alike on an empty constraint and on one comparison with a version on whose place the
orders agree. -/
theorem one_version_order (lower : List Char → List Char) (hlower : LowersAscii lower) :
    ((∀ v w : Version, w.order v = (v.order w).swap) ∧ (∀ v w : Version, (v.order w).isLE ∨ (w.order v).isLE) ∧
      ∀ u v w : Version, (u.order v).isLE → (v.order w).isLE → (u.order w).isLE) ∧
    (∀ a b, ((versionKey lower a).order (versionKey lower b)).isSome ∧ ((helperVersionKey lower a).order (helperVersionKey lower b)).isSome) ∧
    (∀ a b v w, Version.parse a = .ok v → Version.parse b = .ok w → ReadsAlike a → ReadsAlike b →
      (OrdersAgree lower a b v w ↔ (v.core = w.core → Ordinary v.suffix → Ordinary w.suffix → CaseBlind v.suffix w.suffix))) ∧
    ∀ version constraint v, Version.parse version = .ok v →
      (constraint = [] ∨ ∃ operator word w, OneComparison constraint operator word w ∧ OrdersAgree lower version word v w) →
      ∃ b, versionSatisfies version constraint = .ok b ∧ satisfies lower (some version) (some constraint) = some b := by
  have hparse : ∀ {a : List Char} {v : Version}, Version.parse a = .ok v → Version.read a = some v := by
    intro a v h
    unfold Version.parse at h
    split at h
    · rename_i v' hv'
      cases h
      exact hv'
    · cases h
  have hsome : ∀ a b, ((versionKey lower a).order (versionKey lower b)).isSome := by
    intro a b
    rw [order_made (made_versionKey lower a) (made_versionKey lower b)]
    rfl
  refine ⟨⟨fun v w => Std.OrientedCmp.eq_swap, fun v w => ?_, fun u v w => Std.TransCmp.isLE_trans⟩,
    fun a b => ⟨hsome a b, hsome _ _⟩, fun a b v w ha hb halike halike' => ordersAgree_iff hlower halike halike' (hparse ha) (hparse hb), ?_⟩
  · have hswap : w.order v = (v.order w).swap := Std.OrientedCmp.eq_swap
    rw [hswap]
    cases v.order w <;> simp
  · rintro version constraint v hv (rfl | ⟨operator, word, w, hone, hagree⟩)
    · exact ⟨true, rfl, rfl⟩
    · obtain ⟨p, hparts, hread⟩ := hone.one
      exact ⟨_, satisfies_agrees hone.asks hparts hread hone.operator (hparse hv) (hparse hone.version) hagree⟩

/-- Rebuilds are ordered by their numbers on both sides, and one comparison is answered alike. -/
theorem rebuilds_agree : OrdersAgree (List.map Char.toLower) "1.2-2".toList "1.2-10".toList ⟨1, 2, 0, "-2".toList⟩ ⟨1, 2, 0, "-10".toList⟩ ∧
    ∃ b, versionSatisfies "1.2-2".toList "<1.2-10".toList = .ok b ∧
      satisfies (List.map Char.toLower) (some "1.2-2".toList) (some "<1.2-10".toList) = some b := by
  obtain ⟨-, -, horders, hconstraints⟩ := one_version_order (List.map Char.toLower) fun _ _ => rfl
  have hagree : OrdersAgree (List.map Char.toLower) "1.2-2".toList "1.2-10".toList ⟨1, 2, 0, "-2".toList⟩ ⟨1, 2, 0, "-10".toList⟩ := by
    refine (horders _ _ _ _ (by decide +kernel) (by decide +kernel) ⟨(1, 2, 0), "-2".toList, by decide +kernel, by decide +kernel⟩
      ⟨(1, 2, 0), "-10".toList, by decide +kernel, by decide +kernel⟩).mpr fun _ hs => absurd hs.2 ?_
    decide +kernel
  refine ⟨hagree, hconstraints _ _ _ (by decide +kernel) (.inr ⟨.lt, "1.2-10".toList, _, ⟨by decide +kernel, ⟨"<1.2-10".toList, ?_, ?_⟩, ?_, ?_⟩, hagree⟩)⟩
  all_goals decide +kernel

/-- The case of a letter and a number before a letter order two versions differently; a constraint that asks for another version, one of two parts and the
star are answered differently. -/
theorem orders_and_constraints_differ :
    (Version.order ⟨1, 0, 0, "-RC".toList⟩ ⟨1, 0, 0, "-rc".toList⟩ = .lt ∧ Version.parse "1.0-RC".toList = .ok ⟨1, 0, 0, "-RC".toList⟩ ∧
      Version.parse "1.0-rc".toList = .ok ⟨1, 0, 0, "-rc".toList⟩ ∧
      (versionKey (List.map Char.toLower) "1.0-RC".toList).order (versionKey (List.map Char.toLower) "1.0-rc".toList) = some .eq) ∧
    (Version.order ⟨1, 0, 0, ".2x".toList⟩ ⟨1, 1, 0, []⟩ = .lt ∧ Version.parse "1.2x".toList = .ok ⟨1, 0, 0, ".2x".toList⟩ ∧
      Version.parse "1.1".toList = .ok ⟨1, 1, 0, []⟩ ∧
      (versionKey (List.map Char.toLower) "1.2x".toList).order (versionKey (List.map Char.toLower) "1.1".toList) = some .gt) ∧
    (versionSatisfies "2.0".toList "!=1.0".toList = .ok true ∧ satisfies (List.map Char.toLower) (some "2.0".toList) (some "!=1.0".toList) = some false) ∧
    (versionSatisfies "2.5".toList ">=1.0,<2.0".toList = .ok false ∧
      satisfies (List.map Char.toLower) (some "2.5".toList) (some ">=1.0,<2.0".toList) = some true) ∧
    versionSatisfies "1.0".toList "*".toList = .ok true ∧ satisfies (List.map Char.toLower) (some "1.0".toList) (some "*".toList) = some false := by
  decide +kernel

end TecTac
