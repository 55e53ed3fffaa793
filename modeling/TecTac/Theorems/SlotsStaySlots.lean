import TecTac.CommandTemplates

/-!
# What a slot can put into a command

A value is checked for its kind: a text and an enum by their characters, a number by its range only. So a negative number is the one value that begins like a flag.
-/

namespace TecTac

namespace SystemCommands

open Raise

/-- The templates after some registrations. -/
inductive Registered : Registry → Prop
  | empty : Registered []
  | register {registry registry' : Registry} (c : RegisterCall) (files : TemplateFiles) (modules : Modules) (h : Registered registry)
      (haccepted : c.register files modules registry = .ok registry') : Registered registry'

/-- The text of a value. -/
def docText : Doc → String
  | .num n => toString n
  | .str s => s
  | _ => ""

/-- The value of a slot in a call. -/
def paramText (params : List (String × Doc)) (name : String) : String := docText (Doc.field name params)

/-- A placeholder as it is written. -/
def placeholder (name : String) : List Char := '\x7b' :: name.toList ++ ['\x7d']

/-- A slot that takes no blanks. -/
def SlotSpec.oneToken : SlotSpec → Prop
  | .text _ _ spaces => spaces = false
  | _ => True

/-- What is promised of a rendered command: it is the text of the template with each placeholder replaced by the value and nothing else changed; no value has a forbidden
character, none begins like a flag, a path or with a blank, and one without spaces has none; and the command and the timeout are within their limits. -/
structure Rendered (template : CommandTemplate) (text : String) (params : List (String × Doc)) (cleaned : Confirmed) (call : RenderedCall) : Prop where
  written : text.toList = (templatePieces text).flatMap (Substitution.fill placeholder)
  all : ∀ before a after, templatePieces text = before ++ .kept a :: after → slotAt (a :: after.flatMap (Substitution.fill placeholder)) = none
  command : call.command.toList = (templatePieces text).flatMap (Substitution.fill fun name => (paramText params name).toList)
  allowed : ∀ slot ∈ template.slots, ∀ c ∈ (paramText params slot.1).toList, c ∉ forbiddenChars
  begins : ∀ slot ∈ template.slots, ∀ c, (paramText params slot.1).toList.head? = some c → c ≠ '-' ∧ c ≠ '/' ∧ isSpace c = false
  token : ∀ slot ∈ template.slots, slot.2.oneToken → ∀ c ∈ (paramText params slot.1).toList, isSpace c = false
  length : call.command.length ≤ maxCommandChars
  timeout : 1 ≤ call.timeout ∧ call.timeout ≤ template.timeout ∧ call.timeout ≤ cleaned.maxTimeout ∧ call.timeout ≤ maxTimeout

namespace SlotAux

/-! ## Characters -/

/-- A letter, a digit, or one of the marks of an enum. -/
def simpleChar (c : Char) : Bool := isAlphaDigit c || c == '.' || c == '_' || c == '-'

theorem simple_range {c : Char} (h : simpleChar c = true) : 45 ≤ c.toNat ∧ c.toNat ≤ 122 := by
  simp only [simpleChar, isAlphaDigit, isLowerDigit, isLower, Char.isDigit, Bool.or_eq_true, Bool.and_eq_true, decide_eq_true_eq, beq_iff_eq] at h
  rcases h with (((((⟨h, h'⟩ | ⟨h, h'⟩) | ⟨h, h'⟩)) | rfl) | rfl) | rfl
  · exact ⟨(show 97 ≤ c.toNat from h).trans' (by decide), (show c.toNat ≤ 122 from h')⟩
  · exact ⟨(show 48 ≤ c.toNat from h).trans' (by decide), (show c.toNat ≤ 57 from h').trans (by decide)⟩
  · exact ⟨(show 65 ≤ c.toNat from h).trans' (by decide), (show c.toNat ≤ 90 from h').trans (by decide)⟩
  · decide
  · decide
  · decide

theorem simple_not_space {c : Char} (h : simpleChar c = true) : isSpace c = false := by
  have hrange := simple_range h
  simp [isSpace]
  omega

theorem simple_not_forbidden {c : Char} (h : simpleChar c = true) : c ∉ forbiddenChars := by
  have hall : (forbiddenChars.all fun d => !simpleChar d) = true := by decide
  intro hmem
  have hnot := List.all_eq_true.1 hall c hmem
  rw [h] at hnot
  cases hnot

theorem printable_not_space {c : Char} (hrange : 32 ≤ c.toNat ∧ c.toNat ≤ 126) (hne : c ≠ ' ') : isSpace c = false := by
  have h32 : c.toNat ≠ 32 := fun heq => hne (Char.toNat_inj.1 (heq.trans (by decide)))
  simp [isSpace]
  omega

/-! ## Values -/

/-- What a slot keeps of its characters and of its values. -/
def Clean : SlotSpec → Prop
  | .int _ _ => True
  | .text _ chars spaces => (∀ c ∈ chars, c ∉ forbiddenChars ∧ 32 ≤ c.toNat ∧ c.toNat ≤ 126) ∧ (spaces = false → ' ' ∉ chars)
  | .enum values => ∀ value ∈ values, isEnumValue value = true

theorem slotValue_text {spec : SlotSpec} {doc : Doc} {value : String} (h : slotValue spec doc = .ok value) : value = docText doc := by
  unfold slotValue at h
  split at h
  · split at h
    · exact (Except.ok.inj h).symm
    · cases h
  · split at h
    · exact (Except.ok.inj h).symm
    · cases h
  · split at h
    · exact (Except.ok.inj h).symm
    · cases h
  · cases h

/-- A text that `strip` leaves alone does not begin with a blank. -/
theorem head_of_strip {s : List Char} (h : strip s = s) {c : Char} (hc : s.head? = some c) : isSpace c = false := by
  obtain ⟨cs, rfl⟩ : ∃ cs, s = c :: cs := by
    cases s with
    | nil => cases hc
    | cons d cs =>
      obtain rfl := Option.some.inj hc
      exact ⟨cs, rfl⟩
  by_contra hspace
  rw [Bool.not_eq_false] at hspace
  have hlength := congrArg List.length h
  have hdrop : ((c :: cs).dropWhile isSpace).length ≤ cs.length := by
    rw [List.dropWhile_cons, if_pos hspace]
    exact (List.dropWhile_sublist isSpace).length_le
  have hmore : (strip (c :: cs)).length ≤ ((c :: cs).dropWhile isSpace).length := by
    rw [strip, List.length_reverse]
    exact ((List.dropWhile_sublist isSpace).length_le).trans_eq (List.length_reverse)
  rw [hlength, List.length_cons] at hmore
  omega

/-- The digits of a number, with a minus before those of a negative one. -/
theorem toList_number (n : Int) :
    (∃ digits : List Char, digits ≠ [] ∧ (∀ c ∈ digits, c.isDigit = true) ∧ (toString n).toList = if 0 ≤ n then digits else '-' :: digits) := by
  have hdigits : ∀ k : Nat, (∀ c ∈ (Nat.repr k).toList, c.isDigit = true) ∧ (Nat.repr k).toList ≠ [] := by
    intro k
    rw [Nat.toList_repr]
    exact ⟨fun c hc => Nat.isDigit_of_mem_toDigits (by decide) (by decide) hc, Nat.toDigits_ne_nil⟩
  cases n with
  | ofNat k =>
    refine ⟨(Nat.repr k).toList, (hdigits k).2, (hdigits k).1, ?_⟩
    rw [if_pos (show 0 ≤ Int.ofNat k from Int.natCast_nonneg k)]
    rfl
  | negSucc k =>
    refine ⟨(Nat.repr (k + 1)).toList, (hdigits (k + 1)).2, (hdigits (k + 1)).1, ?_⟩
    rw [if_neg (Int.negSucc_not_nonneg k).1]
    change ("-" ++ Nat.repr (k + 1)).toList = _
    rw [String.toList_append]
    rfl

theorem digit_simple {c : Char} (h : c.isDigit = true) : simpleChar c = true ∧ c ≠ '-' ∧ c ≠ '/' := by
  refine ⟨by simp [simpleChar, isAlphaDigit, isLowerDigit, h], ?_, ?_⟩
  · rintro rfl
    cases h
  · rintro rfl
    cases h

theorem alpha_not_mark {c : Char} (h : isAlphaDigit c = true) : c ≠ '-' ∧ c ≠ '/' := by
  constructor
  · rintro rfl
    cases h
  · rintro rfl
    cases h

theorem shaped_cons {first rest : Char → Bool} {more : Nat} {text : List Char} (h : shaped first rest more text = true) :
    ∃ c cs, text = c :: cs ∧ first c = true ∧ ∀ d ∈ cs, rest d = true := by
  cases text with
  | nil => cases h
  | cons c cs =>
    simp only [shaped, Bool.and_eq_true, List.all_eq_true] at h
    exact ⟨c, cs, rfl, h.1.1, h.2⟩

/-- What is promised of one value. -/
structure ValueSafe (spec : SlotSpec) (value : List Char) : Prop where
  allowed : ∀ c ∈ value, c ∉ forbiddenChars
  begins : ∀ c, value.head? = some c → c ≠ '-' ∧ c ≠ '/' ∧ isSpace c = false
  token : spec.oneToken → ∀ c ∈ value, isSpace c = false

theorem safe_of_simple {spec : SlotSpec} {value : List Char} (hall : ∀ c ∈ value, simpleChar c = true)
    (hbegins : ∀ c, value.head? = some c → c ≠ '-' ∧ c ≠ '/') : ValueSafe spec value where
  allowed c hc := simple_not_forbidden (hall c hc)
  begins c hc := ⟨(hbegins c hc).1, (hbegins c hc).2, simple_not_space (hall c (List.mem_of_mem_head? (by rw [hc]; rfl)))⟩
  token _ c hc := simple_not_space (hall c hc)

/-- One value: it is safe but for the first character of a negative number. -/
theorem value_safe {spec : SlotSpec} (hclean : Clean spec) {doc : Doc} {value : String} (h : slotValue spec doc = .ok value) :
    (∀ c ∈ value.toList, c ∉ forbiddenChars) ∧ (spec.oneToken → ∀ c ∈ value.toList, isSpace c = false) ∧
      ((∀ c, value.toList.head? = some c → c ≠ '-' ∧ c ≠ '/' ∧ isSpace c = false) ↔ ∀ n, doc = .num n → 0 ≤ n) := by
  have hsafe : ∀ {doc : Doc}, ValueSafe spec value.toList → (∀ n, doc ≠ .num n) →
      (∀ c ∈ value.toList, c ∉ forbiddenChars) ∧ (spec.oneToken → ∀ c ∈ value.toList, isSpace c = false) ∧
        ((∀ c, value.toList.head? = some c → c ≠ '-' ∧ c ≠ '/' ∧ isSpace c = false) ↔ ∀ n, doc = .num n → 0 ≤ n) :=
    fun hvalue hdoc => ⟨hvalue.allowed, hvalue.token, fun _ n hn => absurd hn (hdoc n), fun _ => hvalue.begins⟩
  unfold slotValue at h
  split at h
  · rename_i lo hi n
    split at h
    · obtain rfl := Except.ok.inj h
      obtain ⟨digits, hne, hdigits, htext⟩ := toList_number n
      rw [htext]
      by_cases hn : 0 ≤ n
      · rw [if_pos hn]
        have hvalue : ValueSafe (.int lo hi) digits :=
          safe_of_simple (fun c hc => (digit_simple (hdigits c hc)).1) fun c hc => (digit_simple (hdigits c (List.mem_of_mem_head? (by rw [hc]; rfl)))).2
        refine ⟨hvalue.allowed, hvalue.token, fun _ m hm => ?_, fun _ => hvalue.begins⟩
        cases hm
        exact hn
      · rw [if_neg hn]
        have hall : ∀ c ∈ '-' :: digits, simpleChar c = true := by
          intro c hc
          rcases List.mem_cons.1 hc with rfl | hc
          · rfl
          · exact (digit_simple (hdigits c hc)).1
        refine ⟨fun c hc => simple_not_forbidden (hall c hc), fun _ c hc => simple_not_space (hall c hc), fun hbegins => ?_, fun hrange => absurd (hrange n rfl) hn⟩
        exact absurd rfl (hbegins '-' rfl).1
    · cases h
  · rename_i max chars spaces s
    split at h
    · rename_i hvalue
      obtain rfl := Except.ok.inj h
      obtain ⟨hpos, -, hchars, hmark, hstrip⟩ := hvalue
      refine hsafe ⟨fun c hc => (hclean.1 c (hchars c hc)).1, ?_, ?_⟩ (fun n hn => by cases hn)
      · intro c hc
        have hstrip' : strip s.toList = s.toList := by
          have hlist := congrArg String.toList hstrip
          rwa [stripText, String.toList_ofList] at hlist
        have hhead : s.toList.headD ' ' = c := by
          cases hs : s.toList with
          | nil =>
            rw [hs] at hc
            cases hc
          | cons d ds =>
            rw [hs] at hc
            exact Option.some.inj hc
        rw [hhead] at hmark
        refine ⟨?_, ?_, head_of_strip hstrip' hc⟩
        · rintro rfl
          exact hmark (by simp)
        · rintro rfl
          exact hmark (by simp)
      · intro hone c hc
        refine printable_not_space (hclean.1 c (hchars c hc)).2 ?_
        rintro rfl
        exact hclean.2 hone (hchars ' ' hc)
    · cases h
  · rename_i values s
    split at h
    · rename_i hmem
      obtain rfl := Except.ok.inj h
      have henum := hclean s hmem
      obtain ⟨first, rest, hs, hfirst, hrest⟩ := shaped_cons henum
      refine hsafe (safe_of_simple ?_ ?_) (fun n hn => by cases hn)
      · intro c hc
        rw [hs] at hc
        rcases List.mem_cons.1 hc with rfl | hc
        · simp [simpleChar, hfirst]
        · exact hrest c hc
      · intro c hc
        rw [hs] at hc
        obtain rfl := Option.some.inj hc
        exact alpha_not_mark hfirst
    · cases h
  · cases h

/-! ## Templates -/

theorem clean_of_chars {max : Int} {chars : List Char} {spaces : Bool} {spec : SlotSpec} (h : cleanChars max chars spaces = .ok spec) : Clean spec := by
  obtain ⟨_, hchars, h⟩ := bind_ok h
  obtain ⟨_, hspace, h⟩ := bind_ok h
  obtain rfl := Except.ok.inj h
  have hchars := of_require hchars
  have hspace := of_require hspace
  have hmem : ∀ c, c ∈ chars.dedup.insertionSort (· ≤ ·) ↔ c ∈ chars := fun c => (List.mem_insertionSort _).trans List.mem_dedup
  rw [Bool.and_eq_true, List.all_eq_true] at hchars
  refine ⟨fun c hc => of_decide_eq_true (hchars.2 c ((hmem c).1 hc)), ?_⟩
  intro hone hin
  rw [hone, decide_eq_true ((hmem ' ').1 hin)] at hspace
  cases hspace

theorem clean_of_kind {fields : List (String × Doc)} {spec : SlotSpec} (h : cleanKind fields = .ok spec) : Clean spec := by
  unfold cleanKind at h
  split at h
  · unfold cleanInt at h
    split at h
    · split at h
      · obtain rfl := Except.ok.inj h
        trivial
      · cases h
    · cases h
  · unfold cleanTextSlot at h
    split at h
    · split at h
      · split at h
        · exact clean_of_chars h
        · cases h
      · cases h
    · cases h
  · unfold cleanEnum at h
    split at h
    · split at h
      · rename_i items values hvalues
        split at h
        · rename_i hfits
          obtain rfl := Except.ok.inj h
          simp only [Bool.and_eq_true, List.all_eq_true] at hfits
          exact fun value hvalue => hfits.1.2 value ((List.mem_insertionSort _).1 hvalue)
        · cases h
      · cases h
    · cases h
  · cases h

theorem clean_of_slots {doc : Doc} {slots : List (String × SlotSpec)} (h : cleanSlots doc = .ok slots) : ∀ slot ∈ slots, Clean slot.2 := by
  unfold cleanSlots at h
  split at h
  · obtain rfl := Except.ok.inj h
    nofun
  · obtain ⟨_, _, h⟩ := bind_ok h
    intro slot hslot
    obtain ⟨p, -, hp⟩ := mem_of_mapM_ok h hslot
    unfold cleanSlot at hp
    split at hp
    · obtain ⟨_, _, hp⟩ := bind_ok hp
      obtain ⟨spec, hspec, hp⟩ := bind_ok hp
      obtain rfl := Except.ok.inj hp
      exact clean_of_kind hspec
    · cases hp
  · cases h

theorem timeout_range {doc : Doc} {n : Int} (h : isTimeout doc = some n) : 1 ≤ n ∧ n ≤ maxTimeout := by
  unfold isTimeout at h
  split at h
  · split at h
    · rename_i hrange
      obtain rfl := Option.some.inj h
      exact hrange
    · cases h
  · cases h

/-- Every registered template keeps what the registration checked. -/
theorem registered_clean {registry : Registry} (h : Registered registry) {id : String} {template : CommandTemplate} (hget : Dict.get id registry = some template) :
    (∀ slot ∈ template.slots, Clean slot.2) ∧ 1 ≤ template.timeout ∧ template.timeout ≤ maxTimeout := by
  induction h generalizing id template with
  | empty => cases hget
  | register c files modules _ haccepted ih =>
    obtain ⟨_, _, haccepted⟩ := bind_ok haccepted
    obtain ⟨_, _, haccepted⟩ := bind_ok haccepted
    obtain ⟨_, _, haccepted⟩ := bind_ok haccepted
    obtain ⟨_, _, haccepted⟩ := bind_ok haccepted
    split at haccepted
    · cases haccepted
    · rename_i timeout htimeout
      obtain ⟨_, _, haccepted⟩ := bind_ok haccepted
      obtain ⟨_, _, haccepted⟩ := bind_ok haccepted
      obtain ⟨slots, hslots, haccepted⟩ := bind_ok haccepted
      obtain ⟨⟨text, body, hash⟩, _, haccepted⟩ := bind_ok haccepted
      obtain ⟨_, _, haccepted⟩ := bind_ok haccepted
      obtain ⟨_, _, haccepted⟩ := bind_ok haccepted
      unfold enter at haccepted
      split at haccepted
      · split at haccepted
        · obtain rfl := Except.ok.inj haccepted
          exact ih hget
        · cases haccepted
      · split at haccepted
        · obtain rfl := Except.ok.inj haccepted
          rw [Dict.get_set] at hget
          split at hget
          · obtain rfl := Option.some.inj hget
            exact ⟨clean_of_slots hslots, timeout_range htimeout⟩
          · exact ih hget
        · cases haccepted

theorem confirmed_timeout {registry : Registry} {values : Doc} {cleaned : Confirmed} (h : parameters registry values = .ok cleaned) :
    1 ≤ cleaned.maxTimeout ∧ cleaned.maxTimeout ≤ maxTimeout := by
  unfold parameters at h
  split at h
  · obtain ⟨_, _, h⟩ := bind_ok h
    obtain ⟨ids, _, h⟩ := bind_ok h
    obtain ⟨hashes, _, h⟩ := bind_ok h
    obtain ⟨_, _, h⟩ := bind_ok h
    split at h
    · cases h
    · rename_i limit hlimit
      obtain ⟨held, _, h⟩ := bind_ok h
      obtain ⟨_, _, h⟩ := bind_ok h
      obtain rfl := Except.ok.inj h
      exact timeout_range hlimit
  · cases h

/-! ## Rendering -/

theorem slotAt_recognizes : Substitution.Recognizes slotAt placeholder where
  found := by
    intro text name rest h
    unfold slotAt at h
    split at h
    · rename_i c cs
      split at h
      · rename_i hopen
        dsimp only at h
        split at h
        · rename_i d after hdrop
          split at h
          · rename_i hclose
            obtain ⟨rfl, rfl⟩ := Prod.mk.inj (Option.some.inj h)
            have hsplit := List.takeWhile_append_dropWhile (p := fun c => isLowerDigit c || c == '_') (l := cs)
            rw [hdrop, hclose.1] at hsplit
            rw [hopen, placeholder, String.toList_ofList]
            change _ = '\x7b' :: ((cs.takeWhile (fun c => isLowerDigit c || c == '_') ++ ['\x7d']) ++ after)
            rw [List.append_assoc, List.singleton_append, hsplit]
          · cases h
        · cases h
      · cases h
    · cases h
  nonempty _ := List.cons_ne_nil _ _

/-- The values of a call are the texts of the parameters. -/
theorem values_written {slots : List (String × SlotSpec)} {params : List (String × Doc)} {values : List (String × String)}
    (h : slots.mapM (slotText params) = .ok values) : ∀ name value, valueOf values name = .ok value → (paramText params name).toList = value := by
  intro name value hvalue
  unfold valueOf at hvalue
  split at hvalue
  · rename_i text hget
    obtain rfl := Except.ok.inj hvalue
    obtain ⟨slot, -, hslot⟩ := mem_of_mapM_ok h (Dict.mem_of_get hget)
    obtain ⟨found, hfound, hslot⟩ := bind_ok hslot
    obtain ⟨rfl, rfl⟩ := Prod.mk.inj (Except.ok.inj hslot)
    rw [paramText, ← slotValue_text hfound]
  · cases hvalue

end SlotAux

open SlotAux

/-- A rendered command of a registered template, with the parameters that a person confirmed, keeps what is promised of it exactly when no number among its values is
negative. -/
theorem slots_stay_slots (registry registry' : Registry) (files : TemplateFiles) (values command : Doc) (cleaned : Confirmed) (call : RenderedCall) (agent : Int)
    (hregistry : Registered registry) (hconfirmed : parameters registry' values = .ok cleaned)
    (hresolve : resolve registry files cleaned command = .ok (call, agent)) :
    ∃ fields params template text, command = .obj fields ∧ Doc.field "params" fields = .obj params ∧ Dict.get call.templateId registry = some template ∧
      load files template = .ok (text, call.templateHash) ∧
      (Rendered template text params cleaned call ↔ ∀ slot ∈ template.slots, ∀ n, Doc.field slot.1 params = .num n → 0 ≤ n) := by
  unfold resolve at hresolve
  split at hresolve
  · rename_i fields
    obtain ⟨_, _, hresolve⟩ := bind_ok hresolve
    obtain ⟨_, _, hresolve⟩ := bind_ok hresolve
    obtain ⟨⟨commandId, templateId, params⟩, hfields, hresolve⟩ := bind_ok hresolve
    obtain ⟨_, _, hresolve⟩ := bind_ok hresolve
    obtain ⟨template, htemplate, hresolve⟩ := bind_ok hresolve
    obtain ⟨⟨text, current⟩, hload, hresolve⟩ := bind_ok hresolve
    obtain ⟨_, _, hresolve⟩ := bind_ok hresolve
    obtain ⟨_, _, hresolve⟩ := bind_ok hresolve
    obtain ⟨_, _, hresolve⟩ := bind_ok hresolve
    obtain ⟨found, hfound, hresolve⟩ := bind_ok hresolve
    obtain ⟨rendered, hrendered, hresolve⟩ := bind_ok hresolve
    obtain ⟨_, hlength, hresolve⟩ := bind_ok hresolve
    obtain ⟨rfl, rfl⟩ := Prod.mk.inj (Except.ok.inj hresolve)
    have hget : Dict.get templateId registry = some template := by
      unfold registered at htemplate
      split at htemplate
      · rename_i found hget
        rw [hget, Except.ok.inj htemplate]
      · cases htemplate
    have hparams : Doc.field "params" fields = .obj params := by
      unfold commandFields at hfields
      split at hfields
      · rename_i hparams
        split at hfields
        · cases hfields
          exact hparams
        · cases hfields
      · cases hfields
    have hload : load files template = .ok (text, current) := by
      cases hl : load files template with
      | ok pair =>
        rw [hl] at hload
        exact congrArg Except.ok (Except.ok.inj hload)
      | error e =>
        rw [hl] at hload
        cases hload
    obtain ⟨hclean, htimeout⟩ := registered_clean hregistry hget
    have hlimit := confirmed_timeout hconfirmed
    have hcommand := Substitution.substitute_ok hrendered (values_written hfound)
    have hvalue : ∀ slot ∈ template.slots, slotValue slot.2 (Doc.field slot.1 params) = .ok (paramText params slot.1) := by
      intro slot hslot
      obtain ⟨pair, -, hpair⟩ := mapM_ok_of_mem hfound hslot
      obtain ⟨value, hvalue, -⟩ := bind_ok hpair
      rw [hvalue, slotValue_text hvalue]
      rfl
    refine ⟨fields, params, template, text, rfl, hparams, hget, hload, ?_⟩
    constructor
    · intro h slot hslot
      exact (value_safe (hclean slot hslot) (hvalue slot hslot)).2.2.1 (h.begins slot hslot)
    · intro h
      exact {
        written := (Substitution.fill_pieces slotAt_recognizes le_rfl).symm
        all := fun before a after hpieces => Substitution.find_of_kept slotAt_recognizes le_rfl hpieces
        command := by rw [String.toList_ofList, hcommand]
        allowed := fun slot hslot => (value_safe (hclean slot hslot) (hvalue slot hslot)).1
        begins := fun slot hslot => (value_safe (hclean slot hslot) (hvalue slot hslot)).2.2.2 (h slot hslot)
        token := fun slot hslot => (value_safe (hclean slot hslot) (hvalue slot hslot)).2.1
        length := by
          rw [String.length_ofList]
          exact of_decide_eq_true (of_require hlength)
        timeout := by
          dsimp only
          omega }
  · cases hresolve

namespace SlotAux

/-- Any file and any hash. -/
def files : TemplateFiles := ⟨fun _ => none, fun _ => none, fun _ => "", fun _ _ _ _ => String.ofList (List.replicate 64 'a')⟩

def modules : Modules := ⟨fun _ => true, fun _ _ => true, fun _ => true⟩

/-- `mode /delay {seconds}`, with a delay from -10 to 10. -/
def registration : RegisterCall :=
  ⟨some "communicator", "communicator", "communicator.delay", "cmd", some (.str "mode /delay \x7bseconds\x7d"), none,
    .obj [("seconds", .obj [("type", .str "int"), ("min", .num (-10)), ("max", .num 10)])], .num 30, rightSend⟩

def delayTemplate : CommandTemplate :=
  ⟨"communicator.delay", "communicator", rightSend, "cmd", [("seconds", .int (-10) 10)], 30, some "mode /delay \x7bseconds\x7d", none,
    String.ofList (List.replicate 64 'a')⟩

/-- What a person confirmed. -/
def confirmation : Doc :=
  .obj [("allowed_templates", .arr [.str "communicator.delay"]),
    ("template_hashes", .obj [("communicator.delay", .str (String.ofList (List.replicate 64 'a')))]), ("rights", .arr [.str rightSend]), ("max_timeout", .num 20)]

def confirmed : Confirmed :=
  ⟨["communicator.delay"], [("communicator.delay", String.ofList (List.replicate 64 'a'))], 20, [rightSend]⟩

def delayParams (seconds : Int) : List (String × Doc) := [("seconds", .num seconds)]

/-- A call for some seconds. -/
def delayCommand (seconds : Int) : Doc :=
  .obj [("agent_id", .num 1), ("command_id", .str "c1"), ("template_id", .str "communicator.delay"), ("params", .obj (delayParams seconds))]

def delayCall (command : String) : RenderedCall := ⟨"c1", "communicator.delay", String.ofList (List.replicate 64 'a'), "cmd", command, 20⟩

theorem delay_registered : Registered [("communicator.delay", delayTemplate)] := .register registration files modules .empty (by decide +kernel)

end SlotAux

theorem positive_delay_stays :
    ∃ fields params template text, delayCommand 5 = .obj fields ∧ Doc.field "params" fields = .obj params ∧
      Dict.get "communicator.delay" [("communicator.delay", delayTemplate)] = some template ∧ load files template = .ok (text, (delayCall "mode /delay 5").templateHash) ∧
      (Rendered template text params confirmed (delayCall "mode /delay 5") ↔ ∀ slot ∈ template.slots, ∀ n, Doc.field slot.1 params = .num n → 0 ≤ n) :=
  slots_stay_slots _ [("communicator.delay", delayTemplate)] files confirmation (delayCommand 5) confirmed (delayCall "mode /delay 5") 1 delay_registered
    (by decide +kernel) (by decide +kernel)

/-- The text of a negative number begins like a flag. -/
theorem negative_number_is_flag :
    ¬ ∀ (registry registry' : Registry) (files : TemplateFiles) (values command : Doc) (cleaned : Confirmed) (call : RenderedCall) (agent : Int),
      Registered registry → parameters registry' values = .ok cleaned → resolve registry files cleaned command = .ok (call, agent) →
      ∃ fields params template text, command = .obj fields ∧ Doc.field "params" fields = .obj params ∧ Dict.get call.templateId registry = some template ∧
        load files template = .ok (text, call.templateHash) ∧ Rendered template text params cleaned call := by
  intro hclaim
  obtain ⟨fields, params, template, text, hfields, hparams, htemplate, -, h⟩ :=
    hclaim [("communicator.delay", delayTemplate)] [("communicator.delay", delayTemplate)] files confirmation (delayCommand (-5)) confirmed (delayCall "mode /delay -5") 1
      delay_registered (by decide +kernel) (by decide +kernel)
  cases hfields
  obtain rfl : delayParams (-5) = params := Doc.obj.inj hparams
  obtain rfl : delayTemplate = template := Option.some.inj htemplate
  exact (h.begins ("seconds", .int (-10) 10) (by decide +kernel) '-' (by decide +kernel)).1 rfl

end SystemCommands

end TecTac
