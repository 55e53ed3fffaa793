import TecTac.EventIntake

/-!
# The grammar of keys and payloads

What a publish stores of a key and a payload is what the grammar allows, and it stores all of that, as it was given. Two things are against it: a line feed behind a key, which the `$` of the
pattern lets through, and a low surrogate behind a high one in a text, which come back as one code point.
-/

namespace TecTac

namespace EventIntake

open JsonText

/-! ## The grammar -/

/-- 1 to 128 characters of letters, digits and `. _ : @ / -`. -/
def KeyOk (key : Text) : Prop := 1 ≤ key.length ∧ key.length ≤ keyMaxLength ∧ ∀ c ∈ key, keyPoint c = true

/-- What is published: `None`, as where no payload is given, is the empty object. -/
def Payload.given (payload : Payload) : Payload :=
  match payload.value with
  | .null => ⟨.dict [], true, rfl⟩
  | _ => payload

def IsObject : PyValue → Prop
  | .dict _ => True
  | _ => False

/-- A plain object, of what a document is made of, at most four levels deep and at most 2048 bytes long. -/
structure Payload.Ok (payload : Payload) : Prop where
  object : IsObject payload.value
  exact : payload.exact = true
  plain : Plain payload.value
  levels : payload.value.levels ≤ payloadMaxDepth
  bytes : utf8Length (write [] payload.value) ≤ payloadMaxBytes

/-- Nothing but the arguments stands in the way of a publish. -/
structure Gates.Open (gates : Gates) : Prop where
  registered : gates.registered = true
  enabled : gates.enabled = true
  caller : gates.caller = .ok
  recent : gates.recent = false
  allowed : gates.allowed = true
  backlogFull : gates.backlogFull = false
  storage : gates.storage = .created

/-- What the grammar promises of a key and a payload. -/
structure Grammar (key : PyValue) (payload : Payload) : Prop where
  /-- A row is stored only of a key and a payload of the grammar. -/
  only : ∀ gates row, (publish gates key payload).2 = some row → key = .str row.key ∧ KeyOk row.key ∧ payload.given.Ok
  /-- Each of them is accepted. -/
  every : ∀ text, key = .str text → KeyOk text → payload.given.Ok → ∀ gates, gates.Open → ∃ row, publish gates key payload = (.queued, some row)
  /-- The stored payload is the published one. -/
  kept : ∀ gates row, (publish gates key payload).2 = some row → row.payload = payload.given.value

/-- A key that the pattern takes, with a payload of the grammar, has no line feed at its end, and no surrogates pair in the texts of the payload. -/
def Unambiguous (key : PyValue) (payload : Payload) : Prop :=
  ∀ text, key = .str text → keyRe text = true → payload.given.Ok → text.getLast? ≠ some 10 ∧ Unpaired payload.given.value

namespace GrammarAux

/-! ## The key -/

theorem keyPoint_lineFeed : keyPoint 10 = false := by decide

/-- A key of the grammar is what the pattern takes, without the line feed that may follow. -/
theorem keyRe_iff (text : Text) : keyRe text = true ↔ KeyOk (if text.getLast? = some 10 then text.dropLast else text) := by
  simp only [keyRe, KeyOk, Bool.and_eq_true, decide_eq_true_eq, List.all_eq_true, and_assoc]

theorem not_lineFeed_of_keyOk {text : Text} (h : KeyOk text) : text.getLast? ≠ some 10 := fun hlast => by
  have := h.2.2 10 (List.mem_of_getLast? hlast)
  rw [keyPoint_lineFeed] at this
  cases this

theorem keyRe_of_keyOk {text : Text} (h : KeyOk text) : keyRe text = true := by
  rw [keyRe_iff, if_neg (not_lineFeed_of_keyOk h)]
  exact h

theorem keyOk_of_keyRe {text : Text} (h : keyRe text = true) (hlast : text.getLast? ≠ some 10) : KeyOk text := by
  rw [keyRe_iff, if_neg hlast] at h
  exact h

theorem cleanKey_eq_ok {key : PyValue} {text : Text} : cleanKey key = .ok text ↔ key = .str text ∧ keyRe text = true := by
  unfold cleanKey
  split
  · rename_i s
    by_cases h : keyRe s = true
    · rw [if_pos h]
      constructor
      · intro heq
        obtain rfl := Except.ok.inj heq
        exact ⟨rfl, h⟩
      · rintro ⟨heq, -⟩
        rw [PyValue.str.inj heq]
    · rw [if_neg h]
      constructor
      · intro heq
        cases heq
      · rintro ⟨heq, hre⟩
        exact absurd ((PyValue.str.inj heq).symm ▸ hre) h
  · rename_i hother
    constructor
    · intro heq
      cases heq
    · rintro ⟨rfl, -⟩
      exact absurd rfl (hother text)

/-! ## The payload -/

mutual

/-- The check that counts the depth is a check of the levels. -/
theorem jsonSafe_iff : ∀ (v : PyValue) {depth : Nat}, depth ≤ payloadMaxDepth → (jsonSafe v depth = true ↔ Plain v ∧ v.levels + depth ≤ payloadMaxDepth)
  | .null, _, h => iff_of_true rfl ⟨rfl, (Nat.zero_add _).symm ▸ h⟩
  | .bool _, _, h => iff_of_true rfl ⟨rfl, (Nat.zero_add _).symm ▸ h⟩
  | .str _, _, h => iff_of_true rfl ⟨rfl, (Nat.zero_add _).symm ▸ h⟩
  | .int _, _, h => iff_of_true rfl ⟨rfl, (Nat.zero_add _).symm ▸ h⟩
  | .float x, _, h => ⟨fun hx => ⟨hx, (Nat.zero_add _).symm ▸ h⟩, fun hx => hx.1⟩
  | .other, _, _ => iff_of_false nofun fun h => by cases h.1
  | .list xs, depth, h => by
    rw [jsonSafe, plain_list, PyValue.levels, Bool.and_eq_true, Bool.not_eq_true', decide_eq_false_iff_not]
    constructor
    · rintro ⟨hdepth, hitems⟩
      have := (itemsSafe_iff xs (by omega)).1 hitems
      exact ⟨this.1, by omega⟩
    · rintro ⟨hplain, hlevels⟩
      exact ⟨by omega, (itemsSafe_iff xs (by omega)).2 ⟨hplain, by omega⟩⟩
  | .dict fields, depth, h => by
    rw [jsonSafe, plain_dict, PyValue.levels, Bool.and_eq_true, Bool.not_eq_true', decide_eq_false_iff_not]
    constructor
    · rintro ⟨hdepth, hfields⟩
      have := (fieldsSafe_iff fields (by omega)).1 hfields
      exact ⟨this.1, by omega⟩
    · rintro ⟨hplain, hlevels⟩
      exact ⟨by omega, (fieldsSafe_iff fields (by omega)).2 ⟨hplain, by omega⟩⟩

theorem itemsSafe_iff : ∀ (xs : List PyValue) {depth : Nat}, depth ≤ payloadMaxDepth →
    (itemsSafe xs depth = true ↔ PyValue.allItems plainNode xs = true ∧ PyValue.levelsItems xs + depth ≤ payloadMaxDepth)
  | [], _, h => iff_of_true rfl ⟨rfl, (Nat.zero_add _).symm ▸ h⟩
  | v :: rest, depth, h => by
    have hv := jsonSafe_iff v h
    rw [Plain] at hv
    rw [itemsSafe, Bool.and_eq_true, hv, itemsSafe_iff rest h, PyValue.allItems, Bool.and_eq_true, PyValue.levelsItems]
    constructor
    · rintro ⟨⟨hp, hl⟩, hps, hls⟩
      exact ⟨⟨hp, hps⟩, by omega⟩
    · rintro ⟨⟨hp, hps⟩, hl⟩
      exact ⟨⟨hp, by omega⟩, hps, by omega⟩

theorem fieldsSafe_iff : ∀ (fields : List (Key × PyValue)) {depth : Nat}, depth ≤ payloadMaxDepth →
    (fieldsSafe fields depth = true ↔
      ((fields.all fun p => p.1.isText) = true ∧ PyValue.allFields plainNode fields = true) ∧ PyValue.levelsFields fields + depth ≤ payloadMaxDepth)
  | [], _, h => iff_of_true rfl ⟨⟨rfl, rfl⟩, (Nat.zero_add _).symm ▸ h⟩
  | (k, v) :: rest, depth, h => by
    have hv := jsonSafe_iff v h
    rw [Plain] at hv
    rw [fieldsSafe, Bool.and_eq_true, Bool.and_eq_true, hv, fieldsSafe_iff rest h, PyValue.allFields, Bool.and_eq_true, PyValue.levelsFields, List.all_cons, Bool.and_eq_true]
    constructor
    · rintro ⟨⟨hk, hp, hl⟩, ⟨hks, hps⟩, hls⟩
      exact ⟨⟨⟨hk, hks⟩, hp, hps⟩, by omega⟩
    · rintro ⟨⟨⟨hk, hks⟩, hp, hps⟩, hl⟩
      exact ⟨⟨hk, hp, by omega⟩, ⟨hks, hps⟩, by omega⟩

end

theorem length_le_utf8Length (text : List Char) : text.length ≤ utf8Length text := by
  induction text with
  | nil => exact Nat.le_refl 0
  | cons c text ih =>
    have := Char.utf8Size_pos c
    simp only [utf8Length, List.map_cons, List.sum_cons, List.length_cons] at ih ⊢
    omega

theorem length_writeInt (n : Int) : (Nat.toDigits 10 n.natAbs).length ≤ (writeInt n).length := by
  unfold writeInt
  split
  · exact Nat.le_succ _
  · exact Nat.le_refl _

mutual

/-- No number in a short text has too many digits. -/
theorem short_of_length : ∀ v : PyValue, (write [] v).length ≤ digitsLimit → v.all shortNode = true
  | .null, _ => rfl
  | .bool _, _ => rfl
  | .str _, _ => rfl
  | .int n, h => decide_eq_true (Nat.le_trans (length_writeInt n) h)
  | .float _, _ => rfl
  | .other, _ => rfl
  | .list xs, h => by
    rw [write, List.length_cons] at h
    exact Bool.and_eq_true_iff.2 ⟨rfl, short_of_lengthItems xs (by omega)⟩
  | .dict fields, h => by
    rw [write, List.length_cons] at h
    exact Bool.and_eq_true_iff.2 ⟨rfl, short_of_lengthFields fields (by omega)⟩

theorem short_of_lengthItems : ∀ xs : List PyValue, (writeItems [] xs).length ≤ digitsLimit → PyValue.allItems shortNode xs = true
  | [], _ => rfl
  | v :: rest, h => by
    rw [writeItems, List.length_append, List.length_append] at h
    exact Bool.and_eq_true_iff.2 ⟨short_of_length v (by omega), short_of_lengthItems rest (by omega)⟩

theorem short_of_lengthFields : ∀ fields : List (Key × PyValue), (writeFields [] fields).length ≤ digitsLimit → PyValue.allFields shortNode fields = true
  | [], _ => rfl
  | (k, v) :: rest, h => by
    simp only [writeFields, List.length_append, List.length_cons] at h
    exact Bool.and_eq_true_iff.2 ⟨short_of_length v (by omega), short_of_lengthFields rest (by omega)⟩

end

theorem short_of_bytes {v : PyValue} (h : utf8Length (write [] v) ≤ payloadMaxBytes) : v.all shortNode = true :=
  short_of_length v (Nat.le_trans (length_le_utf8Length _) (Nat.le_trans h (by decide)))

/-- A payload of the grammar is taken, as what reading gives back of it. -/
theorem cleanPayload_of_ok {payload : Payload} (h : payload.given.Ok) : cleanPayload payload = .payload (joined payload.given.value) := by
  obtain ⟨value, exact, distinct⟩ := payload
  cases value with
  | null => rfl
  | dict fields =>
    obtain ⟨-, hexact, hplain, hlevels, hbytes⟩ := h
    obtain rfl : exact = true := hexact
    have hplain : Plain (.dict fields) := hplain
    have hbytes : utf8Length (write [] (.dict fields)) ≤ payloadMaxBytes := hbytes
    have hsafe : jsonSafe (.dict fields) 0 = true := (jsonSafe_iff _ (by decide)).2 ⟨hplain, hlevels⟩
    have hshort : (PyValue.dict fields).all shortNode = true := short_of_bytes hbytes
    have hgap : ∀ c ∈ [' '], white c = true := fun c hc => List.mem_singleton.1 hc ▸ rfl
    have hread : read (write [' '] (.dict fields)) = some (joined (.dict fields)) := read_write hgap hplain
    have hdumps (gap : List Char) : dumps gap (.dict fields) = some (write gap (.dict fields)) := if_pos ⟨hplain, hshort⟩
    simp only [cleanPayload, hsafe, Bool.true_eq_false, if_false, hdumps, Option.bind_some, hread]
    rw [if_neg (Nat.not_lt.2 hbytes)]
    rfl
  | _ => exact absurd h.object id

theorem ok_of_cleanPayload {payload : Payload} {v : PyValue} (h : cleanPayload payload = .payload v) : payload.given.Ok := by
  obtain ⟨value, exact, distinct⟩ := payload
  cases value with
  | null =>
    have hlevels : (PyValue.dict []).levels ≤ payloadMaxDepth := by decide
    have hbytes : utf8Length (write [] (.dict [])) ≤ payloadMaxBytes := by decide
    exact ⟨trivial, rfl, rfl, hlevels, hbytes⟩
  | dict fields =>
    cases exact with
    | false => cases h
    | true =>
      simp only [cleanPayload] at h
      split at h
      · cases h
      · rename_i hsafe
        have hsafe := (jsonSafe_iff _ (by decide)).1 (Bool.of_not_eq_false hsafe)
        split at h
        · cases h
        · rename_i text htext
          split at h
          · cases h
          · rename_i hbytes
            unfold dumps at htext
            split at htext
            · obtain rfl := Option.some.inj htext
              exact ⟨trivial, rfl, hsafe.1, hsafe.2, Nat.not_lt.1 hbytes⟩
            · cases htext
  | _ => cases h

/-! ## The publish -/

/-- A row is stored of a key that the pattern takes and of a payload of the grammar, as reading gives it back. -/
theorem row_of_publish {gates : Gates} {key : PyValue} {payload : Payload} {row : Row} (h : (publish gates key payload).2 = some row) :
    key = .str row.key ∧ keyRe row.key = true ∧ payload.given.Ok ∧ row.payload = joined payload.given.value := by
  have hpersist {text : Text} {v : PyValue} (hrow : (persistSafely gates ⟨text, v⟩).2 = some row) : row = ⟨text, v⟩ := by
    unfold persistSafely at hrow
    split at hrow
    · exact (Option.some.inj hrow).symm
    · cases hrow
    · cases hrow
  have harguments : (publishArguments gates key payload).2 = some row := by
    unfold publish at h
    split at h
    · cases h
    split at h
    · cases h
    split at h
    · cases h
    · cases h
    · exact h
  unfold publishArguments at harguments
  split at harguments
  · cases harguments
  rename_i text hkey
  split at harguments
  · cases harguments
  · cases harguments
  rename_i v hpayload
  have hrow : row = ⟨text, v⟩ := by
    split at harguments
    · cases harguments
    split at harguments
    · cases harguments
    split at harguments
    · cases harguments
    split at harguments
    · exact hpersist harguments
    · exact hpersist harguments
  have hok := ok_of_cleanPayload hpayload
  rw [cleanPayload_of_ok hok] at hpayload
  obtain rfl := Cleaned.payload.inj hpayload
  rw [hrow]
  exact ⟨(cleanKey_eq_ok.1 hkey).1, (cleanKey_eq_ok.1 hkey).2, hok, rfl⟩

/-- Where nothing else stands in the way, a key that the pattern takes and a payload of the grammar are stored. -/
theorem publish_of_open {gates : Gates} (hopen : gates.Open) {text : Text} {payload : Payload} (hkey : keyRe text = true) (hok : payload.given.Ok) :
    publish gates (.str text) payload = (.queued, some ⟨text, joined payload.given.value⟩) := by
  have hpersist (row : Row) : persistSafely gates row = (.queued, some row) := by rw [persistSafely, hopen.storage]
  have harguments : publishArguments gates (.str text) payload = (.queued, some ⟨text, joined payload.given.value⟩) := by
    unfold publishArguments
    rw [cleanKey_eq_ok.2 ⟨rfl, hkey⟩, cleanPayload_of_ok hok]
    simp only [hopen.recent, hopen.allowed, hopen.backlogFull, hpersist, Bool.not_true, Bool.false_eq_true, if_false, ite_self]
  unfold publish
  rw [hopen.registered, hopen.enabled, hopen.caller]
  exact harguments

theorem open_gates : Gates.Open {} := ⟨rfl, rfl, rfl, rfl, rfl, rfl, rfl⟩

end GrammarAux

open GrammarAux

/-- So is the one code point that two surrogates stand for. -/
example : (publish {} (.str [97]) ⟨.dict [(.text [97], .str [0xD83D, 0xDE00])], true, rfl⟩).2 = some ⟨[97], .dict [(.text [97], .str [0x1F600])]⟩ := by
  rfl

end EventIntake

end TecTac
