import Mathlib
import TecTac.SecretStore

/-!
# The secret store is a map

What an owner put last under a name and has not deleted is what the table holds, encrypted under the key of that time and bound to the owner and the name.
The invariant follows the calls through their transactions: a row that a call has locked is there until it ends, so a replace or a delete always finds it.
-/

namespace TecTac

namespace SecretStore

open Machine

/-! ## The map -/

/-- A value that was put, and the master key of that time. -/
structure Entry where
  given : Given
  key : Bytes

/-- What an owner put last under a name and has not deleted since. -/
def lookup (owner name : String) : List Change → Option Entry
  | [] => none
  | .put o n given key :: rest => if o = owner ∧ n = name then some ⟨given, key⟩ else lookup owner name rest
  | .delete o n :: rest => if o = owner ∧ n = name then none else lookup owner name rest

/-- The value of what was given. -/
def Given.value : Given → Option Value
  | .text s => some (.text s)
  | .bytes raw => some (.bytes raw)
  | .surrogates | .other => none

/-- What `get` gives back by the map: the value, with the key that it was put under. -/
def answer (key : Bytes) : Option Entry → Result
  | none => .nothing
  | some entry =>
    match entry.given.value with
    | some v => if entry.key = key then .value v else .refused secretUnreadable
    | none => .refused secretUnreadable

variable (crypto : Crypto) (collation : String → String → Bool)

/-- The call is a `put` or a `delete` that has begun. -/
def Stage.changing : Stage → Bool
  | .ready .. | .found .. | .counted .. | .removing .. | .removable .. => true
  | _ => false

/-- The results of a call that changed the map. -/
def Result.changed : Result → Bool
  | .created | .replaced | .deleted true => true
  | _ => false

/-- A step of a call answers by the map, and changes the map and the audit log together or not at all. -/
structure Refines (s : Store) (e : Event) (t : Store) : Prop where
  read : ∀ c noted owner name key, e = .advance c noted → s.calls c = .reading owner name key →
    t.calls c = .ended (answer key (lookup owner name s.history))
  asked : ∀ c noted owner name, e = .advance c noted → s.calls c = .asking owner name →
    t.calls c = .ended (.configured (lookup owner name s.history).isSome)
  listed : ∀ c noted owner, e = .advance c noted → s.calls c = .listing owner →
    ∃ names, t.calls c = .ended (.names names) ∧ names.Nodup ∧ ∀ name, name ∈ names ↔ (lookup owner name s.history).isSome
  begun : ∀ c owner name given nonce noted draft attempt, e = .put c owner name given nonce noted → s.calls c = .idle → t.calls c = .ready draft attempt →
    owner = some draft.owner ∧ name = some draft.name ∧ given = draft.given ∧ s.key = .ok draft.key ∧ t.rows = s.rows ∧ t.audit = s.audit
  stored : ∀ c draft attempt current result, s.calls c = .counted draft attempt current → t.calls c = .ended result → result.changed = true →
    t.history = .put draft.owner draft.name draft.given draft.key :: s.history ∧ ∃ row, t.audit = row :: s.audit
  removed : ∀ c owner name pk key result, s.calls c = .removable owner name pk key → t.calls c = .ended result → result.changed = true →
    t.history = .delete owner name :: s.history ∧ ∃ row, t.audit = row :: s.audit
  refused : ∀ c, (s.calls c).changing = true → (e = .fail c ∨ ∃ audited, e = .advance c audited) →
    (∀ result, t.calls c = .ended result → result.changed = false) → t.rows = s.rows ∧ t.history = s.history ∧ t.audit = s.audit
  still : t.history = s.history ∨ ∃ c result, (s.calls c).changing = true ∧ t.calls c = .ended result ∧ result.changed = true

/-- A row that is moved to another owner or another name gives no value, whatever the key. -/
def Bound (s : Store) : Prop :=
  ∀ row ∈ s.rows, ∀ key owner name, nameOk name = true → (owner, name) ≠ (row.owner, row.name) → Store.readRow crypto key owner name row = none

namespace SecretAux

variable {crypto}

/-! ## Encodings -/

theorem sized_ok {kind : UInt8} {raw plain : Bytes} (h : sized kind raw = .ok plain) : plain = kind :: raw ∧ raw ≠ [] := by
  unfold sized at h
  split at h
  · cases h
  · split at h
    · cases h
    · exact ⟨(Except.ok.inj h).symm, ‹_›⟩

/-- What was encoded is decoded to its value, with its kind. -/
theorem decodeValue_of_encodeValue {given : Given} {plain : Bytes} (h : encodeValue given = .ok plain) :
    decodeValue plain = given.value ∧ given.value.isSome ∧ 2 ≤ plain.length := by
  cases given with
  | text s =>
    obtain ⟨rfl, hne⟩ := sized_ok h
    refine ⟨by simp [decodeValue, Given.value], rfl, ?_⟩
    have := List.length_pos_iff.mpr hne
    simp only [List.length_cons]
    omega
  | bytes raw =>
    obtain ⟨rfl, hne⟩ := sized_ok h
    refine ⟨by simp [decodeValue, typeBytes, typeText, Given.value], rfl, ?_⟩
    have := List.length_pos_iff.mpr hne
    simp only [List.length_cons]
    omega
  | surrogates => cases h
  | other => cases h

theorem nameOk_char {name : String} (h : nameOk name = true) : ∀ c ∈ name.toList, isNameChar c = true := by
  unfold nameOk at h
  split at h
  · cases h
  · rename_i first rest heq
    simp only [Bool.and_eq_true, List.all_eq_true] at h
    rw [heq]
    intro c hc
    rcases List.mem_cons.mp hc with rfl | hc
    · simp [isNameChar, h.1.1]
    · exact h.2 c hc

theorem isNameChar_ascii {c : Char} (h : isNameChar c = true) : 0 < c.toNat ∧ c.toNat ≤ 127 := by
  have hval : c.toNat = c.val.toNat := rfl
  simp only [isNameChar, isNameStart, Bool.or_eq_true, beq_iff_eq] at h
  rcases h with (((hd | hl) | rfl) | rfl) | rfl
  · obtain ⟨hge, hle⟩ := Char.isDigit_iff_toNat.mp hd
    exact ⟨Nat.lt_of_lt_of_le (by decide) hge, Nat.le_trans hle (by decide)⟩
  · simp only [Char.isLower, Bool.and_eq_true, decide_eq_true_eq, ge_iff_le, UInt32.le_iff_toNat_le] at hl
    exact ⟨Nat.lt_of_lt_of_le (by decide) hl.1, Nat.le_trans hl.2 (by decide)⟩
  all_goals decide

/-- The encoding of the additional data is injective over owners and names. -/
theorem aad_inj {owner owner' name name' : String} (hname : nameOk name = true) (hname' : nameOk name' = true) (h : aad owner name = aad owner' name') :
    owner = owner' ∧ name = name' := by
  have hz := fun n (hn : nameOk n = true) => Bytes.zero_notMem_utf8 fun c hc => isNameChar_ascii (nameOk_char hn c hc)
  have htail : Bytes.utf8 owner ++ 0 :: Bytes.utf8 name = Bytes.utf8 owner' ++ 0 :: Bytes.utf8 name' := by simpa [aad] using h
  obtain ⟨ho, hn⟩ := Bytes.append_separator_inj htail (hz name hname) (hz name' hname')
  exact ⟨Bytes.utf8_injective ho, Bytes.utf8_injective hn⟩

/-- The bytes of a row are those of an entry. -/
def Sealed (crypto : Crypto) (row : Row) (entry : Entry) : Prop :=
  row.keyId = keyId crypto entry.key ∧
    ∃ plain nonce, encodeValue entry.given = .ok plain ∧ row.ciphertext = encrypt crypto entry.key row.owner row.name plain nonce

theorem decrypt_encrypt {key key' : Bytes} {owner name owner' name' : String} {plain : Bytes} {nonce : Nonce} (hlong : 2 ≤ plain.length)
    (hc : crypto.aesgcm.Ideal) :
    decrypt crypto key' owner' name' (encrypt crypto key owner name plain nonce) =
      crypto.aesgcm.decrypt key' nonce.1 (crypto.aesgcm.encrypt key nonce.1 plain (aad owner name)) (aad owner' name') := by
  have hsize := hc.long key nonce.1 plain (aad owner name)
  have hnonce := nonce.2
  unfold decrypt encrypt
  rw [if_neg (by simp only [List.length_append]; omega), List.take_left' hnonce, List.drop_left' hnonce]

/-- A row is read with the key it was written with, at its own place. -/
theorem readRow_of_sealed (hc : crypto.aesgcm.Ideal) {row : Row} {entry : Entry} (h : Sealed crypto row entry) :
    Store.readRow crypto entry.key row.owner row.name row = entry.given.value ∧ entry.given.value.isSome := by
  obtain ⟨hkey, plain, nonce, hplain, hblob⟩ := h
  obtain ⟨hvalue, hsome, hlong⟩ := decodeValue_of_encodeValue hplain
  refine ⟨?_, hsome⟩
  rw [Store.readRow, if_pos hkey, hblob, decrypt_encrypt hlong hc, hc.opens, Option.bind_some, hvalue]

theorem readRow_elsewhere (hc : crypto.aesgcm.Ideal) {row : Row} {entry : Entry} (h : Sealed crypto row entry) {key : Bytes} {owner name : String}
    (hne : key ≠ entry.key ∨ aad owner name ≠ aad row.owner row.name) : Store.readRow crypto key owner name row = none := by
  obtain ⟨-, plain, nonce, hplain, hblob⟩ := h
  obtain ⟨-, -, hlong⟩ := decodeValue_of_encodeValue hplain
  unfold Store.readRow
  split
  · rw [hblob, decrypt_encrypt hlong hc]
    cases hd : crypto.aesgcm.decrypt key nonce.1 (crypto.aesgcm.encrypt entry.key nonce.1 plain (aad row.owner row.name)) (aad owner name) with
    | none => rfl
    | some opened =>
      obtain ⟨hkey, haad⟩ := hc.only _ _ _ _ _ _ _ hd
      exact hne.elim (absurd hkey) (absurd haad)
  · rfl

/-! ## The calls and the rows -/

/-- The row that a call has locked, with its owner and name. -/
def Stage.claim : Stage → Option (Nat × String × String)
  | .found draft _ (some pk) | .counted draft _ (some pk) => some (pk, draft.owner, draft.name)
  | .removable owner name pk _ => some (pk, owner, name)
  | _ => none

def Stage.draft : Stage → Option Draft
  | .ready draft _ | .found draft _ _ | .counted draft _ _ => some draft
  | _ => none

/-- What a `put` has prepared. -/
def Prepared (crypto : Crypto) (draft : Draft) : Prop :=
  nameOk draft.name = true ∧ encodeValue draft.given = .ok draft.plain ∧
    ∃ nonce, draft.blob = encrypt crypto draft.key draft.owner draft.name draft.plain nonce

/-- The invariant. -/
structure Sound (crypto : Crypto) (s : Store) : Prop where
  unique : (s.rows.map fun row => (row.owner, row.name)).Nodup
  pks : (s.rows.map Row.pk).Nodup
  known : ∀ row ∈ s.rows, row.pk < s.nextPk
  names : ∀ row ∈ s.rows, nameOk row.name = true
  sealed : ∀ row ∈ s.rows, ∃ entry, lookup row.owner row.name s.history = some entry ∧ Sealed crypto row entry
  stored : ∀ owner name entry, lookup owner name s.history = some entry → ∃ row ∈ s.rows, row.owner = owner ∧ row.name = name
  drafts : ∀ c draft, Stage.draft (s.calls c) = some draft → Prepared crypto draft
  owned : ∀ c pk owner name, Stage.claim (s.calls c) = some (pk, owner, name) → (pk, c) ∈ s.locks ∧ ∃ row ∈ s.rows, row.pk = pk ∧ row.owner = owner ∧ row.name = name
  alone : ∀ pk c d, (pk, c) ∈ s.locks → (pk, d) ∈ s.locks → c = d

theorem sound_empty (key : Except String Bytes) : Sound crypto (Store.empty key) := by
  constructor <;> simp [Store.empty, lookup, Stage.draft, Stage.claim]

variable {s : Store}

theorem Sound.row_unique (h : Sound crypto s) {row row' : Row} (hrow : row ∈ s.rows) (hrow' : row' ∈ s.rows) (ho : row.owner = row'.owner)
    (hn : row.name = row'.name) : row = row' :=
  List.inj_on_of_nodup_map h.unique hrow hrow' (by rw [ho, hn])

theorem Sound.pk_unique (h : Sound crypto s) {row row' : Row} (hrow : row ∈ s.rows) (hrow' : row' ∈ s.rows) (hpk : row.pk = row'.pk) : row = row' :=
  List.inj_on_of_nodup_map h.pks hrow hrow' hpk

theorem find_some {owner name : String} {row : Row} (h : s.find owner name = some row) : row ∈ s.rows ∧ row.owner = owner ∧ row.name = name :=
  ⟨List.mem_of_find?_eq_some h, by simpa using List.find?_some h⟩

theorem find_none {owner name : String} (h : s.find owner name = none) : ∀ row ∈ s.rows, ¬ (row.owner = owner ∧ row.name = name) := by
  intro row hrow
  simpa using List.find?_eq_none.mp h row hrow

/-- A row is found exactly where the map has an entry. -/
theorem Sound.find_isSome (h : Sound crypto s) (owner name : String) : (s.find owner name).isSome = (lookup owner name s.history).isSome := by
  cases hfind : s.find owner name with
  | some row =>
    obtain ⟨hrow, rfl, rfl⟩ := find_some hfind
    obtain ⟨entry, hentry, -⟩ := h.sealed row hrow
    simp [hentry]
  | none =>
    cases hlook : lookup owner name s.history with
    | none => rfl
    | some entry =>
      obtain ⟨row, hrow, ho, hn⟩ := h.stored owner name entry hlook
      exact absurd ⟨ho, hn⟩ (find_none hfind row hrow)

/-! ## Steps that leave the table -/

/-- A call goes on with no more than it had; locks of calls that go away may go. -/
theorem Sound.move (h : Sound crypto s) {t : Store} {c : Nat} (hrows : t.rows = s.rows) (hpk : t.nextPk = s.nextPk) (hhistory : t.history = s.history)
    (hother : ∀ d, d ≠ c → t.calls d = s.calls d) (hlocks : ∀ lock, lock ∈ t.locks → lock ∈ s.locks) (hkept : ∀ pk d, d ≠ c → (pk, d) ∈ s.locks → (pk, d) ∈ t.locks)
    (hdraft : ∀ draft, Stage.draft (t.calls c) = some draft → Prepared crypto draft)
    (hclaim : ∀ pk owner name, Stage.claim (t.calls c) = some (pk, owner, name) → Stage.claim (s.calls c) = some (pk, owner, name) ∧ t.locks = s.locks) :
    Sound crypto t := by
  obtain ⟨unique, pks, known, names, sealed, stored, drafts, owned, alone⟩ := h
  constructor <;> try simp only [hrows, hpk, hhistory]
  all_goals grind -ring -linarith

/-- A call locks a row. -/
theorem Sound.lock (h : Sound crypto s) {c : Nat} {row : Row} {stage : Stage} (hrow : row ∈ s.rows) (hfree : s.locked row = false)
    (hdraft : ∀ draft, Stage.draft stage = some draft → Prepared crypto draft) (hclaim : Stage.claim stage = some (row.pk, row.owner, row.name)) :
    Sound crypto ({ s with locks := (row.pk, c) :: s.locks }.goTo c stage) := by
  have hfree : ∀ d, (row.pk, d) ∉ s.locks := by
    intro d hd
    have : s.locked row = true := List.any_eq_true.mpr ⟨(row.pk, d), hd, by simp⟩
    rw [hfree] at this
    cases this
  have hcalls : ∀ d, Function.update s.calls c stage d = if d = c then stage else s.calls d := fun d => Function.update_apply ..
  obtain ⟨unique, pks, known, names, sealed, stored, drafts, owned, alone⟩ := h
  constructor <;> try simp only [Store.goTo, hcalls]
  case drafts => grind -ring -linarith
  case owned =>
    intro d pk owner name hclaimed
    split at hclaimed
    · rename_i hdc
      rw [hclaim] at hclaimed
      cases hclaimed
      exact ⟨by simp [hdc], row, hrow, rfl, rfl, rfl⟩
    · obtain ⟨hmem, hthere⟩ := owned d pk owner name hclaimed
      exact ⟨List.mem_cons_of_mem _ hmem, hthere⟩
  case alone => grind -ring -linarith
  all_goals assumption

theorem Sound.goTo (h : Sound crypto s) {c : Nat} {stage : Stage} (hdraft : ∀ draft, Stage.draft stage = some draft → Prepared crypto draft)
    (hclaim : ∀ pk owner name, Stage.claim stage = some (pk, owner, name) → Stage.claim (s.calls c) = some (pk, owner, name)) :
    Sound crypto (s.goTo c stage) := by
  refine h.move (c := c) rfl rfl rfl (fun d hd => ?_) (fun _ => id) (fun _ _ _ => id) ?_ ?_
  · simp [Store.goTo, hd]
  · simpa [Store.goTo] using hdraft
  · intro pk owner name hclaimed
    exact ⟨hclaim pk owner name (by simpa [Store.goTo] using hclaimed), rfl⟩

/-- A call ends without a change. -/
theorem Sound.finish (h : Sound crypto s) (c : Nat) (result : Result) : Sound crypto (s.finish c result) := by
  refine h.move (c := c) rfl rfl rfl (fun d hd => ?_) (fun lock hlock => ?_) (fun pk d hd hlock => ?_) ?_ ?_
  · simp [Store.finish, Store.goTo, hd]
  · exact (List.mem_filter.mp hlock).1
  · exact List.mem_filter.mpr ⟨hlock, by simpa using hd⟩
  · simp [Store.finish, Store.goTo, Stage.draft]
  · simp [Store.finish, Store.goTo, Stage.claim]

theorem Sound.note (h : Sound crypto s) (noted : Bool) (row : AuditRow) : Sound crypto (s.note noted row) := by
  obtain ⟨unique, pks, known, names, sealed, stored, drafts, owned, alone⟩ := h
  unfold Store.note
  split <;> exact ⟨unique, pks, known, names, sealed, stored, drafts, owned, alone⟩

/-! ## The writes -/

theorem lookup_put (owner name o n : String) (given : Given) (key : Bytes) (history : List Change) :
    lookup owner name (.put o n given key :: history) = if o = owner ∧ n = name then some ⟨given, key⟩ else lookup owner name history := rfl

theorem lookup_delete (owner name o n : String) (history : List Change) :
    lookup owner name (.delete o n :: history) = if o = owner ∧ n = name then none else lookup owner name history := rfl

/-- A first write. -/
theorem Sound.create (h : Sound crypto s) {draft : Draft} (hdraft : Prepared crypto draft) (hnone : s.find draft.owner draft.name = none) (audit : List AuditRow) :
    Sound crypto { s with
      rows := ⟨s.nextPk, draft.owner, draft.name, draft.blob, keyId crypto draft.key⟩ :: s.rows
      nextPk := s.nextPk + 1
      audit := audit
      history := .put draft.owner draft.name draft.given draft.key :: s.history } := by
  have hfresh := find_none hnone
  obtain ⟨hname, hplain, nonce, hblob⟩ := hdraft
  obtain ⟨unique, pks, known, names, sealed, stored, drafts, owned, alone⟩ := h
  constructor <;> try simp only [lookup_put, List.mem_cons, List.map_cons, List.nodup_cons]
  case unique =>
    refine ⟨fun hmem => ?_, unique⟩
    obtain ⟨row, hrow, heq⟩ := List.mem_map.mp hmem
    exact hfresh row hrow (by simpa using heq)
  case pks =>
    refine ⟨fun hmem => ?_, pks⟩
    obtain ⟨row, hrow, heq⟩ := List.mem_map.mp hmem
    exact absurd (known row hrow) (by simp [heq])
  case sealed =>
    rintro row (rfl | hrow)
    · exact ⟨⟨draft.given, draft.key⟩, by simp, rfl, draft.plain, nonce, hplain, hblob⟩
    · obtain ⟨entry, hentry, hsealed⟩ := sealed row hrow
      exact ⟨entry, by rwa [if_neg fun heq => hfresh row hrow ⟨heq.1.symm, heq.2.symm⟩], hsealed⟩
  case stored =>
    intro owner name entry hlook
    split at hlook
    · rename_i hkey
      exact ⟨_, .inl rfl, hkey⟩
    · obtain ⟨row, hrow, hkey⟩ := stored owner name entry hlook
      exact ⟨row, .inr hrow, hkey⟩
  case owned =>
    intro c pk owner name hclaim
    obtain ⟨hlock, row, hrow, hkey⟩ := owned c pk owner name hclaim
    exact ⟨hlock, row, .inr hrow, hkey⟩
  all_goals grind -ring -linarith

/-- A replace, of the row that the call has locked. -/
theorem Sound.replace (h : Sound crypto s) {draft : Draft} {old : Row} (hdraft : Prepared crypto draft) (hold : old ∈ s.rows)
    (ho : old.owner = draft.owner) (hn : old.name = draft.name) (audit : List AuditRow) :
    Sound crypto { s with
      rows := s.rows.map fun row : Row => if row.pk = old.pk then { row with ciphertext := draft.blob, keyId := keyId crypto draft.key } else row
      audit := audit
      history := .put draft.owner draft.name draft.given draft.key :: s.history } := by
  obtain ⟨hname, hplain, nonce, hblob⟩ := hdraft
  have hself : ∀ row ∈ s.rows, row.pk = old.pk → row = old := fun row hrow => h.pk_unique hrow hold
  have hkey : ∀ row ∈ s.rows, draft.owner = row.owner ∧ draft.name = row.name → row = old := fun row hrow heq =>
    h.row_unique hrow hold (heq.1.symm.trans ho.symm) (heq.2.symm.trans hn.symm)
  obtain ⟨unique, pks, known, names, sealed, stored, drafts, owned, alone⟩ := h
  generalize hput : (fun row : Row => if row.pk = old.pk then { row with ciphertext := draft.blob, keyId := keyId crypto draft.key } else row) = put
  have hsame : ∀ row, (put row).pk = row.pk ∧ (put row).owner = row.owner ∧ (put row).name = row.name := by
    intro row
    rw [← hput]
    dsimp only
    split <;> simp
  constructor <;> try simp only [lookup_put, List.map_map, Function.comp_def, hsame, List.forall_mem_map]
  case sealed =>
    intro row hrow
    by_cases hrowold : row = old
    · subst hrowold
      refine ⟨⟨draft.given, draft.key⟩, by simp [ho, hn], ?_⟩
      rw [← hput]
      simp only [if_true]
      exact ⟨rfl, draft.plain, nonce, hplain, by simp [ho, hn, hblob]⟩
    · obtain ⟨entry, hentry, hsealed⟩ := sealed row hrow
      refine ⟨entry, by rwa [if_neg fun heq => hrowold (hkey row hrow heq)], ?_⟩
      rw [← hput]
      simpa only [if_neg fun heq => hrowold (hself row hrow heq)] using hsealed
  case stored =>
    intro owner name entry hlook
    have hrow : ∃ row ∈ s.rows, row.owner = owner ∧ row.name = name := by
      split at hlook
      · rename_i heq
        exact ⟨old, hold, ho.trans heq.1, hn.trans heq.2⟩
      · exact stored owner name entry hlook
    obtain ⟨row, hrow, hkeys⟩ := hrow
    exact ⟨put row, List.mem_map_of_mem hrow, by simpa [hsame] using hkeys⟩
  case owned =>
    intro c pk owner name hclaim
    obtain ⟨hlock, row, hrow, hkeys⟩ := owned c pk owner name hclaim
    exact ⟨hlock, put row, List.mem_map_of_mem hrow, by simpa [hsame] using hkeys⟩
  all_goals assumption

/-- A delete, of the row that the call has locked. -/
theorem Sound.delete (h : Sound crypto s) {c : Nat} {old : Row} (hold : old ∈ s.rows) (hlock : (old.pk, c) ∈ s.locks) (audit : List AuditRow) (result : Result) :
    Sound crypto ({ s with
      rows := s.rows.filter fun row => row.pk != old.pk
      audit := audit
      history := .delete old.owner old.name :: s.history }.finish c result) := by
  have hself : ∀ row ∈ s.rows, row.pk = old.pk → row = old := fun row hrow => h.pk_unique hrow hold
  have hkey : ∀ row ∈ s.rows, old.owner = row.owner ∧ old.name = row.name → row = old := fun row hrow heq => h.row_unique hrow hold heq.1.symm heq.2.symm
  obtain ⟨unique, pks, known, names, sealed, stored, drafts, owned, alone⟩ := h
  have hcalls : ∀ d, Function.update s.calls c (.ended result) d = if d = c then .ended result else s.calls d := fun d => Function.update_apply ..
  have hrows : ∀ row, row ∈ s.rows.filter (fun row => row.pk != old.pk) ↔ row ∈ s.rows ∧ row.pk ≠ old.pk := fun row => by simp
  constructor <;> try simp only [Store.finish, Store.goTo, lookup_delete, hcalls, hrows]
  case unique => exact unique.sublist (List.filter_sublist.map _)
  case pks => exact pks.sublist (List.filter_sublist.map _)
  case sealed =>
    rintro row ⟨hrow, hpk⟩
    obtain ⟨entry, hentry, hsealed⟩ := sealed row hrow
    exact ⟨entry, by rwa [if_neg fun heq => hpk (hkey row hrow heq ▸ rfl)], hsealed⟩
  case stored =>
    intro owner name entry hlook
    split at hlook
    · cases hlook
    · rename_i hne
      obtain ⟨row, hrow, ho, hn⟩ := stored owner name entry hlook
      refine ⟨row, ⟨hrow, fun hpk => hne ?_⟩, ho, hn⟩
      rw [← hself row hrow hpk]
      exact ⟨ho, hn⟩
  case owned =>
    intro d pk owner name hclaim
    split at hclaim
    · cases hclaim
    · rename_i hdc
      obtain ⟨hmem, row, hrow, hpk, hkeys⟩ := owned d pk owner name hclaim
      refine ⟨List.mem_filter.mpr ⟨hmem, by simpa using hdc⟩, row, ⟨hrow, fun heq => hdc ?_⟩, hpk, hkeys⟩
      -- another call has no lock on this row
      exact alone old.pk d c (by rwa [← heq, hpk]) hlock
  case alone =>
    intro pk d e hd he
    exact alone pk d e (List.mem_filter.mp hd).1 (List.mem_filter.mp he).1
  all_goals grind -ring -linarith [Stage.draft]

/-! ## Every step -/

theorem Sound.deny (h : Sound crypto s) (c : Nat) (operation : String) (name : Option String) (noted : Bool) : Sound crypto (s.deny c operation name noted) :=
  (h.note noted _).finish c _

theorem cleanName_ok {name : Option String} {clean : String} (h : cleanName name = .ok clean) : name = some clean ∧ nameOk clean = true := by
  cases name with
  | none => cases h
  | some name =>
    simp only [cleanName] at h
    split at h
    · obtain rfl := Except.ok.inj h
      exact ⟨rfl, ‹_›⟩
    · cases h

theorem Sound.put (h : Sound crypto s) (c : Nat) (owner name : Option String) (given : Given) (nonce : Nonce) (noted : Bool) :
    Sound crypto (s.put crypto c owner name given nonce noted) := by
  unfold Store.put
  split
  · exact h.deny ..
  · split
    · exact h.finish ..
    · exact h.finish ..
    · exact h.finish ..
    · rename_i hname hplain hkey
      refine h.goTo (fun draft hdraft => ?_) fun _ _ _ hclaim => by cases hclaim
      obtain rfl := Option.some.inj hdraft
      exact ⟨(cleanName_ok hname).2, hplain, nonce, rfl⟩

theorem Sound.lockRow (h : Sound crypto s) {c : Nat} {draft : Draft} {attempt : Nat} (hdraft : Prepared crypto draft) :
    Sound crypto (s.lockRow c draft attempt) := by
  have hprepared : ∀ current d, Stage.draft (.found draft attempt current) = some d → Prepared crypto d := by
    rintro current d hd
    obtain rfl := Option.some.inj hd
    exact hdraft
  unfold Store.lockRow
  split
  · exact h.goTo (hprepared none) fun _ _ _ hclaim => by cases hclaim
  · rename_i row hfind
    obtain ⟨hrow, ho, hn⟩ := find_some hfind
    split
    · exact h
    · rename_i hfree
      exact h.lock hrow (by simpa using hfree) (hprepared _) (by simp [Stage.claim, ho, hn])

theorem Sound.write (h : Sound crypto s) {c : Nat} {draft : Draft} {attempt : Nat} {current : Option Nat} (audited : Bool)
    (hcall : s.calls c = .counted draft attempt current) : Sound crypto (s.write crypto c audited draft attempt current) := by
  have hdraft := h.drafts c draft (by rw [hcall]; rfl)
  unfold Store.write
  split
  · split
    · exact h.finish ..
    · split
      · split
        · refine h.goTo (fun d hd => ?_) fun _ _ _ hclaim => by cases hclaim
          obtain rfl := Option.some.inj hd
          exact hdraft
        · exact h.finish ..
      · rename_i hnone
        exact (h.create hdraft (by simpa using hnone) _).finish ..
  · rename_i pk
    split
    · exact h.finish ..
    · obtain ⟨-, row, hrow, rfl, ho, hn⟩ := h.owned c pk draft.owner draft.name (by rw [hcall]; rfl)
      exact (h.replace hdraft hrow ho hn _).finish ..

theorem Sound.advance (h : Sound crypto s) (c : Nat) (audited : Bool) : Sound crypto (s.advance crypto collation c audited) := by
  unfold Store.advance
  split
  · rename_i draft attempt hcall
    exact h.lockRow (h.drafts c draft (by rw [hcall]; rfl))
  · rename_i draft attempt current hcall
    unfold Store.countNames
    split
    · exact h.finish ..
    · refine h.goTo (fun d hd => ?_) fun pk owner name hclaim => ?_
      · obtain rfl := Option.some.inj hd
        exact h.drafts c draft (by rw [hcall]; rfl)
      · rw [hcall]
        cases current <;> exact hclaim
  · exact h.write audited ‹_›
  · unfold Store.lockOld
    split
    · exact h.finish ..
    · rename_i row hfind
      obtain ⟨hrow, ho, hn⟩ := find_some hfind
      split
      · exact h
      · rename_i hfree
        exact h.lock hrow (by simpa using hfree) (fun _ hd => by cases hd) (by simp [Stage.claim, ho, hn])
  · rename_i owner name pk key hcall
    unfold Store.remove
    split
    · exact h.finish ..
    · obtain ⟨hlock, row, hrow, rfl, rfl, rfl⟩ := h.owned c pk owner name (by rw [hcall]; rfl)
      exact h.delete hrow hlock ..
  · unfold Store.read
    split
    · exact h.finish ..
    · split
      · exact h.finish ..
      · exact (h.note ..).finish ..
  · exact h.finish ..
  · exact h.finish ..
  all_goals exact h

/-- A call that only looks goes on to its query. -/
theorem Sound.goTo_plain (h : Sound crypto s) (c : Nat) {stage : Stage} (hdraft : Stage.draft stage = none) (hclaim : Stage.claim stage = none) :
    Sound crypto (s.goTo c stage) :=
  h.goTo (fun d hd => by rw [hdraft] at hd; cases hd) fun _ _ _ hc => by rw [hclaim] at hc; cases hc

theorem Sound.step (h : Sound crypto s) (e : Event) : Sound crypto (s.step crypto collation e) := by
  cases e with
  | swapKey key =>
    obtain ⟨unique, pks, known, names, sealed, stored, drafts, owned, alone⟩ := h
    exact ⟨unique, pks, known, names, sealed, stored, drafts, owned, alone⟩
  | put c owner name given nonce noted =>
    simp only [Store.step]
    split
    · exact h.put ..
    · exact h
  | get c owner name noted =>
    simp only [Store.step, Store.get]
    split
    · split
      · exact h.deny ..
      · split
        · exact h.finish ..
        · exact h.finish ..
        · exact h.goTo_plain c rfl rfl
    · exact h
  | delete c owner name noted =>
    simp only [Store.step, Store.delete]
    split
    · split
      · exact h.deny ..
      · split
        · exact h.finish ..
        · exact h.goTo_plain c rfl rfl
    · exact h
  | configured c owner name noted =>
    simp only [Store.step, Store.configured]
    split
    · split
      · exact h.deny ..
      · split
        · exact h.finish ..
        · exact h.goTo_plain c rfl rfl
    · exact h
  | listNames c owner noted =>
    simp only [Store.step, Store.listNames]
    split
    · split
      · exact h.deny ..
      · exact h.goTo_plain c rfl rfl
    · exact h
  | advance c audited => exact h.advance collation c audited
  | fail c =>
    simp only [Store.step]
    split
    · exact h
    · exact h
    · exact h.finish ..

/-! ## What a step answers and changes -/

section

variable (s)

@[simp] theorem calls_goTo (c : Nat) (stage : Stage) : (s.goTo c stage).calls c = stage := by simp [Store.goTo]

@[simp] theorem calls_finish (c : Nat) (result : Result) : (s.finish c result).calls c = .ended result := by simp [Store.finish]

theorem calls_goTo_of_ne {c d : Nat} (hne : d ≠ c) (stage : Stage) : (s.goTo c stage).calls d = s.calls d := by simp [Store.goTo, hne]

theorem calls_finish_of_ne {c d : Nat} (hne : d ≠ c) (result : Result) : (s.finish c result).calls d = s.calls d := by
  rw [Store.finish, calls_goTo_of_ne _ hne]

@[simp] theorem calls_note (noted : Bool) (row : AuditRow) : (s.note noted row).calls = s.calls := by
  unfold Store.note
  split <;> rfl

@[simp] theorem history_note (noted : Bool) (row : AuditRow) : (s.note noted row).history = s.history := by
  unfold Store.note
  split <;> rfl

/-- A query of a call moves this call only. -/
theorem calls_advance_of_ne {c d : Nat} (hne : d ≠ c) (audited : Bool) : (s.advance crypto collation c audited).calls d = s.calls d := by
  unfold Store.advance
  split
  · unfold Store.lockRow
    split
    · exact calls_goTo_of_ne s hne _
    · split
      · rfl
      · exact calls_goTo_of_ne _ hne _
  · unfold Store.countNames
    split
    · exact calls_finish_of_ne s hne _
    · exact calls_goTo_of_ne s hne _
  · unfold Store.write
    split
    · split
      · exact calls_finish_of_ne s hne _
      · split
        · split
          · exact calls_goTo_of_ne s hne _
          · exact calls_finish_of_ne s hne _
        · exact calls_finish_of_ne _ hne _
    · split <;> exact calls_finish_of_ne _ hne _
  · unfold Store.lockOld
    split
    · exact calls_finish_of_ne s hne _
    · split
      · rfl
      · exact calls_goTo_of_ne _ hne _
  · unfold Store.remove
    split <;> exact calls_finish_of_ne _ hne _
  · unfold Store.read
    split
    · exact calls_finish_of_ne s hne _
    · split
      · exact calls_finish_of_ne s hne _
      · rw [calls_finish_of_ne _ hne, calls_note]
  · exact calls_finish_of_ne s hne _
  · exact calls_finish_of_ne s hne _
  all_goals rfl

/-- Nothing was changed, and no other call moved. -/
def Moves (c : Nat) (s t : Store) : Prop := t.history = s.history ∧ ∀ d, d ≠ c → t.calls d = s.calls d

theorem moves_goTo (c : Nat) (stage : Stage) : Moves c s (s.goTo c stage) := ⟨rfl, fun _ hne => calls_goTo_of_ne s hne _⟩

theorem moves_finish (c : Nat) (result : Result) : Moves c s (s.finish c result) := ⟨rfl, fun _ hne => calls_finish_of_ne s hne _⟩

theorem moves_deny (c : Nat) (operation : String) (name : Option String) (noted : Bool) : Moves c s (s.deny c operation name noted) := by
  refine ⟨history_note .., fun d hne => ?_⟩
  simp only [Store.deny, calls_finish_of_ne _ hne, calls_note]

/-- A call that begins changes nothing and moves no other call. -/
theorem moves_begin (crypto : Crypto) (s : Store) (c : Nat) (owner name : Option String) (noted : Bool) :
    (∀ given nonce, Moves c s (s.put crypto c owner name given nonce noted)) ∧ Moves c s (s.get c owner name noted) ∧
      Moves c s (s.delete c owner name noted) ∧ Moves c s (s.configured c owner name noted) ∧ Moves c s (s.listNames c owner noted) := by
  cases owner with
  | none => exact ⟨fun _ _ => moves_deny .., moves_deny .., moves_deny .., moves_deny .., moves_deny ..⟩
  | some owner =>
    refine ⟨fun given nonce => ?_, ?_, ?_, ?_, moves_goTo ..⟩
    · simp only [Store.put]
      split
      · exact moves_finish ..
      · exact moves_finish ..
      · exact moves_finish ..
      · exact moves_goTo ..
    · simp only [Store.get]
      split
      · exact moves_finish ..
      · exact moves_finish ..
      · exact moves_goTo ..
    · simp only [Store.delete]
      split
      · exact moves_finish ..
      · exact moves_goTo ..
    · simp only [Store.configured]
      split
      · exact moves_finish ..
      · exact moves_goTo ..

/-- Only a query, or a failure, moves a call that has begun. -/
theorem begin_same {e : Event} (he : ∀ c audited, e ≠ .advance c audited) :
    (s.step crypto collation e).history = s.history ∧ ∀ c, (s.calls c).changing = true →
      (s.step crypto collation e).calls c = s.calls c ∨ e = .fail c := by
  have hidle : ∀ c t, s.calls c = .idle → Moves c s t → t.history = s.history ∧ ∀ d, (s.calls d).changing = true → t.calls d = s.calls d ∨ e = .fail d := by
    intro c t hcall hmoves
    refine ⟨hmoves.1, fun d hd => .inl (hmoves.2 d ?_)⟩
    rintro rfl
    simp [hcall, Stage.changing] at hd
  have hsame : s.history = s.history ∧ ∀ d, (s.calls d).changing = true → s.calls d = s.calls d ∨ e = .fail d := ⟨rfl, fun _ _ => .inl rfl⟩
  cases e with
  | swapKey key => exact ⟨rfl, fun _ _ => .inl rfl⟩
  | put c owner name given nonce noted =>
    simp only [Store.step]
    split
    · exact hidle c _ ‹_› ((moves_begin crypto s c owner name noted).1 given nonce)
    · exact hsame
  | get c owner name noted =>
    simp only [Store.step]
    split
    · exact hidle c _ ‹_› (moves_begin crypto s c owner name noted).2.1
    · exact hsame
  | delete c owner name noted =>
    simp only [Store.step]
    split
    · exact hidle c _ ‹_› (moves_begin crypto s c owner name noted).2.2.1
    · exact hsame
  | configured c owner name noted =>
    simp only [Store.step]
    split
    · exact hidle c _ ‹_› (moves_begin crypto s c owner name noted).2.2.2.1
    · exact hsame
  | listNames c owner noted =>
    simp only [Store.step]
    split
    · exact hidle c _ ‹_› (moves_begin crypto s c owner none noted).2.2.2.2
    · exact hsame
  | advance c audited => exact absurd rfl (he c audited)
  | fail c =>
    simp only [Store.step]
    split
    · exact hsame
    · exact hsame
    · refine ⟨rfl, fun d _ => ?_⟩
      by_cases hdc : d = c
      · exact .inr (by rw [hdc])
      · exact .inl (calls_finish_of_ne s hdc _)

end

/-- The change that a call makes with its next query. -/
def Stage.change : Stage → Option Change
  | .counted draft _ _ => some (.put draft.owner draft.name draft.given draft.key)
  | .removable owner name _ _ => some (.delete owner name)
  | _ => none

/-- A query made its change, with an audit row and a successful end; or it changed nothing, and its call goes on or ends without success. -/
def Outcome (c : Nat) (s t : Store) : Prop :=
  (∃ change result row, Stage.change (s.calls c) = some change ∧ t.calls c = .ended result ∧ result.changed = true ∧ t.history = change :: s.history ∧
    t.audit = row :: s.audit) ∨
  (t.rows = s.rows ∧ t.history = s.history ∧ t.audit = s.audit ∧ ∀ result, t.calls c = .ended result → result.changed = false)

theorem outcome_goTo {c : Nat} {stage : Stage} (hstage : ∀ result, stage ≠ .ended result) : Outcome c s (s.goTo c stage) :=
  .inr ⟨rfl, rfl, rfl, fun result hresult => absurd (by simpa using hresult) (hstage result)⟩

theorem outcome_finish {c : Nat} {result : Result} (hresult : result.changed = false) : Outcome c s (s.finish c result) := by
  refine .inr ⟨rfl, rfl, rfl, fun result' hended => ?_⟩
  rw [calls_finish, Stage.ended.injEq] at hended
  rw [← hended, hresult]

theorem outcome_advance {c : Nat} (audited : Bool) (hchanging : (s.calls c).changing = true) : Outcome c s (s.advance crypto collation c audited) := by
  have hsame : Outcome c s s := .inr ⟨rfl, rfl, rfl, fun result hended => by simp [hended, Stage.changing] at hchanging⟩
  unfold Store.advance
  split
  · unfold Store.lockRow
    split
    · exact outcome_goTo nofun
    · split
      · exact hsame
      · exact .inr ⟨rfl, rfl, rfl, fun result hended => by simp at hended⟩
  · unfold Store.countNames
    split
    · exact outcome_finish rfl
    · exact outcome_goTo nofun
  · rename_i draft attempt current hcall
    unfold Store.write
    split
    · split
      · exact outcome_finish rfl
      · split
        · split
          · exact outcome_goTo nofun
          · exact outcome_finish rfl
        · exact .inl ⟨_, .created, _, by rw [hcall]; rfl, calls_finish .., rfl, rfl, rfl⟩
    · split
      · exact outcome_finish rfl
      · exact .inl ⟨_, .replaced, _, by rw [hcall]; rfl, calls_finish .., rfl, rfl, rfl⟩
  · unfold Store.lockOld
    split
    · exact outcome_finish rfl
    · split
      · exact hsame
      · exact .inr ⟨rfl, rfl, rfl, fun result hended => by simp at hended⟩
  · rename_i owner name pk key hcall
    unfold Store.remove
    split
    · exact outcome_finish rfl
    · exact .inl ⟨_, .deleted true, _, by rw [hcall]; rfl, calls_finish .., rfl, rfl, rfl⟩
  all_goals
    rename_i hcall
    simp [hcall, Stage.changing] at hchanging

/-- A query of a call that only looks changes nothing. -/
theorem history_advance {c : Nat} (audited : Bool) (hchanging : (s.calls c).changing = false) :
    (s.advance crypto collation c audited).history = s.history := by
  unfold Store.advance
  split
  case h_6 =>
    unfold Store.read
    split
    · rfl
    · split
      · rfl
      · exact history_note ..
  case h_7 => rfl
  case h_8 => rfl
  case h_9 => rfl
  case h_10 => rfl
  all_goals
    rename_i hcall
    simp [hcall, Stage.changing] at hchanging

theorem outcome_fail {c : Nat} (hchanging : (s.calls c).changing = true) : Outcome c s (s.step crypto collation (.fail c)) := by
  simp only [Store.step]
  split
  · rename_i hcall
    simp [hcall, Stage.changing] at hchanging
  · rename_i hcall
    simp [hcall, Stage.changing] at hchanging
  · exact outcome_finish rfl

/-- A step moves a changing call by its own query or a failure, or leaves it where it is. -/
theorem outcome_step {c : Nat} (e : Event) (hchanging : (s.calls c).changing = true) :
    Outcome c s (s.step crypto collation e) ∨ (s.step crypto collation e).calls c = s.calls c := by
  by_cases he : ∀ d audited, e ≠ .advance d audited
  · rcases (begin_same collation s he).2 c hchanging with hsame | rfl
    · exact .inr hsame
    · exact .inl (outcome_fail collation hchanging)
  · push Not at he
    obtain ⟨d, audited, rfl⟩ := he
    by_cases hcd : c = d
    · subst hcd
      exact .inl (outcome_advance collation audited hchanging)
    · exact .inr (calls_advance_of_ne collation s hcd audited)

/-- The query of `get` answers by the map. -/
theorem read_answer (hc : crypto.aesgcm.Ideal) (h : Sound crypto s) {c : Nat} {noted : Bool} {owner name : String} {key : Bytes} :
    (s.read crypto c noted owner name key).calls c = .ended (answer key (lookup owner name s.history)) := by
  have hfound := h.find_isSome owner name
  unfold Store.read
  split
  · rename_i hfind
    rw [hfind] at hfound
    have hnone : lookup owner name s.history = none := by simpa using hfound.symm
    simp [hnone, answer]
  · rename_i row hfind
    obtain ⟨hrow, rfl, rfl⟩ := find_some hfind
    obtain ⟨entry, hentry, hsealed⟩ := h.sealed row hrow
    obtain ⟨hvalue, hsome⟩ := readRow_of_sealed hc hsealed
    obtain ⟨v, hv⟩ := Option.isSome_iff_exists.mp hsome
    rw [hentry]
    by_cases hkey : entry.key = key
    · subst hkey
      rw [hvalue, hv]
      simp [answer, hv]
    · rw [readRow_elsewhere hc hsealed (.inl fun heq => hkey heq.symm)]
      simp [answer, hv, hkey]

theorem list_names (h : Sound crypto s) (c : Nat) (owner : String) :
    ∃ names, (s.list collation c owner).calls c = .ended (.names names) ∧ names.Nodup ∧ ∀ name, name ∈ names ↔ (lookup owner name s.history).isSome := by
  refine ⟨_, calls_finish .., ?_, fun name => ?_⟩
  · rw [(List.mergeSort_perm _ _).nodup_iff]
    refine List.Nodup.map_on (fun row hrow row' hrow' hname => ?_) (h.unique.of_map.filter _)
    simp only [List.mem_filter, decide_eq_true_eq] at hrow hrow'
    exact h.row_unique hrow.1 hrow'.1 (hrow.2.trans hrow'.2.symm) hname
  · rw [(List.mergeSort_perm _ _).mem_iff, ← h.find_isSome owner name, Option.isSome_iff_exists]
    constructor
    · intro hmem
      obtain ⟨row, hrow, rfl⟩ := List.mem_map.mp hmem
      simp only [List.mem_filter, decide_eq_true_eq] at hrow
      obtain ⟨hrow, rfl⟩ := hrow
      by_contra hnone
      exact find_none (by simpa [← Option.isSome_iff_exists] using hnone) row hrow ⟨rfl, rfl⟩
    · rintro ⟨row, hfind⟩
      obtain ⟨hrow, rfl, rfl⟩ := find_some hfind
      exact List.mem_map_of_mem (List.mem_filter.mpr ⟨hrow, by simp⟩)

theorem refines_step (hc : crypto.aesgcm.Ideal) (h : Sound crypto s) (e : Event) : Refines s e (s.step crypto collation e) where
  read c noted owner name key he hcall := by
    subst he
    simp only [Store.step, Store.advance, hcall]
    exact read_answer hc h
  asked c noted owner name he hcall := by
    subst he
    simp only [Store.step, Store.advance, hcall, calls_finish, h.find_isSome]
  listed c noted owner he hcall := by
    subst he
    simp only [Store.step, Store.advance, hcall]
    exact list_names collation h c owner
  begun c owner name given nonce noted draft attempt he hcall hready := by
    subst he
    simp only [Store.step, hcall, Store.put] at hready
    split at hready
    · simp [Store.deny] at hready
    · split at hready
      · simp at hready
      · simp at hready
      · simp at hready
      · rename_i hname hplain hkey
        simp only [calls_goTo, Stage.ready.injEq] at hready
        obtain ⟨rfl, -⟩ := hready
        refine ⟨rfl, (cleanName_ok hname).1, rfl, hkey, ?_⟩
        simp only [Store.step, hcall, Store.put, hname, hplain, hkey]
        exact ⟨rfl, rfl⟩
  stored c draft attempt current result hcall hended hchanged := by
    rcases outcome_step collation e (show (s.calls c).changing = true by rw [hcall]; rfl) with hout | hsame
    · rcases hout with ⟨change, result', row, hchange, -, -, hhistory, haudit⟩ | ⟨-, -, -, hnot⟩
      · rw [hcall] at hchange
        obtain rfl := Option.some.inj hchange
        exact ⟨hhistory, row, haudit⟩
      · rw [hnot result hended] at hchanged
        cases hchanged
    · rw [hsame, hcall] at hended
      cases hended
  removed c owner name pk key result hcall hended hchanged := by
    rcases outcome_step collation e (show (s.calls c).changing = true by rw [hcall]; rfl) with hout | hsame
    · rcases hout with ⟨change, result', row, hchange, -, -, hhistory, haudit⟩ | ⟨-, -, -, hnot⟩
      · rw [hcall] at hchange
        obtain rfl := Option.some.inj hchange
        exact ⟨hhistory, row, haudit⟩
      · rw [hnot result hended] at hchanged
        cases hchanged
    · rw [hsame, hcall] at hended
      cases hended
  refused c hchanging he hnot := by
    have hout : Outcome c s (s.step crypto collation e) := by
      rcases he with rfl | ⟨audited, rfl⟩
      · exact outcome_fail collation hchanging
      · exact outcome_advance collation audited hchanging
    rcases hout with ⟨change, result, row, -, hended, hchanged, -, -⟩ | ⟨hrows, hhistory, haudit, -⟩
    · rw [hnot result hended] at hchanged
      cases hchanged
    · exact ⟨hrows, hhistory, haudit⟩
  still := by
    by_cases he : ∀ d audited, e ≠ .advance d audited
    · exact .inl (begin_same collation s he).1
    · push Not at he
      obtain ⟨c, audited, rfl⟩ := he
      by_cases hchanging : (s.calls c).changing = true
      · rcases outcome_advance collation audited hchanging with ⟨change, result, row, -, hended, hchanged, -⟩ | ⟨-, hhistory, -⟩
        · exact .inr ⟨c, result, hchanging, hended, hchanged⟩
        · exact .inl hhistory
      · exact .inl (history_advance collation audited (by simpa using hchanging))

theorem Sound.bound (hc : crypto.aesgcm.Ideal) (h : Sound crypto s) : Bound crypto s := by
  intro row hrow key owner name hname hne
  obtain ⟨entry, -, hsealed⟩ := h.sealed row hrow
  refine readRow_elsewhere hc hsealed (.inr fun heq => hne ?_)
  obtain ⟨ho, hn⟩ := aad_inj hname (h.names row hrow) heq
  rw [ho, hn]

end SecretAux

open SecretAux

namespace SecretAux

/-- A cipher that opens only what it made, and one digest. -/
def openCrypto : Crypto := ⟨.boxed, fun _ => "0123456789abcdef"⟩

def zeroNonce : Nonce := ⟨List.replicate 12 0, rfl⟩

/-- Two modules put a value under one name, and each of them reads its own. -/
def twoOwners : List Event :=
  [.put 0 (some "waf") (some "token") (.text "é") zeroNonce true, .put 1 (some "mail") (some "token") (.bytes [195, 169]) zeroNonce true,
    .advance 0 true, .advance 1 true, .advance 0 true, .advance 1 true, .advance 0 true, .advance 1 true,
    .get 2 (some "waf") (some "token") true, .advance 2 true, .get 3 (some "mail") (some "token") true, .advance 3 true]

def afterTwo : Store := twoOwners.foldl (Store.step openCrypto fun a b => a ≤ b) (.empty (.ok [1, 2, 3]))

end SecretAux

end SecretStore

end TecTac
