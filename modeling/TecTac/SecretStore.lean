import Mathlib
import TecTac.Lib.Cipher
import TecTac.Lib.Machine

/-!
# The secret store

The five public functions of `secret_store.py`, called by any modules at any time. A call is a few steps: the checks and the read of the master key, then
the queries. A row that `select_for_update` finds stays locked until its transaction ends; the writes of a transaction and its audit row become visible
together, at its end. The caller comes with the call (`none` is one that Core cannot verify), as do the random nonce, whether an audit row could be
written, and whether the limiter let a non-strict row through. The counters of reads are left out.
-/

namespace TecTac

namespace SecretStore

abbrev Bytes := List UInt8

def nonceBytes : Nat := 12
def maxValueBytes : Nat := 16 * 1024
def maxNamesPerOwner : Nat := 100

/-- A `SecretStoreError`. -/
structure Refusal where
  code : String
  message : String
  statusCode : Nat
  reason : Option String := none
  deriving DecidableEq

def invalidName : Refusal :=
  ⟨"invalid_name", "name must be 1 to 64 characters: a lower-case letter or digit, then lower-case letters, digits, '.', '_' or '-'.", 400, none⟩

def invalidValue (message : String) : Refusal := ⟨"invalid_value", message, 400, none⟩

def keyUnavailable (reason : String) : Refusal :=
  ⟨"master_key_unavailable", "The secret store cannot use its master key. An administrator must check the key file; see Troubleshooting.", 503, some reason⟩

def callerNotAllowed : Refusal :=
  ⟨"caller_not_allowed", "Only a signed, enabled module may use the secret store, and only for its own secrets.", 403, none⟩

def auditFailed : Refusal := ⟨"audit_failed", "The change was not made because it could not be audited.", 503, none⟩

def secretLimit : Refusal := ⟨"secret_limit", "A module may keep at most 100 secrets.", 400, none⟩

def secretConflict : Refusal := ⟨"secret_conflict", "Two writes of this secret collided. Try again; see Troubleshooting.", 409, none⟩

def secretUnreadable : Refusal :=
  ⟨"secret_unreadable", "This secret cannot be read with the current master key. Enter it again; see Troubleshooting.", 503, none⟩

/-! ## Names and values -/

def isNameStart (c : Char) : Bool := c.isDigit || c.isLower

def isNameChar (c : Char) : Bool := isNameStart c || c == '.' || c == '_' || c == '-'

/-- `NAME_PATTERN.fullmatch`. -/
def nameOk (name : String) : Bool :=
  match name.toList with
  | [] => false
  | first :: rest => isNameStart first && rest.length ≤ 63 && rest.all isNameChar

/-- `_clean_name`; `none` is a name that is no text. -/
def cleanName : Option String → Except Refusal String
  | some name => if nameOk name then .ok name else .error invalidName
  | none => .error invalidName

/-- What a module passes as a value: a text, a text with a lone surrogate, bytes, or anything else. -/
inductive Given where
  | text (s : String)
  | surrogates
  | bytes (raw : Bytes)
  | other

inductive Value where
  | text (s : String)
  | bytes (raw : Bytes)
  deriving DecidableEq

def typeText : UInt8 := 116
def typeBytes : UInt8 := 98

/-- The length checks of `_encode_value`. -/
def sized (kind : UInt8) (raw : Bytes) : Except Refusal Bytes :=
  if raw = [] then .error (invalidValue "value may not be empty.")
  else if maxValueBytes < raw.length then .error (invalidValue "value may not exceed 16 KiB.")
  else .ok (kind :: raw)

/-- `_encode_value`. -/
def encodeValue : Given → Except Refusal Bytes
  | .text s => sized typeText (Bytes.utf8 s)
  | .surrogates => .error (invalidValue "value must be valid text.")
  | .bytes raw => sized typeBytes raw
  | .other => .error (invalidValue "value must be text or bytes.")

/-- `_decode_value`; `none` is a `ValueError`. -/
def decodeValue : Bytes → Option Value
  | [] => none
  | kind :: raw =>
    if kind = typeText then (Bytes.decodeUtf8 raw).map .text
    else if kind = typeBytes then some (.bytes raw)
    else none

/-! ## Encryption -/

/-- What the `cryptography` package and `hashlib` give: AES-256-GCM, and the hex digest of SHA-256. -/
structure Crypto where
  aesgcm : Aead
  sha256 : Bytes → String

/-- `os.urandom(NONCE_BYTES)`. -/
abbrev Nonce := { nonce : Bytes // nonce.length = nonceBytes }

/-- `_key_id`. -/
def keyId (crypto : Crypto) (key : Bytes) : String :=
  "k1-" ++ String.ofList ((crypto.sha256 (Bytes.utf8 "tec-tac/core.secrets/key-id" ++ 0 :: key)).toList.take 12)

/-- `_aad`. -/
def aad (owner name : String) : Bytes := Bytes.utf8 "tec-tac/core.secrets/v1" ++ 0 :: (Bytes.utf8 owner ++ 0 :: Bytes.utf8 name)

/-- `_encrypt`. -/
def encrypt (crypto : Crypto) (key : Bytes) (owner name : String) (plain : Bytes) (nonce : Nonce) : Bytes :=
  nonce.1 ++ crypto.aesgcm.encrypt key nonce.1 plain (aad owner name)

/-- `_decrypt`. -/
def decrypt (crypto : Crypto) (key : Bytes) (owner name : String) (blob : Bytes) : Option Bytes :=
  if blob.length < nonceBytes + 16 + 1 then none else crypto.aesgcm.decrypt key (blob.take nonceBytes) (blob.drop nonceBytes) (aad owner name)

/-! ## The table and the calls -/

/-- A row of `core_secret`. -/
structure Row where
  pk : Nat
  owner : String
  name : String
  ciphertext : Bytes
  keyId : String
  deriving DecidableEq

/-- An audit row of the store. -/
inductive AuditRow where
  | add (owner name : String) (sizeBytes : Nat) (valueType keyId : String)
  | modify (owner name : String) (sizeBytes : Nat) (valueType keyId : String)
  | delete (owner name keyId : String)
  | deny (operation shown : String)
  | decryptFailed (owner name rowKeyId keyId : String)
  deriving DecidableEq

/-- What a `put` has prepared before its transaction. -/
structure Draft where
  owner : String
  name : String
  given : Given
  plain : Bytes
  key : Bytes
  blob : Bytes

/-- What a call gave back. -/
inductive Result where
  | created | replaced
  | value (v : Value)
  | nothing
  | deleted (removed : Bool)
  | configured (found : Bool)
  | names (names : List String)
  | refused (refusal : Refusal)
  | failed
  deriving DecidableEq

/-- Where a call stands: before its next query, or at its end. -/
inductive Stage where
  | idle
  | ready (draft : Draft) (attempt : Nat)
  | found (draft : Draft) (attempt : Nat) (current : Option Nat)
  | counted (draft : Draft) (attempt : Nat) (current : Option Nat)
  | removing (owner name : String)
  | removable (owner name : String) (pk : Nat) (keyId : String)
  | reading (owner name : String) (key : Bytes)
  | asking (owner name : String)
  | listing (owner : String)
  | ended (result : Result)

/-- A change of the table, as the owners see it. -/
inductive Change where
  | put (owner name : String) (given : Given) (key : Bytes)
  | delete (owner name : String)

/-- The master key as `_load_master_key` finds it, the table, the locks (of a row, by a call), the audit log, the calls. `history` has the changes that were
made, the newest first. -/
structure Store where
  key : Except String Bytes
  rows : List Row
  nextPk : Nat
  locks : List (Nat × Nat)
  audit : List AuditRow
  history : List Change
  calls : Nat → Stage

inductive Event where
  | swapKey (key : Except String Bytes)
  | put (c : Nat) (owner name : Option String) (given : Given) (nonce : Nonce) (noted : Bool)
  | get (c : Nat) (owner name : Option String) (noted : Bool)
  | delete (c : Nat) (owner name : Option String) (noted : Bool)
  | configured (c : Nat) (owner name : Option String) (noted : Bool)
  | listNames (c : Nat) (owner : Option String) (noted : Bool)
  | advance (c : Nat) (audited : Bool)
  | fail (c : Nat)

namespace Store

def empty (key : Except String Bytes) : Store := ⟨key, [], 0, [], [], [], fun _ => .idle⟩

def find (s : Store) (owner name : String) : Option Row := s.rows.find? fun row => row.owner = owner ∧ row.name = name

def goTo (s : Store) (c : Nat) (stage : Stage) : Store := { s with calls := Function.update s.calls c stage }

/-- The call ends, and its locks with it. -/
def finish (s : Store) (c : Nat) (result : Result) : Store := { s with locks := s.locks.filter fun lock => lock.2 != c }.goTo c (.ended result)

def note (s : Store) (noted : Bool) (row : AuditRow) : Store := if noted then { s with audit := row :: s.audit } else s

/-- `_deny`. -/
def deny (s : Store) (c : Nat) (operation : String) (name : Option String) (noted : Bool) : Store :=
  let shown := match name with
    | some name => if nameOk name then name else "(invalid)"
    | none => "(invalid)"
  (s.note noted (.deny operation shown)).finish c (.refused callerNotAllowed)

variable (crypto : Crypto)

/-- `put`, up to its transaction. -/
def put (s : Store) (c : Nat) (owner name : Option String) (given : Given) (nonce : Nonce) (noted : Bool) : Store :=
  match owner with
  | none => s.deny c "put" name noted
  | some owner =>
    match cleanName name, encodeValue given, s.key with
    | .error refusal, _, _ => s.finish c (.refused refusal)
    | .ok _, .error refusal, _ => s.finish c (.refused refusal)
    | .ok _, .ok _, .error reason => s.finish c (.refused (keyUnavailable reason))
    | .ok name, .ok plain, .ok key => s.goTo c (.ready ⟨owner, name, given, plain, key, encrypt crypto key owner name plain nonce⟩ 1)

/-- `get`, up to its query. -/
def get (s : Store) (c : Nat) (owner name : Option String) (noted : Bool) : Store :=
  match owner with
  | none => s.deny c "get" name noted
  | some owner =>
    match cleanName name, s.key with
    | .error refusal, _ => s.finish c (.refused refusal)
    | .ok _, .error reason => s.finish c (.refused (keyUnavailable reason))
    | .ok name, .ok key => s.goTo c (.reading owner name key)

/-- `delete`, up to its transaction. -/
def delete (s : Store) (c : Nat) (owner name : Option String) (noted : Bool) : Store :=
  match owner with
  | none => s.deny c "delete" name noted
  | some owner =>
    match cleanName name with
    | .error refusal => s.finish c (.refused refusal)
    | .ok name => s.goTo c (.removing owner name)

def configured (s : Store) (c : Nat) (owner name : Option String) (noted : Bool) : Store :=
  match owner with
  | none => s.deny c "configured" name noted
  | some owner =>
    match cleanName name with
    | .error refusal => s.finish c (.refused refusal)
    | .ok name => s.goTo c (.asking owner name)

def listNames (s : Store) (c : Nat) (owner : Option String) (noted : Bool) : Store :=
  match owner with
  | none => s.deny c "list_names" none noted
  | some owner => s.goTo c (.listing owner)

/-- The row that `select_for_update` waits for. -/
def locked (s : Store) (row : Row) : Bool := s.locks.any fun lock => lock.1 == row.pk

/-- `put`: `select_for_update`, which waits for a row that is locked. -/
def lockRow (s : Store) (c : Nat) (draft : Draft) (attempt : Nat) : Store :=
  match s.find draft.owner draft.name with
  | none => s.goTo c (.found draft attempt none)
  | some row =>
    if s.locked row then s else { s with locks := (row.pk, c) :: s.locks }.goTo c (.found draft attempt (some row.pk))

/-- `put`: the limit on names. -/
def countNames (s : Store) (c : Nat) (draft : Draft) (attempt : Nat) (current : Option Nat) : Store :=
  if current = none ∧ maxNamesPerOwner ≤ (s.rows.filter fun row => row.owner = draft.owner).length then s.finish c (.refused secretLimit)
  else s.goTo c (.counted draft attempt current)

def valueType (plain : Bytes) : String := if plain.head? = some typeText then "text" else "bytes"

/-- `put`: the audit row, the write, and the end of the transaction. -/
def write (s : Store) (c : Nat) (audited : Bool) (draft : Draft) (attempt : Nat) : Option Nat → Store
  | none =>
    if !audited then s.finish c (.refused auditFailed)
    else if (s.find draft.owner draft.name).isSome then
      -- the unique constraint: the transaction with its audit row is rolled back
      if attempt = 1 then s.goTo c (.ready draft 2) else s.finish c (.refused secretConflict)
    else
      { s with
        rows := ⟨s.nextPk, draft.owner, draft.name, draft.blob, keyId crypto draft.key⟩ :: s.rows
        nextPk := s.nextPk + 1
        audit := .add draft.owner draft.name (draft.plain.length - 1) (valueType draft.plain) (keyId crypto draft.key) :: s.audit
        history := .put draft.owner draft.name draft.given draft.key :: s.history }.finish c .created
  | some pk =>
    if !audited then s.finish c (.refused auditFailed)
    else
      { s with
        rows := s.rows.map fun row : Row => if row.pk = pk then { row with ciphertext := draft.blob, keyId := keyId crypto draft.key } else row
        audit := .modify draft.owner draft.name (draft.plain.length - 1) (valueType draft.plain) (keyId crypto draft.key) :: s.audit
        history := .put draft.owner draft.name draft.given draft.key :: s.history }.finish c .replaced

/-- `delete`: `select_for_update`. -/
def lockOld (s : Store) (c : Nat) (owner name : String) : Store :=
  match s.find owner name with
  | none => s.finish c (.deleted false)
  | some row =>
    if s.locked row then s else { s with locks := (row.pk, c) :: s.locks }.goTo c (.removable owner name row.pk row.keyId)

/-- `delete`: the audit row, the write, and the end of the transaction. -/
def remove (s : Store) (c : Nat) (audited : Bool) (owner name : String) (pk : Nat) (key : String) : Store :=
  if !audited then s.finish c (.refused auditFailed)
  else
    { s with
      rows := s.rows.filter fun row => row.pk != pk
      audit := .delete owner name (String.ofList (key.toList.take 32)) :: s.audit
      history := .delete owner name :: s.history }.finish c (.deleted true)

/-- `get`, after its query: the value, or that it cannot be read. -/
def readRow (key : Bytes) (owner name : String) (row : Row) : Option Value :=
  if row.keyId = keyId crypto key then (decrypt crypto key owner name row.ciphertext).bind decodeValue else none

/-- `get`: the query. -/
def read (s : Store) (c : Nat) (noted : Bool) (owner name : String) (key : Bytes) : Store :=
  match s.find owner name with
  | none => s.finish c .nothing
  | some row =>
    match readRow crypto key owner name row with
    | some v => s.finish c (.value v)
    | none =>
      (s.note noted (.decryptFailed owner name (String.ofList (row.keyId.toList.take 32)) (keyId crypto key))).finish c (.refused secretUnreadable)

/-- `list_names`: the query; the collation of the database orders the names. -/
def list (collation : String → String → Bool) (s : Store) (c : Nat) (owner : String) : Store :=
  s.finish c (.names (((s.rows.filter fun row => row.owner = owner).map Row.name).mergeSort collation))

/-- The next query of a call. -/
def advance (collation : String → String → Bool) (s : Store) (c : Nat) (audited : Bool) : Store :=
  match s.calls c with
  | .ready draft attempt => s.lockRow c draft attempt
  | .found draft attempt current => s.countNames c draft attempt current
  | .counted draft attempt current => s.write crypto c audited draft attempt current
  | .removing owner name => s.lockOld c owner name
  | .removable owner name pk key => s.remove c audited owner name pk key
  | .reading owner name key => s.read crypto c audited owner name key
  | .asking owner name => s.finish c (.configured (s.find owner name).isSome)
  | .listing owner => s.list collation c owner
  | .idle | .ended _ => s

/-- A call begins, takes a step, or fails for any other reason, which rolls its transaction back. -/
def step (collation : String → String → Bool) (s : Store) : Event → Store
  | .swapKey key => { s with key := key }
  | .put c owner name given nonce noted =>
    match s.calls c with
    | .idle => s.put crypto c owner name given nonce noted
    | _ => s
  | .get c owner name noted =>
    match s.calls c with
    | .idle => s.get c owner name noted
    | _ => s
  | .delete c owner name noted =>
    match s.calls c with
    | .idle => s.delete c owner name noted
    | _ => s
  | .configured c owner name noted =>
    match s.calls c with
    | .idle => s.configured c owner name noted
    | _ => s
  | .listNames c owner noted =>
    match s.calls c with
    | .idle => s.listNames c owner noted
    | _ => s
  | .advance c audited => s.advance crypto collation c audited
  | .fail c =>
    match s.calls c with
    | .idle | .ended _ => s
    | _ => s.finish c .failed

end Store

end SecretStore

end TecTac
