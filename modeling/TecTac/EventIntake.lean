import TecTac.Publish
import TecTac.Lib.JsonText

/-!
# What the event intake takes

`clean_key`, `_json_safe` and `clean_payload` of `event_jobs_policy.py`, and what `_publish` of `event_jobs.py` stores of a key and a payload. Both arguments are values of any kind. What the
other checks of a publish answer, and what the storage does, is given.
-/

namespace TecTac

namespace EventIntake

open JsonText

/-- `KEY_MAX_LENGTH`. -/
def keyMaxLength : Nat := 128

/-- `PAYLOAD_MAX_BYTES`. -/
def payloadMaxBytes : Nat := 2048

/-- `PAYLOAD_MAX_DEPTH`. -/
def payloadMaxDepth : Nat := 4

/-- A payload as a caller gives it: its value, and whether a dictionary is of the plain class. -/
structure Payload where
  value : PyValue
  exact : Bool := true
  distinct : Distinct value

/-! ## The key -/

/-- A character of `KEY_RE`. -/
def keyPoint (c : CodePoint) : Bool :=
  decide (48 ≤ c.val ∧ c.val ≤ 57 ∨ 65 ≤ c.val ∧ c.val ≤ 90 ∨ 97 ≤ c.val ∧ c.val ≤ 122) || ['.', '_', ':', '@', '/', '-'].any fun d => d.toNat == c.val

/-- `KEY_RE.match`. The `$` also matches before a line feed at the end. -/
def keyRe (key : Text) : Bool :=
  let body := if key.getLast? = some 10 then key.dropLast else key
  decide (1 ≤ body.length ∧ body.length ≤ keyMaxLength) && body.all keyPoint

/-- `clean_key`. -/
def cleanKey : PyValue → Except String Text
  | .str key => if keyRe key then .ok key else .error "key must be 1 to 128 characters of letters, digits and . _ : @ / -."
  | _ => .error "key must be 1 to 128 characters of letters, digits and . _ : @ / -."

/-! ## The payload -/

mutual

/-- `_json_safe`. -/
def jsonSafe : PyValue → Nat → Bool
  | .null, _ => true
  | .bool _, _ => true
  | .str _, _ => true
  | .int _, _ => true
  | .float x, _ => x.isSome
  | .list xs, depth => !decide (payloadMaxDepth ≤ depth) && itemsSafe xs (depth + 1)
  | .dict fields, depth => !decide (payloadMaxDepth ≤ depth) && fieldsSafe fields (depth + 1)
  | .other, _ => false

def itemsSafe : List PyValue → Nat → Bool
  | [], _ => true
  | v :: rest, depth => jsonSafe v depth && itemsSafe rest depth

def fieldsSafe : List (Key × PyValue) → Nat → Bool
  | [], _ => true
  | (k, v) :: rest, depth => k.isText && jsonSafe v depth && fieldsSafe rest depth

end

/-- The digits that the language writes of a number, and no more. -/
def digitsLimit : Nat := 4300

def shortNode : PyValue → Bool
  | .int n => decide ((Nat.toDigits 10 n.natAbs).length ≤ digitsLimit)
  | _ => true

/-- `json.dumps`, with the gap after each separator. It raises on a value that no document is made of, and on a number with too many digits. -/
def dumps (gap : List Char) (v : PyValue) : Option (List Char) := if Plain v ∧ v.all shortNode = true then some (write gap v) else none

/-- `len(text.encode("utf-8"))`. -/
def utf8Length (text : List Char) : Nat := (text.map Char.utf8Size).sum

/-- What `clean_payload` comes to: the payload that is stored, an `EventJobPolicyError`, or another exception. -/
inductive Cleaned where
  | payload (v : PyValue)
  | refused (reason : String)
  | raised

/-- `clean_payload`. -/
def cleanPayload (payload : Payload) : Cleaned :=
  match payload.value, payload.exact with
  | .null, _ => .payload (.dict [])
  | .dict fields, true =>
    if jsonSafe (.dict fields) 0 = false then
      .refused "payload may hold only text, numbers, true, false, null, lists and objects, at most 4 levels deep."
    else
      match dumps [] (.dict fields) with
      | none => .refused "payload must be JSON."
      | some text =>
        if payloadMaxBytes < utf8Length text then .refused "payload is larger than 2048 bytes. Send ids, not text bodies."
        else
          match (dumps [' '] (.dict fields)).bind read with
          | some v => .payload v
          | none => .raised
  | _, _ => .refused "payload must be a JSON object (a plain dict)."

/-! ## The publish -/

/-- What the storage makes of a row, at once or once the transaction has committed. -/
inductive Stored where
  | created
  | duplicate
  | failed
  deriving DecidableEq

/-- What the other checks of a publish answer, and what the storage does. -/
structure Gates where
  registered : Bool := true
  enabled : Bool := true
  caller : CallerDecision := .ok
  /-- `_RECENT.seen`. -/
  recent : Bool := false
  /-- `_RATE.allow`. -/
  allowed : Bool := true
  backlogFull : Bool := false
  /-- `connection.in_atomic_block`. -/
  inBlock : Bool := false
  storage : Stored := .created

/-- What `_persist` writes of a publish. -/
structure Row where
  key : Text
  payload : PyValue

/-- `_persist_safely`. -/
def persistSafely (gates : Gates) (row : Row) : PublishResult × Option Row :=
  match gates.storage with
  | .created => (.queued, some row)
  | .duplicate => (.duplicate, none)
  | .failed => (.error "", none)

/-- `_publish`, from its checks of the arguments on. -/
def publishArguments (gates : Gates) (key : PyValue) (payload : Payload) : PublishResult × Option Row :=
  match cleanKey key with
  | .error reason => (.error reason, none)
  | .ok key =>
    match cleanPayload payload with
    | .refused reason => (.error reason, none)
    | .raised => (.error "unexpected failure", none)
    | .payload payload =>
      if gates.recent then (.duplicate, none)
      else if !gates.allowed then (.dropped "rate", none)
      else if gates.backlogFull then (.dropped "backlog", none)
      else if gates.inBlock then (.queued, (persistSafely gates ⟨key, payload⟩).2)
      else persistSafely gates ⟨key, payload⟩

/-- `_publish`: what it answers, and the row that it stores. -/
def publish (gates : Gates) (key : PyValue) (payload : Payload) : PublishResult × Option Row :=
  if !gates.registered then (.error "not a registered publisher", none)
  else if !gates.enabled then (.disabled, none)
  else
    match gates.caller with
    | .unverifiable => (.error "the caller could not be verified", none)
    | .foreign => (.error "the caller is not the module that owns this job", none)
    | .ok => publishArguments gates key payload

end EventIntake

end TecTac
