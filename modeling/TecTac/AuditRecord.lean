import Mathlib
import TecTac.Lib.JsonSize
import TecTac.Lib.Raise
import TecTac.Lib.Text

/-!
# Audit rows

The writers of `audit.py` and the row they make. The module and the actor are those that Core resolved and accepted; `str` and `str.lower` of the language, and the id that Core
keeps for the request or mints, are parameters.
-/

namespace TecTac

namespace Audit

/-- `AuditContractError`. -/
inductive ContractError where
  | contract (reason : String)
  deriving DecidableEq

/-- How the language writes values. -/
structure Texts where
  str : JsonValue → String
  lower : String → String

/-! ## Actions -/

/-- `STANDARD_ACTIONS`. -/
def standardActions : List String :=
  ["add", "modify", "delete", "run", "approve", "deny", "enable", "disable", "install", "uninstall", "view", "export", "import", "sync", "test", "acknowledge", "resolve",
    "console_change_requested"]

/-- `CORE_ONLY_FAILED_ACTION`. -/
def coreOnlyFailedAction : String := "custom:operation-failed"

def isLetter (c : Char) : Bool := decide ('a' ≤ c ∧ c ≤ 'z')

/-- A text of a first character and at most `more` letters, digits and marks. -/
def isSlug (first : Char → Bool) (more : Nat) : List Char → Bool
  | [] => false
  | c :: cs => first c && decide (cs.length ≤ more) && cs.all fun d => isLetter d || d.isDigit || d == '_' || d == '-'

/-- `_CUSTOM_ACTION_RE.fullmatch`. -/
def isCustomAction (action : String) : Bool :=
  "custom:".toList.isPrefixOf action.toList && isSlug (fun c => isLetter c || c.isDigit) 63 (action.toList.drop "custom:".toList.length)

/-- `_normalize_action`. -/
def normalizeAction (texts : Texts) (action : String) : Except ContractError String :=
  let action := texts.lower (stripText action)
  if action ∈ standardActions ∨ isCustomAction action = true then .ok action
  else .error (.contract "action must use the standard Tec-Tac audit vocabulary or controlled custom:<slug> fallback.")

/-- `_normalize_object_type`. -/
def normalizeObjectType (texts : Texts) (objectType : String) : Except ContractError String :=
  let objectType := texts.lower (stripText objectType)
  if isSlug isLetter 99 objectType.toList = true then .ok objectType
  else .error (.contract "object_type must be a lowercase slug up to 100 characters.")

/-- `_refuse_core_only_action`. -/
def refuseCoreOnlyAction (texts : Texts) (action : String) : Except ContractError Unit :=
  match normalizeAction texts action with
  | .error _ => .ok ()
  | .ok normalized => Raise.require (normalized != coreOnlyFailedAction) (.contract ("audit action " ++ coreOnlyFailedAction ++ " is written by Core only."))

/-! ## Sizes -/

/-- What is left of a value that is too large. -/
def tooLarge (originalBytes : Nat) : List (String × JsonValue) :=
  [("error", .str "value too large to store in audit log. Check documentation for configuring AUDIT_MAX_VALUE_BYTES"), ("original_bytes", .num originalBytes)]

/-- What the metadata may have, with room left for Core's own keys. -/
def budget (limit : Int) : Int := max 1024 (limit - 8192)

/-- `_safe_metadata`. -/
def safeMetadata (limit : Int) : JsonValue → Except ContractError (List (String × JsonValue))
  | .null => .ok []
  | .dict fields =>
    match JsonValue.bytes (.dict fields) with
    | none => .ok [("error", .str "could not process audit metadata")]
    | some n => if budget limit < n then .ok (tooLarge n) else .ok fields
  | _ => .error (.contract "metadata must be an object when provided.")

/-- A text of at most a hundred characters. -/
def shortText : Option JsonValue → Option String
  | some (.str s) => if s.length ≤ 100 then some s else none
  | _ => none

/-- A key that is carried over when it is there. -/
def carry (key : String) (value : Option JsonValue) (marker : List (String × JsonValue)) : List (String × JsonValue) :=
  match value with
  | some v => Dict.set key v marker
  | none => marker

def wholeNumber : Option JsonValue → Option JsonValue
  | some (.num n) => some (.num n)
  | _ => none

/-- What is carried over with `server_provenance`. -/
def keepServer (marker original : List (String × JsonValue)) : List (String × JsonValue) :=
  match shortText (Dict.get "server_provenance" original) with
  | none => marker
  | some server =>
    carry "tactical_status" (wholeNumber (Dict.get "tactical_status" original))
      (carry "operation" ((shortText (Dict.get "operation" original)).map .str) (Dict.set "server_provenance" (.str server) marker))

def isTrue : Option JsonValue → Option JsonValue
  | some (.bool true) => some (.bool true)
  | _ => none

/-- `_keep_browser_provenance`. -/
def keepBrowserProvenance (marker original : List (String × JsonValue)) : List (String × JsonValue) :=
  keepServer (carry "core_refusal" (isTrue (Dict.get "core_refusal" original))
    (carry "browser_provenance" ((shortText (Dict.get "browser_provenance" original)).map .str) marker)) original

/-- `_debug_info_bytes`. -/
def debugInfoBytes (fields : List (String × JsonValue)) : Nat := (JsonValue.bytes (.dict fields)).getD 0

/-- The size of a part with its key. -/
def partBytes (info : List (String × JsonValue)) (key : String) : Nat := debugInfoBytes [(key, (Dict.get key info).getD .null)]

/-- The fields of a value that is a dictionary. -/
def fieldsOf : Option JsonValue → List (String × JsonValue)
  | some (.dict fields) => fields
  | _ => []

/-- The marker that stands for a part. -/
def markerOf (info : List (String × JsonValue)) (key : String) : List (String × JsonValue) :=
  let marker := tooLarge (partBytes info key)
  if key = "operation_context" then keepBrowserProvenance marker (fieldsOf (Dict.get key info)) else marker

/-- Replace the parts one after the other, until the row fits. -/
def shrink (limit : Int) (info : List (String × JsonValue)) : List String → List (String × JsonValue) → List (String × JsonValue)
  | [], fitted => fitted
  | key :: rest, fitted =>
    let replaced := Dict.set key (.dict (markerOf info key)) fitted
    if (debugInfoBytes replaced : Int) ≤ limit then replaced else shrink limit info rest replaced

/-- `_fit_debug_info`. -/
def fitDebugInfo (limit : Int) (info : List (String × JsonValue)) : List (String × JsonValue) :=
  if (debugInfoBytes info : Int) ≤ limit then info
  else
    let present := ["metadata", "operation_context"].filter fun key => (Dict.get key info).isSome
    shrink limit info (present.insertionSort fun a b => partBytes info b ≤ partBytes info a) info

/-! ## Rows -/

/-- The actor as `_actor_provenance` accepted it. -/
inductive Actor where
  | background (kind identity moduleId : String) (service deviceId : Option String)
  | human (username : String) (authority viaModule : Option String)
  deriving DecidableEq

/-- A key of the actor, left out where it has no value. -/
def optionalKey (key : String) : Option String → List (String × JsonValue)
  | some value => [(key, .str value)]
  | none => []

/-- The actor keys of a row. -/
def Actor.info : Actor → List (String × JsonValue)
  | .background kind identity moduleId service deviceId =>
    [("actor_kind", JsonValue.str kind), ("actor_identity", .str identity), ("actor_module_id", .str moduleId)] ++ optionalKey "actor_service" service ++
      optionalKey "actor_device_id" deviceId
  | .human username authority viaModule =>
    [("actor_kind", JsonValue.str "human"), ("actor_identity", .str username)] ++ optionalKey "actor_authority" authority ++ optionalKey "actor_via_module_id" viaModule

/-- What is recorded, but for the operation context. -/
structure RowCall where
  moduleId : String
  moduleVersion : String
  actor : Actor
  action : String
  objectType : String
  objectId : Option String
  message : Option String
  before : JsonValue
  after : JsonValue
  metadata : JsonValue
  correlationId : JsonValue

/-- `_bounded_value`. -/
def boundedValue (limit : Int) (label : String) : JsonValue → Except ContractError JsonValue
  | .null => .ok .null
  | value =>
    match JsonValue.bytes value with
    | none => .error (.contract (label ++ " could not be serialized."))
    | some n => if limit < n then .error (.contract (label ++ " exceeds the audit size limit (" ++ toString limit ++ " bytes).")) else .ok value

/-- The first characters of a text. -/
def cut (count : Nat) (s : String) : String := String.ofList (s.toList.take count)

/-- `_correlation_id`, where `fresh` is the id of the request or a new one. -/
def correlationIdOf (texts : Texts) (fresh : String) (explicit : JsonValue) : String :=
  let value := stripText (if explicit.truthy then texts.str explicit else "")
  if value ≠ "" then cut 255 value else fresh

/-- The correlation id of a row: the explicit one, or that of the operation context. -/
def rowCorrelationId (texts : Texts) (fresh : String) (c : RowCall) (context : List (String × JsonValue)) : String :=
  correlationIdOf texts fresh (if c.correlationId.truthy then c.correlationId else (Dict.get "correlation_id" context).getD .null)

/-- The `debug_info` of a row before it is fitted. -/
def debugInfo (c : RowCall) (correlationId : String) (metadata context : List (String × JsonValue)) : List (String × JsonValue) :=
  [("source", JsonValue.str "tec-tac"), ("module_id", .str c.moduleId), ("module_version", .str c.moduleVersion)] ++ optionalKey "object_id" (c.objectId.map (cut 255)) ++
    [("correlation_id", JsonValue.str correlationId), ("metadata", .dict metadata), ("operation_context", .dict context)] ++ c.actor.info

/-- A row as it is stored. -/
structure StoredRow where
  action : String
  objectType : String
  before : JsonValue
  after : JsonValue
  message : Option String
  debugInfo : List (String × JsonValue)

/-- An operation context that is an object. -/
def contextFields : JsonValue → Except ContractError (List (String × JsonValue))
  | .null => .ok []
  | .dict fields => .ok fields
  | _ => .error (.contract "operation_context must be an object when provided.")

/-- The operation context after the first reduction, with Core's own keys. -/
def safeContext (limit : Int) (context : List (String × JsonValue)) : Except ContractError (List (String × JsonValue)) :=
  match JsonValue.bytes (.dict context) with
  | some n => if budget limit < n then .ok (keepBrowserProvenance (tooLarge n) context) else .ok context
  | none => .ok (keepBrowserProvenance [("error", .str "could not process audit metadata")] context)

/-- `_record_row`, up to the write. -/
def recordRow (limit : Int) (texts : Texts) (fresh : String) (context : JsonValue) (c : RowCall) : Except ContractError StoredRow := do
  let action ← normalizeAction texts c.action
  let objectType ← normalizeObjectType texts c.objectType
  Raise.require (c.message.all fun message => decide (message.utf8ByteSize ≤ 4096)) (.contract "message exceeds the audit size limit (4096 bytes).")
  let before ← boundedValue limit "before" c.before
  let after ← boundedValue limit "after" c.after
  let context ← contextFields context
  let kept ← safeContext limit context
  let correlationId := rowCorrelationId texts fresh c kept
  let metadata ← safeMetadata limit c.metadata
  return ⟨action, objectType, before, after, c.message, fitDebugInfo limit (debugInfo c correlationId metadata kept)⟩

/-! ## Writers -/

/-- `CORE_CONTEXT_KEYS`. -/
def coreContextKeys : List String := ["browser_provenance", "core_refusal", "server_provenance"]

/-- `BROWSER_PROVENANCE_MARKER`. -/
def browserProvenanceMarker : String := "module-declared-event"

/-- The sockets that Core relays. -/
inductive SocketKind where
  | agentTerminal | serverTerminal
  deriving DecidableEq

def SocketKind.text : SocketKind → String
  | .agentTerminal => "agent-terminal"
  | .serverTerminal => "server-terminal"

/-- Who writes a row: a caller of `record`, or one of Core's own writers. -/
inductive Writer where
  | record (context : JsonValue)
  | coreRefusal
  | browserDeclared
  | tacticalOperation (operation : String) (status : Option Int) (refusal : Bool)
  | tacticalWebsocket (kind : SocketKind) (refusal : Bool)
  | endpointTransport (refusal : Bool)

/-- The key of a refusal. -/
def refusalKey (refusal : Bool) : List (String × JsonValue) := if refusal then [("core_refusal", .bool true)] else []

/-- A status, which may be missing. -/
def statusValue : Option Int → JsonValue
  | some n => .num n
  | none => .null

/-- The keys that Core puts into the operation context. -/
def Writer.coreContext : Writer → List (String × JsonValue)
  | .record _ => []
  | .coreRefusal => [("browser_provenance", .str browserProvenanceMarker), ("core_refusal", .bool true)]
  | .browserDeclared => [("browser_provenance", .str browserProvenanceMarker)]
  | .tacticalOperation operation status refusal =>
    [("server_provenance", .str "tactical-operation"), ("operation", .str (cut 100 operation)), ("tactical_status", statusValue status)] ++ refusalKey refusal
  | .tacticalWebsocket kind refusal => [("server_provenance", .str "tactical-websocket"), ("websocket", .str kind.text)] ++ refusalKey refusal
  | .endpointTransport refusal => ("server_provenance", .str "endpoint-transport") :: refusalKey refusal

/-- The operation context of a writer. -/
def Writer.context : Writer → JsonValue
  | .record context => context
  | writer => .dict writer.coreContext

/-- The keys that a caller may not supply. -/
def refuseCoreKeys : JsonValue → Except ContractError Unit
  | .dict fields =>
    match coreContextKeys.find? fun key => (Dict.get key fields).isSome with
    | some key => .error (.contract ("operation_context." ++ key ++ " is Core-owned and may not be supplied."))
    | none => .ok ()
  | _ => .ok ()

/-- What a writer checks itself. -/
def Writer.check (texts : Texts) (action : String) : Writer → Except ContractError Unit
  | .record context => do
    refuseCoreKeys context
    refuseCoreOnlyAction texts action
  | .browserDeclared => refuseCoreOnlyAction texts action
  | _ => .ok ()

/-- A writer's row. -/
def Writer.write (limit : Int) (texts : Texts) (fresh : String) (writer : Writer) (c : RowCall) : Except ContractError StoredRow := do
  writer.check texts c.action
  recordRow limit texts fresh writer.context c

end Audit

end TecTac
