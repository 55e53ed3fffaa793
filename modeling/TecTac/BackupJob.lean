import TecTac.Lib.Document
import TecTac.Lib.Raise
import TecTac.Lib.Text

/-!
# The jobs of the backup helper

`load_job` of `server-backup-helper.py`: the file of a job, and the requests that are let through for each action. The name `request` is a local one of the function, and only some of
its branches bind it.
-/

namespace TecTac

namespace BackupJob

abbrev Fields := List (String × Doc)

/-- The members of `ALLOWED_ACTIONS`. -/
inductive Action where
  | createBackup
  | listBackups
  | restoreBackup
  | applyRetention
  | validateDestination
  | validateRestore
  | storeSecret
  | deleteSecret
  | listRegisteredDestinations
  | listRegisteredBackups
  | validateRegisteredRestore
  | restoreRegisteredBackup
  | getStatus
  deriving DecidableEq

def Action.text : Action → String
  | .createBackup => "create_backup"
  | .listBackups => "list_backups"
  | .restoreBackup => "restore_backup"
  | .applyRetention => "apply_retention"
  | .validateDestination => "validate_destination"
  | .validateRestore => "validate_restore"
  | .storeSecret => "store_secret"
  | .deleteSecret => "delete_secret"
  | .listRegisteredDestinations => "list_registered_destinations"
  | .listRegisteredBackups => "list_registered_backups"
  | .validateRegisteredRestore => "validate_registered_restore"
  | .restoreRegisteredBackup => "restore_registered_backup"
  | .getStatus => "get_status"

def allowedActions : List Action :=
  [.createBackup, .listBackups, .restoreBackup, .applyRetention, .validateDestination, .validateRestore, .storeSecret, .deleteSecret,
    .listRegisteredDestinations, .listRegisteredBackups, .validateRegisteredRestore, .restoreRegisteredBackup, .getStatus]

def Action.ofText (s : String) : Option Action := allowedActions.find? fun action => action.text == s

/-- How the function ends where it returns no job: with `SystemExit`, or with another exception. -/
inductive Failure where
  | exit (text : String)
  | typeError
  | unboundLocal
  /-- What `json.loads` raises for a document that is nested too deeply or has too long a number. -/
  | reader
  deriving DecidableEq

/-- What stands where the file of a job should be. A file that is refused is a link, no regular file, too large, or holds no JSON document. -/
inductive JobFile where
  | absent
  | refused (text : String)
  /-- A JSON document that `json.loads` does not read. -/
  | beyondReader
  | document (value : Doc)

/-- `_read_json_nofollow`, and the text for a file that is not there. -/
def readJob : JobFile → Except Failure Fields
  | .absent => .error (.exit "job not found")
  | .refused text => .error (.exit text)
  | .beyondReader => .error .reader
  | .document (.obj job) => .ok job
  | .document _ => .error (.exit "server-backup job is invalid")

def isHex (c : Char) : Bool := c.isDigit || (decide ('a' ≤ c) && decide (c ≤ 'f')) || (decide ('A' ≤ c) && decide (c ≤ 'F'))

/-- `JOB_RE.fullmatch`. -/
def isJobId (s : String) : Bool :=
  let groups := s.toList.splitOn '-'
  groups.map List.length == [8, 4, 4, 4, 12] && groups.all fun group => group.all isHex

/-- `SAFE_DEST_ID_RE.fullmatch`. -/
def isDestinationId (s : String) : Bool :=
  decide (1 ≤ s.length) && decide (s.length ≤ 128) && s.toList.all fun c => c.isAlphanum || c == '_' || c == '.' || c == '-'

/-! ## The shapes of a request -/

variable (repr : Doc → String)

/-- `set(request) == names`. -/
def keysAre (names : List String) (request : Fields) : Bool :=
  (request.all fun field => names.contains field.1) && names.all fun name => (Dict.get name request).isSome

def isDict (value : Doc) : Bool := value.pairs.isSome

def isText : Doc → Bool
  | .str _ => true
  | _ => false

/-- A list of texts. -/
def isTextList (value : Doc) : Bool := value.items.any fun items => items.all isText

/-- A dictionary of texts. -/
def isTextDict (value : Doc) : Bool := value.pairs.any fun fields => fields.all fun field => isText field.2

/-- Whether the mode of a restore is one of the three words; none of them has a letter that `str.lower` makes of anything but its capital. -/
def modeOk (request : Fields) : Bool := ["full", "tactical", "tec_tac"].contains (stripText (Doc.textField repr "restore_mode" request)).toLower

/-- A destination of a restore that is not registered may be left open. -/
def destinationOk (request : Fields) : Bool :=
  match Doc.field "destination" request with
  | .null => true
  | value => isDict value

def destinationIdOk (request : Fields) : Bool := isDestinationId (Doc.textField repr "destination_id" request)

/-! ## `load_job` -/

/-- The variables of the function: the job, and the local name `request` once a branch has bound it. -/
structure Frame where
  job : Fields
  request : Option Fields

/-- `job["request"]` of a job that passed the check of it. -/
def requestOf (job : Fields) : Fields := (Doc.field "request" job).pairs.getD []

/-- The value of the local name `request`. -/
def Frame.bound (f : Frame) : Except Failure Fields :=
  match f.request with
  | none => .error .unboundLocal
  | some request => .ok request

def checkDestination (f : Frame) : Except Failure Frame := do
  let request := requestOf f.job
  Raise.require (keysAre ["destination"] request && isDict (Doc.field "destination" request)) (.exit "invalid validate_destination request schema")
  return { f with request := some request }

def restoreKeys : List String := ["backup_ref", "destination", "restore_mode"]

/-- The request of a restore, with its overrides where it names none: the dictionary of the job is the same one. -/
def withOverrides (default : Doc) (job : Fields) : Fields :=
  if keysAre restoreKeys (requestOf job) then Dict.set "request" (.obj (Dict.set "overrides" default (requestOf job))) job else job

/-- The branches of `validate_restore` and `restore_backup`. -/
def checkRestore (name : String) (default : Doc) (overridesOk : Doc → Bool) (f : Frame) : Except Failure Frame := do
  let job := withOverrides default f.job
  let request := requestOf job
  Raise.require (keysAre (restoreKeys ++ ["overrides"]) request) (.exit ("invalid " ++ name ++ " request schema"))
  Raise.require (destinationOk request) (.exit ("invalid " ++ name ++ " destination schema"))
  Raise.require (modeOk repr request) (.exit ("invalid " ++ name ++ " mode"))
  Raise.require (overridesOk (Doc.field "overrides" request)) (.exit ("invalid " ++ name ++ " overrides schema"))
  return ⟨job, some request⟩

def checkValidateRestore : Frame → Except Failure Frame := checkRestore repr "validate_restore" (.arr []) isTextList

def checkRestoreBackup : Frame → Except Failure Frame := checkRestore repr "restore_backup" (.obj []) isTextDict

def checkGetStatus (f : Frame) : Except Failure Frame := do
  let request := requestOf f.job
  Raise.require (keysAre ["destinations"] request && (Doc.field "destinations" request).items.isSome) (.exit "invalid get_status request schema")
  Raise.require ((Doc.field "destinations" request).items.any fun items => items.all isDict) (.exit "invalid get_status destination schema")
  return { f with request := some request }

def checkListRegisteredDestinations (f : Frame) : Except Failure Frame := do
  let request ← f.bound
  Raise.require request.isEmpty (.exit "invalid list_registered_destinations request schema")
  return f

/-- A list of identifiers that is not empty. -/
def isIdList (value : Doc) : Bool :=
  value.items.any fun items => !items.isEmpty && items.all fun item =>
    match item with
    | .str s => isDestinationId s
    | _ => false

def checkListRegisteredBackups (f : Frame) : Except Failure Frame := do
  let request ← f.bound
  Raise.require (keysAre ["destination_ids"] request) (.exit "invalid list_registered_backups request schema")
  Raise.require (isIdList (Doc.field "destination_ids" request)) (.exit "invalid registered destination ids")
  return f

def registeredKeys : List String := ["backup_ref", "destination_id", "restore_mode", "overrides"]

/-- The branch of `validate_registered_restore` and `restore_registered_backup`. -/
def checkRegistered (action : Action) (overridesOk : Doc → Bool) (overridesText : String) (f : Frame) : Except Failure Frame := do
  let request ← f.bound
  Raise.require (keysAre registeredKeys request) (.exit ("invalid " ++ action.text ++ " request schema"))
  Raise.require (destinationIdOk repr request) (.exit "invalid registered restore destination id")
  Raise.require (modeOk repr request) (.exit "invalid registered restore mode")
  Raise.require (overridesOk (Doc.field "overrides" request)) (.exit overridesText)
  return f

def checkValidateRegistered : Frame → Except Failure Frame :=
  checkRegistered repr .validateRegisteredRestore isTextList "invalid registered restore validation overrides"

def checkRestoreRegistered : Frame → Except Failure Frame :=
  checkRegistered repr .restoreRegisteredBackup isTextDict "invalid registered restore overrides"

/-- `job.get("action")`, looked up in the set: a list and a dictionary have no hash. -/
def actionOf (job : Fields) : Except Failure Action :=
  match Doc.field "action" job with
  | .arr _ => .error .typeError
  | .obj _ => .error .typeError
  | .str s =>
    match Action.ofText s with
    | some action => .ok action
    | none => .error (.exit "invalid server-backup job")
  | _ => .error (.exit "invalid server-backup job")

/-- `load_job`. -/
def loadJob (jobId : String) (file : JobFile) : Except Failure Fields := do
  Raise.require (isJobId jobId) (.exit "invalid job id")
  let job ← readJob file
  Raise.require ((Doc.field "id" job).isText jobId) (.exit "invalid server-backup job")
  let action ← actionOf job
  Raise.require (isDict (Doc.field "request" job) && isDict (Doc.field "context" job)) (.exit "invalid server-backup job schema")
  let f : Frame := ⟨job, none⟩
  let f ← if action = .validateDestination then checkDestination f else pure f
  let f ← if action = .validateRestore then checkValidateRestore repr f else pure f
  let f ← if action = .restoreBackup then checkRestoreBackup repr f else pure f
  let f ← if action = .getStatus then checkGetStatus f else pure f
  let f ← if action = .listRegisteredDestinations then checkListRegisteredDestinations f else pure f
  let f ← if action = .listRegisteredBackups then checkListRegisteredBackups f else pure f
  let f ← if action = .validateRegisteredRestore then checkValidateRegistered repr f else pure f
  let f ← if action = .restoreRegisteredBackup then checkRestoreRegistered repr f else pure f
  return f.job

end BackupJob

end TecTac
