import TecTac.BackupDestination

/-!
# Validating a restore and starting it

`operation_validate_restore` and `operation_restore_backup` of `server-backup-helper.py`, the second up to its first destructive step. The two read the same recovery object, its
sidecar, its hash companion and the same target; a site says what they find.
-/

namespace TecTac

namespace Recovery

open Backup (Fields Machine)

/-! ## The report -/

inductive Status where
  | passed
  | warning
  | failed
  | notApplicable
  | notRun
  deriving DecidableEq

/-- The rank of a status in its section. -/
def Status.rank : Status → Nat
  | .failed => 5
  | .warning => 4
  | .passed => 3
  | .notRun => 2
  | .notApplicable => 1

structure Check where
  id : String
  status : Status
  detail : String
  overridden : Bool
  deriving DecidableEq

structure Section where
  status : Status
  checks : List Check
  deriving DecidableEq

inductive SectionName where
  | source
  | bundle
  | tactical
  | tecTac
  | target
  deriving DecidableEq

/-- A report, with the audit ids of the overrides that were accepted. -/
structure Report where
  sections : SectionName → Section
  artifactValid : Bool
  targetReady : Bool
  ok : Bool
  accepted : List (String × String)

/-- `_vr_new`. -/
def vrNew : Report := ⟨fun _ => ⟨.notRun, []⟩, false, false, false, []⟩

def newCheck (id : String) (status : Status) (detail : String) : Check := ⟨id, status, detail, false⟩

/-- `_vr_check` in its section. -/
def Section.add (s : Section) (check : Check) : Section := ⟨if s.status.rank < check.status.rank then check.status else s.status, s.checks ++ [check]⟩

def Report.setSection (r : Report) (name : SectionName) (s : Section) : Report := { r with sections := Function.update r.sections name s }

/-- `_vr_check`. -/
def vrCheck (r : Report) (name : SectionName) (id : String) (status : Status) (detail : String) : Report :=
  r.setSection name ((r.sections name).add (newCheck id status detail))

/-! ## What is found -/

inductive Mode where
  | full
  | tactical
  | tecTac
  deriving DecidableEq

def Mode.name : Mode → String
  | .full => "full"
  | .tactical => "tactical"
  | .tecTac => "tec_tac"

/-- `mode in {"full", "tactical"}`. -/
def Mode.withTactical : Mode → Bool
  | .tecTac => false
  | _ => true

/-- `mode in {"full", "tec_tac"}`. -/
def Mode.withTecTac : Mode → Bool
  | .tactical => false
  | _ => true

/-- The request that both operations get; a mode that is none of the three is refused when the job is loaded. -/
structure Request where
  backupRef : String
  destination : Option Doc
  modeText : String
  mode : Mode

/-- An accepted override as it is stored. -/
structure Record where
  backupRef : String
  modeText : String
  checkId : String
  fingerprint : String

/-- The server that is restored. The texts of `restore.sh` are missing where it is no UTF-8, its version where it has none. -/
structure Target where
  arch : String
  osId : String
  osVersion : String
  restoreVersion : Option String
  restoreText : Option String
  memKb : Nat
  /-- The free space of the staging folder and the two estimates of the snapshot. -/
  disk : Mode → Except String (Nat × Nat × Nat)
  missingTools : Mode → List String
  unresolvedHosts : List String
  user : Except String String
  tacticalRoot : String
  tacticalPresent : Bool
  /-- The security state can be captured, and the snapshot before the restore can be taken. -/
  captures : Bool
  snapshots : Mode → Bool

/-- Everything that the two operations read. -/
structure Site (Content : Type) where
  machine : Machine
  maxBytes : Nat
  size : Content → Nat
  sha256 : Content → String
  /-- `download_destination`: the object and the sidecar. -/
  download : Fields → String → Except String (Content × Option Doc)
  /-- `read_archive_hash_companion`. -/
  companion : Fields → String → Except String (Option String)
  /-- The members of a bundle by name, with what can be read of them. -/
  members : Content → Except String (List (String × Option Content))
  json : Content → Except String Doc
  parseChecksumFile : Content → Except String (List (String × String))
  inspectRecoverySignature : Content → Content → Content → Except String Unit
  validateTacticalNativeArchive : Content → Except String Unit
  validateTecTacComponent : Content → Fields → Except String Unit
  target : Target
  /-- Another backup or restore holds the lock. -/
  locked : Bool
  requestedBy : String
  records : String → Option Record
  overrideFingerprint : String → String → String → String → String
  newId : Nat → String
  newId_uuid : ∀ n, machine.isUuid (newId n) = true

variable {Content : Type} (s : Site Content)

/-- What is missing raises. -/
def orRaise {α : Type} (o : Option α) (e : String) : Except String α :=
  match o with
  | none => .error e
  | some a => .ok a

/-- A step that is made only on a condition. -/
def onlyIf (b : Bool) (x : Except String Unit) : Except String Unit := if b then x else .ok ()

/-! ## The recovery object -/

/-- A name of the form `<start><letters><end>`. -/
def hasShape (start finish : String) (name : String) : Bool :=
  start.toList.isPrefixOf name.toList && finish.toList.isSuffixOf name.toList && decide (start.length + finish.length < name.length) &&
    name.toList.all fun c => c.isAlphanum || c == '_' || c == '.' || c == '-'

def isLegacyArchive (name : String) : Bool := hasShape "rmm-backup-" ".tar" name

def isBundle (name : String) : Bool := hasShape "tec-tac-backup-" ".tgz" name

/-- `parse_backup_ref`. -/
def parseBackupRef (ref : String) : Except String (String × String) :=
  match ref.toList.splitOn ':' with
  | first :: second :: rest =>
    let destId := String.ofList second
    let name := String.ofList ([':'].intercalate rest)
    if first = "destination".toList ∧ rest ≠ [] ∧ Trust.isId destId = true ∧ (isBundle name || isLegacyArchive name) = true then .ok (destId, name) else .error "backup_ref is invalid"
  | _ => .error "backup_ref is invalid"

/-- The destination of a request; without one the backup is among the local ones. -/
def requestDestination (request : Request) (destId : String) : Except String Fields := do
  let localBackups : Option Doc := if ["local", "0", "native"].contains destId then
      some (.obj [("id", .str destId), ("type", .str "local"), ("name", .str "Tactical local backups"), ("path", .str "/rmmbackups")])
    else none
  let raw ← orRaise (request.destination.or localBackups) "destination configuration is required for this backup_ref"
  let destination ← Backup.validateDestination s.machine raw
  Raise.require (Doc.textField s.machine.repr "id" destination == destId) "backup_ref destination id does not match supplied destination"
  return destination

/-- `ensure_regular` of a file that was written here. -/
def ensureRegular (content : Content) : Except String Unit := Raise.require (decide (s.size content ≤ s.maxBytes)) "file exceeds configured maximum size"

/-- The hash of the sidecar is that of the object, where it names one. -/
def sidecarHash (content : Content) (fields : Fields) : Bool :=
  !(Doc.field "sha256" fields).truthy || s.machine.lower ((Doc.field "sha256" fields).text s.machine.repr) == s.machine.lower (s.sha256 content)

/-- `int(value) != size`. -/
def sameSize (content : Content) (value : Doc) (text : String) : Except String Unit := do
  let size ← Backup.toInt value
  Raise.require (size == Int.ofNat (s.size content)) text

def isNone : Doc → Bool
  | .null => true
  | _ => false

/-- The sidecar as validation reads it: a size that is missing is not compared. -/
def validateSidecar (content : Content) (metadata : Doc) : Except String Unit :=
  match metadata with
  | .obj fields => do
    onlyIf (!isNone (Doc.field "size_bytes" fields)) (sameSize s content (Doc.field "size_bytes" fields) "recovery object size does not match sidecar metadata")
    Raise.require (sidecarHash s content fields) "recovery object SHA-256 does not match sidecar metadata"
  | _ => .error "backup sidecar metadata is invalid"

/-- The sidecar as the restore reads it: a size that is missing counts as `-1`, and no value is no number. -/
def restoreSidecar (content : Content) (metadata : Doc) : Except String Unit :=
  match metadata with
  | .obj fields => do
    sameSize s content ((Dict.get "size_bytes" fields).getD (.num (-1))) "restore artifact size does not match backup metadata"
    Raise.require (sidecarHash s content fields) "restore artifact SHA-256 does not match backup metadata"
  | _ => .error "object has no attribute 'get'"

/-- `verify_archive_hash_companion`. -/
def verifyArchiveHashCompanion (destination : Fields) (name : String) (content : Content) : Except String Unit := do
  let expected ← s.companion destination name
  match expected with
  | none => return ()
  | some expected => Raise.require (s.machine.lower (s.sha256 content) == expected) "restore artifact SHA-256 companion mismatch"

/-- The sidecar is checked where there is one that is not empty. -/
def checkMetadata (checkSidecar : Content → Doc → Except String Unit) (content : Content) (metadata : Option Doc) : Except String Unit :=
  match metadata with
  | none => .ok ()
  | some metadata => onlyIf metadata.truthy (checkSidecar content metadata)

/-- The object with its sidecar and its companion checked. -/
def fetchArtifact (checkSidecar : Content → Doc → Except String Unit) (destination : Fields) (name : String) : Except String Content := do
  let found ← s.download destination name
  ensureRegular s found.1
  checkMetadata checkSidecar found.1 found.2
  verifyArchiveHashCompanion s destination name found.1
  return found.1

/-! ## The recovery bundle -/

/-- `text in value`; a value that has no members is refused. -/
def inValue (text : String) : Doc → Except String Bool
  | .arr items => .ok (items.any (Doc.isText text))
  | .str t => .ok (decide (text.toList <:+: t.toList))
  | .obj fields => .ok ((Dict.get text fields).isSome)
  | _ => .error "argument is not iterable"

/-- `value.get`, of a dictionary. -/
def asDict : Doc → Except String Fields
  | .obj fields => .ok fields
  | _ => .error "object has no attribute 'get'"

/-- `components.get(key) or {}`. -/
def componentMeta (manifest : Fields) (key : String) : Except String Fields := do
  let components ← asDict ((Doc.field "components" manifest).orElse (.obj []))
  asDict ((Doc.field key components).orElse (.obj []))

/-- The path of a component is the one of its kind. -/
def isComponentPath (key rel : String) : Bool :=
  if key = "tec_tac" then rel == "tec-tac/tec-tac-backup.tar.gz"
  else "tactical/".toList.isPrefixOf rel.toList && isLegacyArchive (String.ofList (rel.toList.drop "tactical/".length))

/-- One component of the bundle, extracted and verified. -/
def extractComponent (members : List (String × Option Content)) (checksums : List (String × String)) (manifest : Fields) (key : String) : Except String Content := do
  let fields ← componentMeta manifest key
  Raise.require (Doc.field "included" fields).truthy ("recovery bundle does not include required component: " ++ key)
  let rel := Doc.textField s.machine.repr "archive" fields
  Raise.require (isComponentPath key rel) ("recovery bundle component path is invalid: " ++ key)
  let member ← orRaise (Dict.get rel members) ("recovery bundle member is missing: " ++ rel)
  let expected := s.machine.lower (Doc.textField s.machine.repr "sha256" fields)
  Raise.require (s.machine.lower ((Dict.get rel checksums).getD "") == expected) ("recovery bundle checksum manifest mismatch: " ++ rel)
  let content ← orRaise member ("recovery bundle member is unreadable: " ++ rel)
  let size ← Backup.toInt (Doc.field "size_bytes" fields)
  Raise.require (Int.ofNat (s.size content) == size && s.machine.lower (s.sha256 content) == s.machine.lower ((Doc.field "sha256" fields).text s.machine.repr))
    ("recovery bundle component checksum failed: " ++ rel)
  return content

/-- The components of a restore, where the mode selects them. -/
structure Extracted (Content : Type) where
  tactical : Option Content
  tecTac : Option Content

/-- A component that the mode may select. -/
def extractSelected (selected : Bool) (members : List (String × Option Content)) (checksums : List (String × String)) (manifest : Fields) (key : String) :
    Except String (Option Content) :=
  if selected then do
    let content ← extractComponent s members checksums manifest key
    return some content
  else return none

/-- A member that must be there and readable. -/
def readMember (members : List (String × Option Content)) (name missing unreadable : String) : Except String Content := do
  let member ← orRaise (Dict.get name members) missing
  orRaise member unreadable

/-- The two members that a bundle must have, and its signature checked where there is one. -/
def bundleMetadata (members : List (String × Option Content)) : Except String (Content × Content) := do
  let manifest ← readMember members "manifest.json" "recovery bundle requires manifest.json and checksums.sha256" "recovery bundle metadata is unreadable"
  let checksums ← readMember members "checksums.sha256" "recovery bundle requires manifest.json and checksums.sha256" "recovery bundle metadata is unreadable"
  onlyIf (Dict.get "recovery-signature.json" members).isSome (do
    let envelope ← readMember members "recovery-signature.json" "" "legacy recovery signature is unreadable"
    s.inspectRecoverySignature manifest checksums envelope)
  return (manifest, checksums)

/-- The Tactical component, where the mode selects it. -/
def validateTactical (extracted : Extracted Content) : Except String Unit :=
  match extracted.tactical with
  | none => .ok ()
  | some content => s.validateTacticalNativeArchive content

/-- The Tec-Tac component, where the mode selects it. -/
def validateTecTac (manifest : Fields) (extracted : Extracted Content) : Except String Unit :=
  match extracted.tecTac with
  | none => .ok ()
  | some content => do
    let fields ← componentMeta manifest "tec_tac"
    s.validateTecTacComponent content fields

/-- The manifest of a bundle and the components that the mode selects, extracted. -/
def openBundle (bundle : Content) (name : String) (mode : Mode) : Except String (Fields × Extracted Content) := do
  ensureRegular s bundle
  Raise.require (isBundle name) "recovery bundle filename is invalid"
  let members ← s.members bundle
  Raise.require (decide (members.map Prod.fst).Nodup) "recovery bundle contains duplicate member paths"
  let metadata ← bundleMetadata s members
  let document ← s.json metadata.1
  let manifest ← orRaise document.pairs "recovery bundle format is unsupported"
  let format ← Backup.toInt ((Dict.get "format_version" manifest).getD (.num 0))
  Raise.require (format == 2) "recovery bundle format is unsupported"
  Raise.require (isNone (Doc.field "artifact_type" manifest) || (Doc.field "artifact_type" manifest).isText "tec-tac-recovery-bundle") "recovery bundle artifact type is invalid"
  let checksums ← s.parseChecksumFile metadata.2
  let supported ← inValue mode.name ((Doc.field "recovery_modes" manifest).orElse (.arr []))
  Raise.require supported ("recovery bundle does not support restore mode " ++ mode.name)
  let tactical ← extractSelected s mode.withTactical members checksums manifest "tactical"
  let tecTac ← extractSelected s mode.withTecTac members checksums manifest "tec_tac"
  return (manifest, ⟨tactical, tecTac⟩)

/-- `validate_recovery_bundle`, with its components validated or not. -/
def validateRecoveryBundle (content : Content) (name : String) (mode : Mode) (components : Bool) : Except String (Fields × Extracted Content) := do
  let bundle ← openBundle s content name mode
  onlyIf components (validateTactical s bundle.2)
  onlyIf components (validateTecTac s bundle.1 bundle.2)
  return bundle

/-- `_restore_version_transition`: the version of the bundle is a text where there is one. -/
def restoreVersionTransition (manifest : Fields) : Except String Unit := do
  let fields ← componentMeta manifest "tec_tac"
  match (Doc.field "framework_version" fields).orElse (.str "") with
  | .str _ => return ()
  | _ => .error "object has no attribute 'strip'"

/-! ## The target -/

/-- What Core knows of a checked `restore.sh`. -/
structure Profile where
  tactical : String
  osGate : String
  debian : List String
  ubuntu : List String

def osGate67 : String :=
  "if [[ \"$osname\" == \"debian\" ]]; then\n  if [[ \"$relno\" -ne 11 && \"$relno\" -ne 12 ]]; then\n    not_supported\n    exit 1\n  fi\n" ++
  "elif [[ \"$osname\" == \"ubuntu\" ]]; then\n  if [[ \"$fullrelno\" != \"22.04\" ]]; then\n    not_supported\n    exit 1\n  fi\n" ++
  "else\n  not_supported\n  exit 1\nfi\n"

def osGate68 : String :=
  "if [[ \"$osname\" == \"debian\" ]]; then\n  [[ \"$relno\" -eq 13 ]] || \x7b\n    not_supported\n    exit 1\n  \x7d\n" ++
  "elif [[ \"$osname\" == \"ubuntu\" ]]; then\n  [[ \"$fullrelno\" == \"26.04\" ]] || \x7b\n    not_supported\n    exit 1\n  \x7d\n" ++
  "else\n  not_supported\n  exit 1\nfi\n"

/-- `TACTICAL_RESTORE_PROFILES`. -/
def restoreProfile : Option String → Option Profile
  | some "67" => some ⟨"1.5.2", osGate67, ["11", "12"], ["22.04"]⟩
  | some "68" => some ⟨"1.6.1", osGate68, ["13"], ["26.04"]⟩
  | _ => none

/-- `_known_restore_versions_text`. -/
def knownRestoreVersionsText : String := "v67 (Tactical 1.5.2) or v68 (Tactical 1.6.1)"

/-- The system is one that the installed `restore.sh` supports. -/
def supportedOs (t : Target) (profile : Profile) : Bool :=
  t.osId == "debian" && profile.debian.contains (String.ofList (t.osVersion.toList.takeWhile (· != '.'))) || t.osId == "ubuntu" && profile.ubuntu.contains t.osVersion

def passedIf (b : Bool) : Status := if b then .passed else .failed

/-- The checks of a restore that runs Tactical's own script, before those of the disk. -/
def tacticalChecks (t : Target) : List Check :=
  let arch := newCheck "target.arch" (passedIf (["x86_64", "aarch64"].contains t.arch)) t.arch
  let system := (if t.osId = "" then "unknown" else t.osId) ++ " " ++ (if t.osVersion = "" then "unknown" else t.osVersion)
  let script := match restoreProfile t.restoreVersion with
    | none => newCheck "target.restore_script" .failed
      ("Tactical restore.sh v" ++ t.restoreVersion.getD "unknown" ++ " is not a version Core has checked (" ++ knownRestoreVersionsText ++ "). Update Tec-Tac Core first.")
    | some profile => newCheck "target.restore_script" .passed ("restore.sh v" ++ t.restoreVersion.getD "unknown" ++ " (Tactical " ++ profile.tactical ++ ") supports Debian " ++
      ", ".intercalate profile.debian ++ " and Ubuntu " ++ ", ".intercalate profile.ubuntu ++ ".")
  let os := newCheck "target.os" (passedIf ((restoreProfile t.restoreVersion).any (supportedOs t))) system
  [arch, script, os, newCheck "target.memory" (passedIf (decide (3627528 ≤ t.memKb))) (toString t.memKb ++ " KiB detected; Tactical restore baseline requires at least 3627528 KiB")]

/-- Who holds the lock of the backups and restores when the target is checked. -/
inductive Lock where
  | own
  | free
  | other
  deriving DecidableEq

def lockCheck : Lock → Check
  | .own => newCheck "target.mutation_lock" .passed "This restore job owns the Core mutation lock."
  | .free => newCheck "target.mutation_lock" .passed "No destructive backup/restore mutation is active."
  | .other => newCheck "target.mutation_lock" .failed "another Core server backup/restore mutation is active"

/-- The checks of the target after that of the lock. -/
def hostChecks (t : Target) (mode : Mode) (staged : Nat) : List Check :=
  let script := if mode.withTactical then tacticalChecks t else
    [newCheck "target.arch" .notApplicable "Tactical restore.sh is not used for Tec-Tac-only recovery.", newCheck "target.os" .notApplicable "Tactical restore.sh is not used for Tec-Tac-only recovery.",
      newCheck "target.memory" .notApplicable "Tactical restore.sh minimum is not applied to Tec-Tac-only recovery."]
  let disk := match t.disk mode with
    | .error e => newCheck "target.disk" .failed e
    | .ok (free, host, database) =>
      let required := max (2 * 1024 ^ 3) (staged * 3 + host + database)
      newCheck "target.disk" (passedIf (decide (required ≤ free))) ("free=" ++ toString free ++ " required_estimate=" ++ toString required ++ " host_snapshot_estimate=" ++
        toString host ++ " database_snapshot_estimate=" ++ toString database)
  let missing := t.missingTools mode
  let tools := newCheck "target.tools" (passedIf missing.isEmpty) (if missing.isEmpty then "all required executables found" else "missing: " ++ ", ".intercalate missing)
  let unresolved := t.unresolvedHosts
  let dns := if mode.withTactical then
      newCheck "target.dns" (passedIf unresolved.isEmpty) (if unresolved.isEmpty then "DNS resolution available" else "unable to resolve: " ++ ", ".intercalate unresolved)
    else newCheck "target.dns" .notApplicable "Tactical package/bootstrap restore is not used."
  let last := if mode.withTactical then
      match t.user with
      | .ok user => newCheck "target.user" .passed user
      | .error e => newCheck "target.user" .failed e
    else newCheck "target.tactical_present" (passedIf t.tacticalPresent) t.tacticalRoot
  script ++ [disk, tools, dns, last]

/-- `validate_target_preflight`: the checks of the target, in order. -/
def targetChecks (t : Target) (mode : Mode) (staged : Nat) (lock : Lock) : List Check := lockCheck lock :: hostChecks t mode staged

/-- `_target_effectively_ready`. -/
def ready (checks : List Check) : Bool := checks.all fun check => check.status != .failed || check.overridden

/-- `OVERRIDEABLE_RESTORE_CHECKS`. -/
def overrideable : List String := ["target.os"]

/-- The first check of an id is overridden. -/
def markOverridden (checkId : String) : List Check → List Check
  | [] => []
  | check :: checks => if check.id = checkId then { check with overridden := true } :: checks else check :: markOverridden checkId checks

def findCheck (checkId : String) (checks : List Check) : Option Check := checks.find? fun check => check.id == checkId

/-- What the acceptance of overrides works on: the checks, the accepted ids and the stored records; and how many ids were made. -/
structure Acceptance where
  checks : List Check
  accepted : List (String × String)
  records : String → Option Record
  made : Nat

/-- One override of `_accept_validation_overrides`. -/
def acceptOverride (request : Request) (a : Acceptance) (checkId : String) : Except String Acceptance := do
  Raise.require (overrideable.contains checkId) ("restore check is not overrideable: " ++ checkId)
  let check ← orRaise (findCheck checkId a.checks) ("restore override check was not produced by validation: " ++ checkId)
  Raise.require (check.status == .failed) ("restore override may only be accepted for a failed check: " ++ checkId)
  Raise.require (stripText s.requestedBy != "") "restore override acceptance requires context.requested_by for audit"
  let auditId := s.newId a.made
  let record : Record := ⟨request.backupRef, request.modeText, checkId, s.overrideFingerprint request.backupRef request.modeText checkId check.detail⟩
  return ⟨markOverridden checkId a.checks, Dict.set checkId auditId a.accepted, Function.update a.records auditId (some record), a.made + 1⟩

/-- One override of `_authorize_restore_overrides`. -/
def authorizeOverride (request : Request) (checks : List Check) (override : String × String) : Except String (List Check) := do
  Raise.require (overrideable.contains override.1) ("restore check is not overrideable: " ++ override.1)
  Raise.require (s.machine.isUuid override.2) ("invalid restore override audit id for " ++ override.1)
  let check ← orRaise (findCheck override.1 checks) ("restore override does not match a current failed check: " ++ override.1)
  Raise.require (check.status == .failed) ("restore override does not match a current failed check: " ++ override.1)
  let record ← orRaise (s.records override.2) ("restore override audit record was not found: " ++ override.1)
  Raise.require (record.fingerprint == s.overrideFingerprint request.backupRef request.modeText override.1 check.detail)
    ("restore override is stale or belongs to a different backup/mode/check: " ++ override.1)
  Raise.require (record.backupRef == request.backupRef && record.modeText == request.modeText && record.checkId == override.1)
    ("restore override audit binding mismatch: " ++ override.1)
  return markOverridden override.1 checks

/-! ## The two operations -/

/-- A check that passes, or fails with what was raised. -/
def vrRun (r : Report) (name : SectionName) (id : String) (x : Except String Unit) (detail : String) : Report :=
  match x with
  | .ok _ => vrCheck r name id .passed detail
  | .error e => vrCheck r name id .failed e

/-- The section of the Tactical component of a bundle, validated by itself. -/
def reportTactical (mode : Mode) (extracted : Extracted Content) (r : Report) : Report :=
  match extracted.tactical with
  | some content => vrRun r .tactical "tactical.compatibility" (s.validateTacticalNativeArchive content)
      "Native Tactical component is safe/readable and compatible with backup.sh v34/v35 / restore.sh v67/v68 requirements."
  | none => vrCheck r .tactical "tactical.component" (if mode = .tecTac then .notApplicable else .notRun) "Tactical component is not selected by this recovery mode."

/-- The section of the Tec-Tac component of a bundle, validated by itself. -/
def reportTecTac (mode : Mode) (manifest : Fields) (extracted : Extracted Content) (r : Report) : Report :=
  match extracted.tecTac with
  | some _ => vrRun r .tecTac "tec_tac.component" (validateTecTac s manifest extracted) "Tec-Tac component is safe/readable and contains required payload classes."
  | none => vrCheck r .tecTac "tec_tac.component" (if mode = .tactical then .notApplicable else .notRun) "Tec-Tac component is not selected by this recovery mode."

/-- The bundle without its components, and the version it goes back to. -/
def inspectBundle (request : Request) (name : String) (content : Content) : Except String (Fields × Extracted Content) := do
  let bundle ← validateRecoveryBundle s content name request.mode false
  restoreVersionTransition bundle.1
  return bundle

/-- The sections of the recovery object. -/
def reportArtifact (request : Request) (name : String) (content : Content) (r : Report) : Report :=
  if isLegacyArchive name then
    let r := if request.mode = .tactical then
        vrRun (vrCheck r .bundle "bundle.legacy" .passed "Native Tactical archive selected for Tactical-only validation.") .tactical "tactical.compatibility"
          (s.validateTacticalNativeArchive content) "Validated against backup.sh v34/v35 / restore.sh v67/v68 compatibility baseline."
      else vrCheck r .bundle "bundle.mode" .failed "legacy Tactical archives support only tactical restore mode"
    vrCheck r .tecTac "tec_tac.component" .notApplicable "Legacy native Tactical archive has no independent Tec-Tac component."
  else
    match inspectBundle s request name content with
    | .ok (manifest, extracted) =>
      let r := vrCheck r .bundle "bundle.structure" .passed "Manifest, checksums and selected component hash/size are valid."
      reportTecTac s request.mode manifest extracted (reportTactical s request.mode extracted r)
    | .error e => reportTecTac s request.mode [] ⟨none, none⟩ (reportTactical s request.mode ⟨none, none⟩ (vrCheck r .bundle "bundle.structure" .failed e))

/-- The sections that the mode needs are neither failed nor left out. -/
def artifactValid (mode : Mode) (r : Report) : Bool :=
  let sections := SectionName.bundle :: ((if mode.withTactical then [SectionName.tactical] else []) ++ if mode.withTecTac then [SectionName.tecTac] else [])
  sections.all fun name => (r.sections name).status != .failed && (r.sections name).status != .notRun

/-- The report on an object that was fetched. -/
def validateFetched (request : Request) (name : String) (content : Content) (overrides : List String) (r : Report) : Except String (Report × (String → Option Record)) := do
  let r := reportArtifact s request name content r
  let valid := artifactValid request.mode r
  let a ← overrides.foldlM (acceptOverride s request) ⟨targetChecks s.target request.mode (s.size content) (if s.locked then .other else .free), [], s.records, 0⟩
  return (⟨(r.setSection .target ⟨.passed, a.checks⟩).sections, valid, ready a.checks, valid && ready a.checks, a.accepted⟩, a.records)

/-- The report on a backup that is named. -/
def validateNamed (request : Request) (destId name : String) (overrides : List String) : Except String (Report × (String → Option Record)) :=
  match requestDestination s request destId with
  | .error e => .ok (vrCheck vrNew .source "source.destination" .failed e, s.records)
  | .ok destination =>
    let r := vrCheck vrNew .source "source.destination" .passed (Doc.textField s.machine.repr "type" destination ++ ":" ++ destId)
    match fetchArtifact s (validateSidecar s) destination name with
    | .error e => .ok (vrCheck r .source "source.object" .failed e, s.records)
    | .ok content => validateFetched s request name content overrides (vrCheck r .source "source.object" .passed "Recovery object copied to protected validation staging.")

/-- `operation_validate_restore` with the overrides that are asked for: the report and the stored records. -/
def validateRestore (request : Request) (overrides : List String) : Except String (Report × (String → Option Record)) := do
  let ref ← parseBackupRef request.backupRef
  validateNamed s request ref.1 ref.2 overrides

/-- How often a text is in another one, counted from the left without overlaps. -/
def countText (needle : List Char) : Nat → List Char → Nat
  | 0, _ => 0
  | _, [] => 0
  | fuel + 1, c :: text => if needle.isPrefixOf (c :: text) then countText needle fuel ((c :: text).drop needle.length) + 1 else countText needle fuel text

/-- The first place of a text in another one is replaced. -/
def replaceFirst (needle replacement : List Char) : List Char → List Char
  | [] => []
  | c :: text => if needle.isPrefixOf (c :: text) then replacement ++ (c :: text).drop needle.length else c :: replaceFirst needle replacement text

def osReplacement : String :=
  "# TEC-TAC: Tactical OS support rejection bypassed under an authorized target.os override.\n" ++
  "printf >&2 \"$\x7bYELLOW\x7dTec-Tac: continuing under authorized target.os restore override.$\x7bNC\x7d\\n\"\n"

/-- The gate of `restore.sh` can be taken out as an override of the system needs it: it is there once, and the script still reads the system it runs on. -/
def gatePatches (profile : Profile) (text : String) : Bool :=
  let gate := profile.osGate.toList
  let patched := replaceFirst gate osReplacement.toList text.toList
  countText gate text.length text.toList == 1 && patched != text.toList && decide ("osname=$(lsb_release -si)".toList <:+: patched) &&
    decide ("codename=$(lsb_release -sc)".toList <:+: patched)

/-- `_prepare_tactical_restore_script`. -/
def prepareTacticalRestoreScript (override : Option String) : Except String Unit :=
  match restoreProfile s.target.restoreVersion with
  | none => .error "Tactical restore.sh is not a version Core has checked"
  | some profile =>
    match override with
    | none => .ok ()
    | some _ =>
      match s.target.restoreText with
      | none => .error "Tactical restore.sh is not UTF-8; refusing target.os override patch"
      | some text => Raise.require (gatePatches profile text) "Tactical restore.sh OS-support gate did not match the inspected baseline exactly"

/-- The recovery object of a restore. -/
def restoreArtifact (request : Request) (name : String) (content : Content) : Except String Unit :=
  if isLegacyArchive name then do
    Raise.require (request.mode == .tactical) "legacy Tactical archives support only tactical restore mode"
    s.validateTacticalNativeArchive content
  else do
    let bundle ← validateRecoveryBundle s content name request.mode true
    restoreVersionTransition bundle.1

/-- `operation_restore_backup` with the audit ids of its overrides, up to its first destructive step: it gets there, or it raises. -/
def restoreBackup (request : Request) (overrides : List (String × String)) : Except String Unit := do
  let ref ← parseBackupRef request.backupRef
  let destination ← requestDestination s request ref.1
  Raise.require (!s.locked) "another Core server backup/restore mutation is already running"
  let content ← fetchArtifact s (restoreSidecar s) destination ref.2
  restoreArtifact s request ref.2 content
  -- the restore holds the lock itself now
  let checks ← overrides.foldlM (authorizeOverride s request) (targetChecks s.target request.mode (s.size content) .own)
  Raise.require (ready checks) "Restore target preflight failed; resolve or explicitly override eligible checks before destructive restore."
  Raise.require (!request.mode.withTecTac || s.target.captures) "the security state cannot be captured"
  onlyIf request.mode.withTactical (prepareTacticalRestoreScript s (Dict.get "target.os" overrides))
  Raise.require (s.target.snapshots request.mode) "the snapshot before the restore cannot be taken"

end Recovery

end TecTac
