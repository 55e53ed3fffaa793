import Mathlib
import TecTac.Lib.Machine
import TecTac.Lib.PosixPath
import TecTac.Lib.Raise
import TecTac.Lib.Text

/-!
# Hotfix jobs

The worker of `module-hotfix-job-helper.py` on the files of one installed module: `apply_job` and `rollback_job`, one job after the other, as the lifecycle
lock has it. `sha256` stands for the digest of a file's content. A job carries the `Fault` it meets: the step at which the environment makes it raise.
-/

namespace TecTac

namespace Hotfix

open Raise

inductive Component where
  | extension
  | reportset
  deriving DecidableEq

/-- A file of the module: a path under the root of one of its components. -/
structure Target where
  component : Component
  path : List Char
  deriving DecidableEq

/-- Why a job is refused or fails; `raised` is a step that the environment made fail. -/
inductive Refusal where
  | claimed
  | invalidPackage
  | invalidIdentity
  | invalidTargetList
  | invalidTarget
  | invalidComponent
  | unsafePath
  | unsupportedPath
  | pathNotPermitted
  | invalidHash
  | duplicateTarget
  | identityMismatch
  | versionMismatch
  | alreadyApplied
  | payloadMissing
  | payloadHashMismatch
  | notRegular
  | baseHashChanged
  | postWriteHashMismatch
  | notLatest
  | backupMissing
  | currentHashChanged
  | backupHashInvalid
  | rollbackHashMismatch
  | raised
  deriving DecidableEq

/-- `safe_relative`. -/
def safeRelative (value : List Char) : Except Refusal (List Char) := do
  let raw := strip (value.map fun c => if c = '\\' then '/' else c)
  let parts := PosixPath.names raw
  require (raw != [] && !PosixPath.isAbsolute raw && !parts.contains ['.', '.']) .unsafePath
  require (parts.all fun part => part.head? != some '.') .unsupportedPath
  require (parts.getLast? != some "tec_tac.json".toList && parts.getLast? != some "tec_tac_ui.json".toList &&
    !parts.contains "migrations".toList && !parts.contains "lifecycle".toList) .pathNotPermitted
  return PosixPath.asPosix raw

/-- A row of `targets`, each value as `str(value or "")` gives it. -/
structure ManifestRow where
  component : String
  path : String
  sha256Before : String
  sha256After : String

/-- What `normalize_targets` reads of `tec_tac_hotfix.json`. No `targets` is a value that is no list, a missing row one that is no object. -/
structure Manifest where
  moduleId : String
  id : String
  baseVersion : String
  targets : Option (List (Option ManifestRow))
  reload : Bool
  uiSync : Bool
  pythonCompile : Bool
  djangoCheck : Bool

/-- A row of a job and of an applied record. -/
structure Row where
  target : Target
  sha256Before : String
  sha256After : String
  deriving DecidableEq

structure Effective where
  reload : Bool
  uiSync : Bool
  pythonCompile : Bool
  djangoCheck : Bool
  deriving DecidableEq

/-- `SHA256_RE`. -/
def isSha256 (s : String) : Bool := s.length == 64 && s.toList.all fun c => c.isDigit || (decide ('a' ≤ c) && decide (c ≤ 'f'))

/-- `MODULE_RE`. -/
def isModuleId (s : String) : Bool := s != "" && s.toList.all fun c => c.isAlphanum || c == '_' || c == '-'

/-- `HOTFIX_RE`. -/
def isHotfixId (s : String) : Bool := s != "" && s.toList.all fun c => c.isAlphanum || c == '_' || c == '.' || c == '-'

def componentOf (s : String) : Except Refusal Component :=
  if s = "extension" then .ok .extension else if s = "reportset" then .ok .reportset else .error .invalidComponent

/-- One row of `normalize_targets`. -/
def normalizeRow (row : ManifestRow) : Except Refusal Row := do
  let component ← componentOf row.component
  let rel ← safeRelative row.path.toList
  let before := row.sha256Before.toLower
  let after := row.sha256After.toLower
  require (isSha256 before && isSha256 after) .invalidHash
  return ⟨⟨component, rel⟩, before, after⟩

/-- The loop of `normalize_targets`, with the targets it has seen. -/
def normalizeRows (seen : List Target) : List (Option ManifestRow) → Except Refusal (List Row)
  | [] => .ok []
  | none :: _ => .error .invalidTarget
  | some row :: rows => do
    let row ← normalizeRow row
    require (!seen.contains row.target) .duplicateTarget
    let rows ← normalizeRows (row.target :: seen) rows
    return row :: rows

/-- `normalize_targets`. -/
def normalizeTargets (manifest : Manifest) : Except Refusal (List Row × Effective) := do
  require (isModuleId manifest.moduleId && isHotfixId manifest.id && manifest.baseVersion != "") .invalidIdentity
  match manifest.targets with
  | none => .error .invalidTargetList
  | some targets =>
    require (!targets.isEmpty && decide (targets.length ≤ 64)) .invalidTargetList
    let rows ← normalizeRows [] targets
    let anyPython := rows.any fun row => ".py".toList.isSuffixOf row.target.path
    let anyUi := rows.any fun row => row.target.component == .extension && "ui/".toList.isPrefixOf row.target.path
    return (rows, ⟨anyPython || manifest.reload, manifest.uiSync || anyUi, manifest.pythonCompile || anyPython, manifest.djangoCheck || anyPython⟩)

/-- An applied record; `job` names the folder of its backups, together with its id. -/
structure Record where
  id : String
  baseVersion : String
  appliedAt : Nat
  job : String
  effective : Effective
  rows : List Row
  deriving DecidableEq

variable {Content : Type}

abbrev Files (Content : Type) := Target → Option Content

/-- The backups, by the hotfix, the job and the target. -/
abbrev Backups (Content : Type) := String × String × Target → Option Content

/-- A package that was claimed and verified. -/
structure Package (Content : Type) where
  manifest : Manifest
  payload : Files Content

/-- Where `apply_job` is made to raise: at the backup of a row, at its write (before the rename; the first one also stands for the write of the job itself), at the
check after it, with what the file then holds, at the validation, the runtime sync, the write of the record, or the removal of what was staged. -/
inductive ApplyFault (Content : Type) where
  | nothing
  | backup (i : Nat)
  | copy (i : Nat)
  | check (i : Nat) (found : Content)
  | validate
  | sync
  | record
  | unlink

/-- The backup of the row raises. -/
def ApplyFault.atBackup (fault : ApplyFault Content) (i : Nat) : Bool :=
  match fault with
  | .backup j => j == i
  | _ => false

/-- The write of the row raises. -/
def ApplyFault.atCopy (fault : ApplyFault Content) (i : Nat) : Bool :=
  match fault with
  | .copy j => j == i
  | _ => false

/-- What the file of the row holds where the check after the write raises. -/
def ApplyFault.atCheck (fault : ApplyFault Content) (i : Nat) : Option Content :=
  match fault with
  | .check j found => if j = i then some found else none
  | _ => none

/-- The guarded block raises after all files are written. -/
def ApplyFault.afterFiles (fault : ApplyFault Content) : Bool :=
  match fault with
  | .validate | .sync => true
  | _ => false

/-- Where `rollback_job` is made to raise. -/
inductive RollbackFault (Content : Type) where
  | nothing
  | preflight
  | copy (i : Nat)
  | check (i : Nat) (found : Content)
  | validate
  | sync
  | history
  | unlink

/-- The write of the row raises; the rows are counted from the last one. -/
def RollbackFault.atCopy (fault : RollbackFault Content) (i : Nat) : Bool :=
  match fault with
  | .copy j => j == i
  | _ => false

/-- What the file of the row holds where the check after the write raises. -/
def RollbackFault.atCheck (fault : RollbackFault Content) (i : Nat) : Option Content :=
  match fault with
  | .check j found => if j = i then some found else none
  | _ => none

/-- What a job does. There is no package where its claim, its verification or its archive is refused; `logged` says that the failure path can write its first line. -/
inductive Action (Content : Type) where
  | apply (package : Option (Package Content)) (baseVersion : String) (fault : ApplyFault Content) (logged : Bool)
  | rollback (fault : RollbackFault Content)

structure Job (Content : Type) where
  id : String
  hotfixId : String
  elapsed : Nat
  action : Action Content

/-- One installed module. `claimed` are the jobs that were run. -/
structure State (Content : Type) where
  moduleId : String
  version : Component → String
  files : Files Content
  records : List Record
  history : List Record
  backups : Backups Content
  claimed : List String
  clock : Nat

/-- The module as it was installed. -/
def State.installed (moduleId : String) (version : Component → String) (files : Files Content) : State Content :=
  ⟨moduleId, version, files, [], [], fun _ => none, [], 0⟩

/-- A row with what is written to its file. -/
structure Write (Content : Type) where
  row : Row
  payload : Content

/-- A row of `resolved`: its payload and the backup of its file. -/
structure Resolved (Content : Type) extends Write Content where
  backup : Content

section Jobs

variable (sha256 : Content → String)

/-- `extract_payload`. -/
def extractPayload (payload : Files Content) (rows : List Row) : Except Refusal (List (Write Content)) :=
  rows.mapM fun row =>
    match payload row.target with
    | none => .error .payloadMissing
    | some data => if sha256 data = row.sha256After then .ok ⟨row, data⟩ else .error .payloadHashMismatch

/-- What `apply_job` checks before it looks at the files. -/
def admitInstall (s : State Content) (hotfixId baseVersion : String) : Option (Package Content) → Except Refusal (List (Write Content) × Effective)
  | none => .error .invalidPackage
  | some package => do
    let (rows, effective) ← normalizeTargets package.manifest
    require (package.manifest.moduleId == s.moduleId && package.manifest.id == hotfixId && package.manifest.baseVersion == baseVersion) .identityMismatch
    require (s.version .extension == s.version .reportset && s.version .extension == baseVersion) .versionMismatch
    require (!(s.records.map Record.id).contains hotfixId) .alreadyApplied
    let writes ← extractPayload sha256 package.payload rows
    return (writes, effective)

/-- The loop that checks and backs up the files. -/
def resolve (fault : ApplyFault Content) (files : Files Content) (hotfixId job : String) :
    Nat → List (Write Content) → Backups Content → Backups Content × Except Refusal (List (Resolved Content))
  | _, [], backups => (backups, .ok [])
  | i, w :: ws, backups =>
    match files w.row.target with
    | none => (backups, .error .notRegular)
    | some content =>
      if sha256 content ≠ w.row.sha256Before then (backups, .error .baseHashChanged)
      else if fault.atBackup i then (backups, .error .raised)
      else
        let rest := resolve fault files hotfixId job (i + 1) ws (Function.update backups (hotfixId, job, w.row.target) (some content))
        (rest.1, rest.2.map fun resolved => ⟨w, content⟩ :: resolved)

/-- What the loop that writes the files leaves: the files, the rows that it listed as `mutated`, and why it stopped. -/
structure Written (Content : Type) where
  files : Files Content
  mutated : List (Resolved Content)
  stopped : Option Refusal

/-- The loop that writes the files: a row is listed when its file passed the check after the write. -/
def writeFiles (fault : ApplyFault Content) : Nat → List (Resolved Content) → Files Content → List (Resolved Content) → Written Content
  | _, [], files, mutated => ⟨files, mutated, none⟩
  | i, r :: rs, files, mutated =>
    if fault.atCopy i then ⟨files, mutated, some .raised⟩
    else
      match fault.atCheck i with
      | some found => ⟨Function.update files r.row.target (some found), mutated, some .postWriteHashMismatch⟩
      | none =>
        let files := Function.update files r.row.target (some r.payload)
        if sha256 r.payload ≠ r.row.sha256After then ⟨files, mutated, some .postWriteHashMismatch⟩
        else writeFiles fault (i + 1) rs files (mutated ++ [r])

/-- The rows that were listed get their backups again, the last one first. -/
def restore (mutated : List (Resolved Content)) (files : Files Content) : Files Content :=
  mutated.reverse.foldl (fun files r => Function.update files r.row.target (some r.backup)) files

/-- The guarded block of `apply_job`. -/
def guarded (fault : ApplyFault Content) (logged : Bool) (resolved : List (Resolved Content)) (files : Files Content) : Files Content × Except Refusal Unit :=
  let w := writeFiles sha256 fault 0 resolved files []
  match w.stopped, fault.afterFiles with
  | none, false => (w.files, .ok ())
  | some reason, _ => (if logged then restore w.mutated w.files else w.files, .error reason)
  | none, true => (if logged then restore w.mutated w.files else w.files, .error .raised)

/-- `apply_job`. -/
def applyJob (s : State Content) (job hotfixId : String) (package : Option (Package Content)) (baseVersion : String) (fault : ApplyFault Content) (logged : Bool) :
    State Content × Except Refusal Unit :=
  match admitInstall sha256 s hotfixId baseVersion package with
  | .error reason => (s, .error reason)
  | .ok (writes, effective) =>
    let (backups, resolved) := resolve sha256 fault s.files hotfixId job 0 writes s.backups
    match resolved with
    | .error reason => ({ s with backups := backups }, .error reason)
    | .ok resolved =>
      match guarded sha256 fault logged resolved s.files with
      | (files, .error reason) => ({ s with backups := backups, files := files }, .error reason)
      | (files, .ok ()) =>
        match fault with
        | .record => ({ s with backups := backups, files := files }, .error .raised)
        | .unlink =>
          let record : Record := ⟨hotfixId, baseVersion, s.clock, job, effective, resolved.map fun r => r.row⟩
          ({ s with backups := backups, files := files, records := s.records ++ [record] }, .error .raised)
        | _ =>
          let record : Record := ⟨hotfixId, baseVersion, s.clock, job, effective, resolved.map fun r => r.row⟩
          ({ s with backups := backups, files := files, records := s.records ++ [record] }, .ok ())

/-- The applied records, by the time at which they were applied. -/
def ordered (records : List Record) : List Record := records.insertionSort fun a b => a.appliedAt ≤ b.appliedAt

/-- `latest_record`. -/
def latestRecord (s : State Content) : Option Record := (ordered s.records).getLast?

/-- A row of a record with its backup, as `rollback_job` reads it: the path is made safe once more. -/
def readRow (s : State Content) (record : Record) (row : Row) : Except Refusal (Write Content) := do
  let rel ← safeRelative row.target.path
  let target : Target := ⟨row.target.component, rel⟩
  match s.files target, s.backups (record.id, record.job, target) with
  | some current, some backup =>
    require (sha256 current == row.sha256After) .currentHashChanged
    require (sha256 backup == row.sha256Before) .backupHashInvalid
    return ⟨⟨target, row.sha256Before, row.sha256After⟩, backup⟩
  | _, _ => .error .backupMissing

/-- What `rollback_job` checks before it touches a file. -/
def admitRollback (s : State Content) (hotfixId : String) : Except Refusal (Record × List (Write Content)) := do
  match latestRecord s with
  | none => .error .notLatest
  | some record =>
    require (record.id == hotfixId) .notLatest
    require (s.version .extension == record.baseVersion && s.version .reportset == record.baseVersion) .versionMismatch
    let writes ← record.rows.mapM (readRow sha256 s record)
    return (record, writes)

/-- The loop that restores the files, and why it stopped; nothing is put back. -/
def restoreFiles (fault : RollbackFault Content) : Nat → List (Write Content) → Files Content → Files Content × Option Refusal
  | _, [], files => (files, none)
  | i, w :: ws, files =>
    if fault.atCopy i then (files, some .raised)
    else
      match fault.atCheck i with
      | some found => (Function.update files w.row.target (some found), some .rollbackHashMismatch)
      | none =>
        let files := Function.update files w.row.target (some w.payload)
        if sha256 w.payload ≠ w.row.sha256Before then (files, some .rollbackHashMismatch) else restoreFiles fault (i + 1) ws files

/-- `rollback_job`. -/
def rollbackJob (s : State Content) (hotfixId : String) (fault : RollbackFault Content) : State Content × Except Refusal Unit :=
  match admitRollback sha256 s hotfixId with
  | .error reason => (s, .error reason)
  | .ok (record, writes) =>
    match fault with
    | .preflight => (s, .error .raised)
    | _ =>
      match restoreFiles sha256 fault 0 writes.reverse s.files with
      | (files, some reason) => ({ s with files := files }, .error reason)
      | (files, none) =>
        match fault with
        | .validate | .sync | .history => ({ s with files := files }, .error .raised)
        | .unlink => ({ s with files := files, history := s.history ++ [record] }, .error .raised)
        | _ => ({ s with files := files, history := s.history ++ [record], records := s.records.filter fun r => r.id ≠ record.id }, .ok ())

/-- `run_job`: a job that was claimed is not run again. -/
def runJob (s : State Content) (job : Job Content) : State Content × Except Refusal Unit :=
  if job.id ∈ s.claimed then (s, .error .claimed)
  else
    let s := { s with claimed := job.id :: s.claimed, clock := s.clock + job.elapsed + 1 }
    match job.action with
    | .apply package baseVersion fault logged => applyJob sha256 s job.id job.hotfixId package baseVersion fault logged
    | .rollback fault => rollbackJob sha256 s job.hotfixId fault

def step (s : State Content) (job : Job Content) : State Content := (runJob sha256 s job).1

end Jobs

end Hotfix

end TecTac
