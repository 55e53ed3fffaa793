import Mathlib
import TecTac.Lib.FileTree
import TecTac.Lib.PosixPath

/-!
# The rollback of a failed restore

`operation_restore_backup` of `server-backup-helper.py` in the modes `full` and `tactical`, from the snapshot on, where one of its steps fails, and
`rollback_failed_restore`. The world is the files of the server and its databases. The snapshot folder is written by this job only and is not moved with the Tactical
tree, so what was copied into it is kept in the snapshot itself. Renames, copies and database commands of the rollback succeed; its other commands may fail.
-/

namespace TecTac

namespace Restore

open FileTree

abbrev Path := List (List Char)

abbrev Files (Content : Type) := Tree (List Char) Content

inductive Database where
  | tacticalrmm
  | meshcentral
  deriving DecidableEq

structure World (Content Data : Type) where
  fs : Files Content
  db : Database → Option Data

/-- A row of `host_paths`; there is no slot where the path did not exist. -/
structure HostRecord (Content : Type) where
  path : Path
  slot : Option (Files Content)

/-- What stood at and below the path. -/
def HostRecord.tree {Content : Type} (record : HostRecord Content) : Files Content := record.slot.getD .empty

structure Snapshot (Content Data : Type) where
  hostPaths : List (HostRecord Content)
  databases : List (Database × Data)

/-- The order of `_canonical_snapshot_targets`: by the number of names, then by the text. -/
def before (a b : Path) : Prop := a.length < b.length ∨ a.length = b.length ∧ PosixPath.join a ≤ PosixPath.join b

instance (a b : Path) : Decidable (before a b) := inferInstanceAs (Decidable (_ ∨ _))

/-- The loop that leaves out what is nested in a target before it. -/
def withoutNested (result : List Path) : List Path → List Path
  | [] => result
  | path :: paths => if result.any fun parent => parent.isPrefixOf path then withoutNested result paths else withoutNested (result ++ [path]) paths

/-- `_canonical_snapshot_targets`; the root itself is refused. -/
def canonicalSnapshotTargets (paths : List Path) : Option (List Path) :=
  if paths.contains [] then none else some (withoutNested [] (paths.eraseDups.insertionSort before))

section World

variable {Content Data : Type}

/-- One path of `_snapshot_host_paths`. -/
def snapshotHostPath (t : Files Content) (path : Path) : Option (HostRecord Content) :=
  if parentsSafe t [] path then some ⟨path, if (t path).isSome then some (below t path) else none⟩ else none

/-- `_snapshot_host_paths`. -/
def snapshotHostPaths (t : Files Content) (paths : List Path) : Option (List (HostRecord Content)) := do
  let targets ← canonicalSnapshotTargets paths
  targets.mapM (snapshotHostPath t)

/-- `create_pre_restore_snapshot`. -/
def createPreRestoreSnapshot (w : World Content Data) (paths : List Path) : Option (Snapshot Content Data) := do
  let hostPaths ← snapshotHostPaths w.fs paths
  let tactical ← w.db .tacticalrmm
  return ⟨hostPaths, (.tacticalrmm, tactical) :: ((w.db .meshcentral).map fun mesh => (.meshcentral, mesh)).toList⟩

/-- One row of `_restore_host_paths`. -/
def restoreHostPath (t : Files Content) (record : HostRecord Content) : Option (Files Content) := do
  let t ← makeParents t [] record.path
  let t := remove t record.path
  match record.slot with
  | none => return t
  | some slot => return graft t record.path slot

/-- The loop of `_restore_host_paths`: the files that it leaves, and whether it went through. -/
def restoreRecords : Files Content → List (HostRecord Content) → Files Content × Bool
  | t, [] => (t, true)
  | t, record :: records =>
    match restoreHostPath t record with
    | none => (t, false)
    | some t => restoreRecords t records

/-- The rows in the order in which they are restored, the deepest paths first. -/
def byDepth (records : List (HostRecord Content)) : List (HostRecord Content) := records.insertionSort fun a b => b.path.length ≤ a.path.length

/-- `_restore_host_paths` without the check of the sudoers rules at its end. -/
def restoreHostPaths (t : Files Content) (records : List (HostRecord Content)) : Files Content × Bool := restoreRecords t (byDepth records)

/-- The Tactical root: the folder it is in, and its name. -/
structure Layout where
  parent : Path
  name : List Char

namespace Layout

def root (l : Layout) : Path := l.parent ++ [l.name]

/-- Where the tree is preserved. -/
def movedRoot (l : Layout) (stamp : List Char) : Path := l.parent ++ [l.name ++ ".tectac-pre-restore-".toList ++ stamp]

/-- Where a tree that is rolled back is kept. -/
def failedRoot (l : Layout) (stamp : List Char) : Path := l.parent ++ [l.name ++ ".tectac-failed-restore-".toList ++ stamp]

/-- The backend, by which an installed Tactical is recognised. -/
def backend (l : Layout) : Path := l.root ++ ["api".toList, "tacticalrmm".toList]

end Layout

/-- The step at which the restore fails. A later one is the write of the job, `restore.sh`, the reintegration, the start of the services or the verification; until
it fails, the steps from `restore.sh` on may leave any files and databases, except that they do not touch the preserved tree. -/
inductive Failure (Content Data : Type) where
  | stop
  | move
  | later (left : World Content Data)

/-- What the failed restore leaves: the world, `moved_root`, and whether the Tactical tree was moved there by this job. -/
structure Failed (Content Data : Type) where
  world : World Content Data
  movedRoot : Option Path
  preserved : Bool

/-- The steps of the restore until one of them fails. -/
def failedSteps (l : Layout) (stamp : List Char) (w : World Content Data) : Failure Content Data → Failed Content Data
  | .stop => ⟨w, none, false⟩
  | .move => ⟨w, if (w.fs l.backend).isSome then some (l.movedRoot stamp) else none, false⟩
  | .later left =>
    if (w.fs l.backend).isSome then
      -- the preservation path exists already
      if (w.fs (l.movedRoot stamp)).isSome then ⟨w, some (l.movedRoot stamp), false⟩
      else
        let moved := move w.fs l.root (l.movedRoot stamp)
        ⟨⟨graft left.fs (l.movedRoot stamp) (below moved (l.movedRoot stamp)), left.db⟩, some (l.movedRoot stamp), true⟩
    else ⟨left, none, false⟩

/-- Which of the commands of the rollback succeed. -/
structure Commands where
  stop : Bool
  sudoers : Bool
  start : Bool
  verify : Bool

structure Result where
  rollbackPerformed : Bool
  rollbackTreeRestored : Bool
  rollbackHostPathsRestored : Bool
  rollbackDatabases : List Database

/-- The tree phase: the files, whether a preserved tree was put in place, and whether the original tree is unavailable. -/
def rollbackTree (l : Layout) (failedRoot : Path) (movedRoot : Option Path) (t : Files Content) : Files Content × Bool × Bool :=
  let t := if (t l.root).isSome then move (remove t failedRoot) l.root failedRoot else t
  match movedRoot with
  | none => (t, false, (t l.root).isNone)
  | some moved => if (t moved).isSome then (move t moved l.root, true, false) else (t, false, (t l.root).isNone)

/-- Every database of the snapshot is dropped, created and restored from its dump. -/
def restoreDatabases (db : Database → Option Data) (databases : List (Database × Data)) : Database → Option Data :=
  databases.foldl (fun db row => Function.update db row.1 (some row.2)) db

/-- `rollback_failed_restore`. -/
def rollbackFailedRestore (l : Layout) (stamp : List Char) (commands : Commands) (movedRoot : Option Path) (snapshot : Snapshot Content Data) (w : World Content Data) :
    World Content Data × Result :=
  if !commands.stop then (w, ⟨false, false, false, []⟩)
  else
    let (t, restored, lost) := rollbackTree l (l.failedRoot stamp) movedRoot w.fs
    let (t, host) := restoreHostPaths t snapshot.hostPaths
    if !host || (!snapshot.hostPaths.isEmpty && !commands.sudoers) then (⟨t, w.db⟩, ⟨false, restored, false, []⟩)
    else
      let db := restoreDatabases w.db snapshot.databases
      let databases := snapshot.databases.map Prod.fst
      if lost || !commands.start || !commands.verify then (⟨t, db⟩, ⟨false, restored, true, databases⟩)
      else (⟨remove t (l.failedRoot stamp), db⟩, ⟨true, restored, true, databases⟩)

/-- `operation_restore_backup` from the snapshot on, where it fails: what is left, what is reported, and whether the job had preserved the tree. -/
def failedRestore (l : Layout) (stamp stamp' : List Char) (failure : Failure Content Data) (commands : Commands) (snapshot : Snapshot Content Data) (w : World Content Data) :
    World Content Data × Result × Bool :=
  let failed := failedSteps l stamp w failure
  let (left, result) := rollbackFailedRestore l stamp' commands failed.movedRoot snapshot failed.world
  (left, result, failed.preserved)

/-- A server before a restore: files are in folders, and the Tactical root has its `restore.sh`. -/
structure Server (Content Data : Type) where
  layout : Layout
  world : World Content Data
  closed : Closed world.fs
  script : (world.fs (layout.root ++ ["restore.sh".toList])).isSome

end World

end Restore

end TecTac
