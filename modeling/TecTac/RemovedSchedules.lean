import TecTac.ScheduleWriters
import TecTac.Visibility

/-!
# Schedules that an administrator removed

The schedules, and the owners and keys of those that an administrator removed (`TecTacRemovedSchedule`), with everything that adds a schedule, deletes one or
changes what is remembered. Every call is one transaction, and the calls come one after the other. The checks of a person, the audit row and the runs of a
schedule answer from outside. The call for all schedules of a module does to each what the call for one does.
-/

namespace TecTac.RemovedSchedules

/-- The owner module and the owner key of a schedule. -/
def ownerOf (row : ScheduleRow) : String × String := (row.ownerModule, row.ownerKey)

structure Shelf where
  rows : List ScheduleRow
  removed : List (String × String)

def empty : Shelf := ⟨[], []⟩

/-- The schedule of an owner and a key. -/
def rowOf (owner : String × String) (rows : List ScheduleRow) : Option ScheduleRow :=
  rows.find? fun row => row.ownerModule == owner.1 && row.ownerKey == owner.2

/-- `schedule.delete()`. -/
def deleteRow (id : String) (rows : List ScheduleRow) : List ScheduleRow := rows.filter fun row => decide (row.id ≠ id)

/-- `enabled = False`, saved. -/
def switchRowOff (now : Int) (row : ScheduleRow) (rows : List ScheduleRow) : List ScheduleRow :=
  ScheduleTable.replace { row with enabled := false, updatedAt := now } rows

/-- `remember_removed_schedule`. -/
def remember (row : ScheduleRow) (removed : List (String × String)) : List (String × String) :=
  if row.ownerType ≠ .module ∨ row.ownerModule = "" ∨ row.ownerKey = "" ∨ removed.contains (ownerOf row) then removed else removed ++ [ownerOf row]

/-- `_clear_removed_marker`. -/
def clearRemoved (owner : String × String) (removed : List (String × String)) : List (String × String) := removed.filter fun o => decide (o ≠ owner)

/-! ## What an administrator does -/

inductive Mode where
  | disable | remove
  deriving DecidableEq

/-- `_orphan_apply`. -/
def orphanApply (now : Int) (mode : Mode) (s : Shelf) (row : ScheduleRow) : Shelf :=
  match mode with
  | .disable => { s with rows := switchRowOff now row s.rows }
  | .remove => ⟨deleteRow row.id s.rows, remember row s.removed⟩

/-- What an administrator's call reads: which modules are installed, whose targets the person's scope covers, which schedules have a queued or running run,
and whether the audit row could be written. -/
structure OrphanCall where
  visibility : ScheduleVisibility
  mode : Mode
  inScope : ScheduleRow → Bool
  busy : ScheduleRow → Bool
  audited : Bool

/-- `_OrphanSingleView._run`, for a scheduler manager. -/
def orphanSingle (now : Int) (c : OrphanCall) (id : String) (s : Shelf) : Shelf :=
  match ScheduleTable.byId id s.rows with
  | none => s
  | some row => if c.visibility.orphanModuleOf row.moduleId row.ownerModule row.ownerType = "" ∨ c.inScope row = false ∨ c.busy row ∨ c.audited = false then s else orphanApply now c.mode s row

/-! ## What a module does -/

/-- `reconcile_schedule`. A person's call that saved the schedule forgets the removal in the same transaction. -/
def reconcile (now : Int) (env : Env) (args : ReconcileArgs) (request : Option (Except Raised Person)) (id : String) (fault : Option Raised) (s : Shelf) : Shelf :=
  match reconcileOwner env args with
  | .error _ => s
  | .ok o =>
    let existing := rowOf (o.module, o.key) s.rows
    match (reconcileRow env now fault args o request (s.removed.contains (o.module, o.key)) id existing).saved with
    | none => s
    | some row =>
      if existing.isNone ∧ row.id ∈ s.rows.map (·.id) then s
      else ⟨ScheduleTable.write existing (some row) s.rows, if request.isSome then clearRemoved (o.module, o.key) s.removed else s.removed⟩

/-- `disable_owned_schedule`. -/
def disableOwned (now : Int) (rt : Runtime) (ownerModule ownerKey : Value) (s : Shelf) : Shelf :=
  match validateOwner rt ownerModule ownerKey with
  | .error _ => s
  | .ok owner =>
    let rows :=
      match rowOf owner s.rows with
      | none => s.rows
      | some row => if row.enabled then switchRowOff now row s.rows else s.rows
    ⟨rows, clearRemoved owner s.removed⟩

/-- `remove_owned_schedule`, which raises while a run is queued or running. -/
def removeOwned (rt : Runtime) (ownerModule ownerKey : Value) (busy : ScheduleRow → Bool) (s : Shelf) : Shelf :=
  match validateOwner rt ownerModule ownerKey with
  | .error _ => s
  | .ok owner =>
    match rowOf owner s.rows with
    | none => { s with removed := clearRemoved owner s.removed }
    | some row => if busy row then s else ⟨deleteRow row.id s.rows, clearRemoved owner s.removed⟩

/-! ## Runs -/

/-- `add` is a schedule that a person makes, which has no owner module, or one that Core makes for a one-off run, whose key has a prefix of its own. `save`
stands for a person's edit, the ticks and the workers, which save a row and leave its id and its owner, and `delete` for a person's delete and the clean-up. -/
inductive Event where
  | reconcile (env : Env) (args : ReconcileArgs) (request : Option (Except Raised Person)) (id : String) (fault : Option Raised)
  | disableOwned (rt : Runtime) (ownerModule ownerKey : Value)
  | removeOwned (rt : Runtime) (ownerModule ownerKey : Value) (busy : ScheduleRow → Bool)
  | orphanSingle (c : OrphanCall) (id : String)
  | add (row : ScheduleRow)
  | save (id : String) (f : ScheduleRow → ScheduleRow)
  | delete (id : String)

/-- A new row is a person's, without an owner, or has the key of a one-off run. An id and an owner with its key are unique in the table. -/
def addRow (row : ScheduleRow) (rows : List ScheduleRow) : List ScheduleRow :=
  let owned := decide (row.ownerType = .module ∧ row.ownerModule ≠ "" ∧ row.ownerKey ≠ "") && isOneOffKey row.ownerKey && (rowOf (ownerOf row) rows).isNone
  if row.id ∉ rows.map (·.id) ∧ ((row.ownerType = .user ∧ ownerOf row = ("", "")) ∨ owned) then rows ++ [row] else rows

def step (now : Int) (s : Shelf) : Event → Shelf
  | .reconcile env args request id fault => reconcile now env args request id fault s
  | .disableOwned rt ownerModule ownerKey => disableOwned now rt ownerModule ownerKey s
  | .removeOwned rt ownerModule ownerKey busy => removeOwned rt ownerModule ownerKey busy s
  | .orphanSingle c id => orphanSingle now c id s
  | .add row => { s with rows := addRow row s.rows }
  | .save id f =>
    { s with rows := s.rows.map fun r =>
        if r.id = id then { f r with id := r.id, ownerType := r.ownerType, ownerModule := r.ownerModule, ownerKey := r.ownerKey } else r }
  | .delete id => { s with rows := deleteRow id s.rows }

def run (s : Shelf) (events : List (Int × Event)) : Shelf := events.foldl (fun s e => step e.1 s e.2) s

/-- The call lets the owner's module have the schedule again: a person saved it in the module, or the module itself switched it off or removed it. -/
def GivesBack (owner : String × String) (now : Int) (s : Shelf) : Event → Prop
  | .reconcile env args request id fault =>
    request.isSome ∧ ∃ o, reconcileOwner env args = .ok o ∧ (o.module, o.key) = owner ∧
      (reconcileRow env now fault args o request (s.removed.contains owner) id (rowOf owner s.rows)).saved.isSome
  | .disableOwned rt ownerModule ownerKey => validateOwner rt ownerModule ownerKey = .ok owner
  | .removeOwned rt ownerModule ownerKey _ => validateOwner rt ownerModule ownerKey = .ok owner
  | _ => False

/-- No call of a run gives the owner its schedule back. -/
def Quiet (owner : String × String) (s : Shelf) : List (Int × Event) → Prop
  | [] => True
  | e :: events => ¬ GivesBack owner e.1 s e.2 ∧ Quiet owner (step e.1 s e.2) events

end TecTac.RemovedSchedules
