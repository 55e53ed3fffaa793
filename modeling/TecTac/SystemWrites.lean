import TecTac.AuditRecord
import TecTac.Lib.Ranges

/-!
# System writes

The group of a system write (`system_writes.py`): Core reads the decisions of its updates, writes strict audit rows, and then saves the decisions under row locks in one
transaction. Between two steps other writers may change or delete any row that is not locked; a change to a locked row waits, and is one of the changes after the commit.
Every read, every row that is written, every save and the commit may raise. The serializer of Tactical saves the row as it was read, with the decision in its column.
-/

namespace TecTac

namespace SystemWrites

variable {Columns : Type}

def auditChunk : Nat := 500
def readBlock : Nat := 5000

/-- An update row: the decision and the other columns. -/
structure UpdateRow (Columns : Type) where
  action : Option String
  columns : Columns
  deriving DecidableEq

/-- `str(row.action)`. -/
def UpdateRow.text (row : UpdateRow Columns) : String := row.action.getD "None"

/-- The decisions of a call: each update once. -/
structure Decisions where
  actions : List (Nat × String)
  nodup : (actions.map Prod.fst).Nodup

/-- `sorted(decisions)`. -/
def Decisions.items (decisions : Decisions) : List Nat := (decisions.actions.map Prod.fst).insertionSort (· ≤ ·)

/-- The groups of a call. -/
def Decisions.groups (decisions : Decisions) (size : Nat) : List (List Nat) := Ranges.cut size decisions.items

/-! ## The rows and who writes them -/

/-- Tactical's update rows. -/
abbrev Store (Columns : Type) := Nat → Option (UpdateRow Columns)

def Store.set (store : Store Columns) (id : Nat) (row : Option (UpdateRow Columns)) : Store Columns := fun n => if n = id then row else store n

/-- A row that is saved: as it was read, and the decision that is put into its column. -/
structure Save (Columns : Type) where
  id : Nat
  row : UpdateRow Columns
  after : String

/-- What becomes durable. -/
inductive Event (Columns : Type) where
  | other (id : Nat) (row : Option (UpdateRow Columns))
  | audited (row : Audit.StoredRow)
  | committed (saves : List (Save Columns))

def Save.apply (store : Store Columns) (save : Save Columns) : Store Columns := store.set save.id (some { save.row with action := some save.after })

def Event.apply (store : Store Columns) : Event Columns → Store Columns
  | .other id row => store.set id row
  | .audited _ => store
  | .committed saves => saves.foldl Save.apply store

/-- The rows after some events. -/
def replay (store : Store Columns) (events : List (Event Columns)) : Store Columns := events.foldl Event.apply store

/-- A step of Core that may raise. -/
inductive Step where
  | read (block : List Nat)
  | audit (part : Nat)
  | lock (block : List Nat)
  | save (id : Nat)
  | commit
  deriving DecidableEq

/-- What other writers do before each step of Core, and which steps raise. -/
structure World (Columns : Type) where
  others : Nat → List (Nat × Option (UpdateRow Columns))
  raises : Step → Bool

/-- The rows now, what happened so far, and how many steps were taken. -/
structure State (Columns : Type) where
  store : Store Columns
  history : List (Event Columns)
  clock : Nat

def State.perform (s : State Columns) (e : Event Columns) : State Columns := { s with store := e.apply s.store, history := s.history ++ [e] }

/-- Other writers act on the rows that are not locked. -/
def State.elapse (s : State Columns) (world : World Columns) (locked : List Nat) : State Columns :=
  let changes := (world.others s.clock).filter fun change => decide (change.1 ∉ locked)
  changes.foldl (fun s change => s.perform (.other change.1 change.2)) { s with clock := s.clock + 1 }

/-! ## The plan -/

/-- `_read_actions`, block by block. -/
def readActions (world : World Columns) : List (List Nat) → List (Nat × String) → State Columns → Option (List (Nat × String)) × State Columns
  | [], found, s => (some found, s)
  | block :: rest, found, s =>
    let s := s.elapse world []
    if world.raises (.read block) then (none, s)
    else readActions world rest (found ++ block.filterMap fun id => (s.store id).map fun row => (id, row.text)) s

/-- A planned change: the update, its decision before and after. -/
abbrev Planned := Nat × String × String

structure Plan where
  write : List Planned
  same : List Nat
  vanished : List Nat
  deriving DecidableEq

/-- One update of the plan; an update without a decision is a `KeyError`. -/
def planUpdate (found : List (Nat × String)) (decisions : List (Nat × String)) (plan : Plan) (id : Nat) : Option Plan :=
  match Dict.get id found with
  | none => some { plan with vanished := plan.vanished ++ [id] }
  | some before =>
    match Dict.get id decisions with
    | none => none
    | some after => if before = after then some { plan with same := plan.same ++ [id] } else some { plan with write := plan.write ++ [(id, before, after)] }

/-- `plan_group`. -/
def planGroup (world : World Columns) (group : List Nat) (decisions : List (Nat × String)) (s : State Columns) : Option Plan × State Columns :=
  let (found, s) := readActions world (Ranges.cut readBlock group) [] s
  (found.bind fun found => group.foldlM (planUpdate found decisions) ⟨[], [], []⟩, s)

/-! ## The strict audit rows -/

/-- What a row of the run says, but for its part: the limit of the audit log and its texts, the owner of the run, and the fields of `_meta`. -/
structure AuditContext where
  limit : Int
  texts : Audit.Texts
  fresh : String
  coreVersion : String
  owner : String
  definitionId : String
  fields : List (String × JsonValue)
  index : Nat
  groupsTotal : Nat

/-- `[n, b, a]`. -/
def line (planned : Planned) : JsonValue := .list [.num planned.1, .str planned.2.1, .str planned.2.2]

/-- The metadata of a part. -/
def AuditContext.metadata (context : AuditContext) (part parts : Nat) (chunk : List Planned) : List (String × JsonValue) :=
  Dict.set "changes" (.list (chunk.map line)) (Dict.set "change_count" (.num chunk.length) (Dict.set "parts" (.num parts) (Dict.set "part" (.num part)
    (Dict.set "phase" (.str "before_write") context.fields))))

/-- The call that records a part. -/
def AuditContext.call (context : AuditContext) (part parts : Nat) (chunk : List Planned) : Audit.RowCall where
  moduleId := "core"
  moduleVersion := context.coreVersion
  actor := .human context.owner none none
  action := "run"
  objectType := "system_action"
  objectId := some context.definitionId
  message := some ("A scheduled write of " ++ toString chunk.length ++ " Windows update decision(s) is being made in Tactical (group " ++ toString context.index ++ " of " ++
    toString context.groupsTotal ++ ", part " ++ toString part ++ " of " ++ toString parts ++ "). Each line holds the update, the decision before and the decision after.")
  before := .null
  after := .null
  metadata := .dict (context.metadata part parts chunk)
  correlationId := .null

/-- The row of a part as it is stored. -/
def AuditContext.row (context : AuditContext) (part parts : Nat) (chunk : List Planned) : Except Audit.ContractError Audit.StoredRow :=
  (Audit.Writer.record .null).write context.limit context.texts context.fresh (context.call part parts chunk)

/-- `write_audit_rows`: whether every row was written. -/
def writeAuditRows (world : World Columns) (context : AuditContext) (parts : Nat) : List (Nat × List Planned) → State Columns → Bool × State Columns
  | [], s => (true, s)
  | (part, chunk) :: rest, s =>
    let s := s.elapse world []
    match context.row part parts chunk with
    | .error _ => (false, s)
    | .ok row => if world.raises (.audit part) then (false, s) else writeAuditRows world context parts rest (s.perform (.audited row))

/-- The parts of a plan, numbered from one. -/
def Plan.parts (plan : Plan) : List (Nat × List Planned) :=
  let chunks := Ranges.cut auditChunk plan.write
  (List.range' 1 chunks.length).zip chunks

/-! ## The write -/

/-- The rows of a block, locked from here on. -/
def lockRows (world : World Columns) : List (List Nat) → List (Nat × UpdateRow Columns) → State Columns → Option (List (Nat × UpdateRow Columns)) × State Columns
  | [], rows, s => (some rows, s)
  | block :: rest, rows, s =>
    let s := s.elapse world (rows.map Prod.fst)
    if world.raises (.lock block) then (none, s)
    else lockRows world rest (rows ++ block.filterMap fun id => (s.store id).map fun row => (id, row)) s

/-- What `_write_locked` did with each update. -/
structure Written (Columns : Type) where
  saved : List (Save Columns)
  changed : List Nat
  vanished : List Nat

/-- Save the rows whose decision is still the one that was read. -/
def saveRows (world : World Columns) (wanted : List Planned) (rows : List (Nat × UpdateRow Columns)) :
    List Nat → Written Columns → State Columns → Option (Written Columns) × State Columns
  | [], written, s => (some written, s)
  | id :: rest, written, s =>
    let s := s.elapse world (rows.map Prod.fst)
    match Dict.get id rows, Dict.get id wanted with
    | some row, some (before, after) =>
      if row.text ≠ before then saveRows world wanted rows rest { written with changed := written.changed ++ [id] } s
      else if world.raises (.save id) then (none, s)
      else saveRows world wanted rows rest { written with saved := written.saved ++ [⟨id, row, after⟩] } s
    | _, _ => saveRows world wanted rows rest { written with vanished := written.vanished ++ [id] } s

/-- The end of the transaction. -/
def commit (world : World Columns) (rows : List (Nat × UpdateRow Columns)) (written : Written Columns) (s : State Columns) : Option (Written Columns) × State Columns :=
  let s := s.elapse world (rows.map Prod.fst)
  if world.raises .commit then (none, s) else (some written, s.perform (.committed written.saved))

/-- `_write_locked`. -/
def writeLocked (world : World Columns) (write : List Planned) (s : State Columns) : Option (Written Columns) × State Columns :=
  let ids := (write.map Prod.fst).insertionSort (· ≤ ·)
  match lockRows world (Ranges.cut readBlock ids) [] s with
  | (none, s) => (none, s)
  | (some rows, s) =>
    match saveRows world write rows ids ⟨[], [], []⟩ s with
    | (none, s) => (none, s)
    | (some written, s) => commit world rows written s

/-- The counts of a group. -/
structure Outcome where
  written : Nat
  unchanged : Nat
  changedMeanwhile : Nat
  vanished : Nat
  deriving DecidableEq

/-- The outcome of a plan and what was written of it. -/
def outcomeOf (plan : Plan) (written : Written Columns) : Outcome :=
  ⟨written.saved.length, plan.same.length, written.changed.length, plan.vanished.length + written.vanished.length⟩

/-- `apply_group`. -/
def applyGroup (world : World Columns) (plan : Plan) (s : State Columns) : Option Outcome × State Columns :=
  if plan.write = [] then (some (outcomeOf plan (⟨[], [], []⟩ : Written Columns)), s)
  else
    let (written, s) := writeLocked world plan.write s
    (written.map (outcomeOf plan), s)

/-- How a group ends: nothing was written, or it is not known, or it was written. -/
inductive GroupResult where
  | aborted
  | unknown
  | written (outcome : Outcome)
  deriving DecidableEq

/-- `_write_group`. -/
def writeGroup (world : World Columns) (context : AuditContext) (group : List Nat) (decisions : List (Nat × String)) (s : State Columns) : GroupResult × State Columns :=
  match planGroup world group decisions s with
  | (none, s) => (.aborted, s)
  | (some plan, s) =>
    match writeAuditRows world context plan.parts.length plan.parts s with
    | (false, s) => (.aborted, s)
    | (true, s) =>
      match applyGroup world plan s with
      | (none, s) => (.unknown, s)
      | (some outcome, s) => (.written outcome, s)

end SystemWrites

end TecTac
