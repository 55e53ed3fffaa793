import TecTac.Delegation
import TecTac.World
import TecTac.Lib.Entries

/-!
# The calls of start, the workers and the clean-up

Every call of `start` is in one of its stages: before it looks for an earlier schedule, before it reads the runs of the one it found, before the
transaction that creates the schedule and the run, inside `_queue_run`, before it deletes the schedule of a run that could not be queued, or at its
end. The calls of all processes, the workers that execute the runs and the ticks that clean up take their steps in any order, and a process may be
lost between two of its steps. The rows that other code keeps (the grants, the modules, the endpoints) are read anew by each call.
-/

namespace TecTac

namespace Delegation

/-- What is fixed: the secret of the server, how a digest is written as a UUID, and the timeouts of the actions. -/
structure Core where
  mac : Mac
  uuid : Json → String
  timeouts : String → Option Nat

/-- Where a call of `start` stands. `phase` is the phase of `_queue_run`; `made` is the schedule when the call created the run. -/
inductive Stage where
  | looking
  | found (existing : ScheduleRow)
  | creating
  | queueing (run : Nat) (phase : DispatchPhase) (made : Option String)
  | deleting (run : Nat) (schedule : String)
  | returned (run : Nat)
  | raised
  deriving DecidableEq

structure Call where
  order : Order
  stage : Stage

/-- The ticket of a call. -/
def Call.ticket (c : Call) : List (String × Json) := c.order.body

/-- The schedules and the runs that `start` made, and the calls of `start`. The last two fields are history: every id that a schedule got, and for each
ticket the runs that a call with it created or found. -/
structure System where
  schedules : List ScheduleRow
  runs : List RunSys
  calls : List Call
  given : List String
  uses : List (List (String × Json) × Nat)

/-- How a step of a call ends: it works, or it raises, in which case the write of the failed run may be lost. The texts are the ids that a step gives. -/
structure Fate where
  raises : Option Exc := none
  written : Bool := true
  scheduleId : String := ""
  runId : String := ""
  taskId : String := ""

/-- One step of one process. A clean-up tick takes the schedules one after the other; `lag` is how long ago it took its `now`. -/
inductive Act where
  | start (c : StartCall) (grants : List Grant)
  | advance (call : Nat) (fate : Fate)
  | lose (call : Nat)
  | run (i : Nat) (a : RunAct)
  | cleanup (lag onceRetentionHours : Nat) (schedule : String)

namespace System

/-- Nothing was started. -/
def fresh : System := ⟨[], [], [], [], []⟩

/-- A call moves on. -/
def move (s : System) (k : Nat) (call : Call) (stage : Stage) : System := { s with calls := s.calls.set k { call with stage := stage } }

/-- A run row is written. -/
def setRun (s : System) (i : Nat) (f : RunSys → RunSys) : System := { s with runs := s.runs.modify i f }

/-- `filter(owner_module=..., owner_key=...).first()`. -/
def findSchedule (s : System) (ownerModule ownerKey : String) : Option ScheduleRow :=
  s.schedules.find? fun e => e.ownerModule == ownerModule && e.ownerKey == ownerKey

/-- The numbers of the runs of a schedule. -/
def runsOf (s : System) (id : String) : List Nat :=
  (List.range s.runs.length).filter fun i => (s.runs[i]?).any fun r => r.row.schedule == some id

/-- `order_by("-created_at").first()`. -/
def newestRun (s : System) (id : String) : Option Nat :=
  let createdAt (i : Nat) : Int := ((s.runs[i]?).map fun r => r.row.createdAt).getD 0
  Entries.best (fun i j => decide (createdAt j < createdAt i)) (s.runsOf id)

/-- `schedule.delete()`: the runs of the schedule stay, without it. -/
def deleteSchedule (s : System) (id : String) : System :=
  { s with
    schedules := s.schedules.filter fun e => e.id != id
    runs := s.runs.map fun r => if r.row.schedule = some id then { r with row := { r.row with schedule := none } } else r }

/-! ## The steps of start -/

/-- The lookup of an earlier schedule with the call key. -/
def look (core : Core) (s : System) (k : Nat) (call : Call) : System :=
  match s.findSchedule call.order.caller (call.order.ownerKey core.uuid) with
  | none => s.move k call .creating
  | some existing => if call.order.sameEndpoints existing then s.move k call (.found existing) else s.move k call .raised

/-- The earlier run is the answer; one that was never handed to the queue is queued now. -/
def readRuns (s : System) (k : Nat) (call : Call) (existing : ScheduleRow) : System :=
  match s.newestRun existing.id with
  | none => s.move k call .creating
  | some i =>
    let s' := { s with uses := s.uses ++ [(call.ticket, i)] }
    if (s.runs[i]?).any fun r => r.row.status == .queued && r.row.celeryTaskId == "" then s'.move k call (.queueing i .sending none)
    else s'.move k call (.returned i)

/-- The transaction. An owner key is unique in the table, and so is an id, which `uuid4` never gives twice. -/
def create (core : Core) (clock : Int) (s : System) (k : Nat) (call : Call) (fate : Fate) : System :=
  if (s.findSchedule call.order.caller (call.order.ownerKey core.uuid)).isSome || s.given.contains fate.scheduleId then s.move k call .raised
  else
    ({ s with
      schedules := s.schedules ++ [call.order.schedule core.mac core.uuid fate.scheduleId clock]
      runs := s.runs ++ [{ row := call.order.run core.mac core.uuid fate.scheduleId fate.runId clock, dispatch := .idle }]
      given := fate.scheduleId :: s.given
      uses := s.uses ++ [(call.ticket, s.runs.length)] } : System).move k call (.queueing s.runs.length .sending (some fate.scheduleId))

/-- A step of `_queue_run` that works. -/
def queue (s : System) (k : Nat) (call : Call) (i : Nat) (made : Option String) (taskId : String) : DispatchPhase → System
  | .sending => (s.setRun i fun r => { r with messages := r.messages ++ [0] }).move k call (.queueing i .accepted made)
  | .accepted => (s.setRun i fun r => { r with row := { r.row with celeryTaskId := taskId } }).move k call (.queueing i .recorded made)
  | .recorded | .idle => s.move k call (.returned i)

/-- A step of `_queue_run` that raises. -/
def queueFails (clock : Int) (s : System) (k : Nat) (call : Call) (i : Nat) (made : Option String) (e : Exc) (written : Bool) : System :=
  let s' := if written then s.setRun i fun r => { r with row := r.row.queueRunFailed clock e } else s
  match made with
  | some id => s'.move k call (.deleting i id)
  | none => s'.move k call .raised

/-- One step of `start`. -/
def advance (core : Core) (clock : Int) (s : System) (k : Nat) (call : Call) (fate : Fate) : System :=
  match call.stage, fate.raises with
  | .looking, none => look core s k call
  | .found existing, none => readRuns s k call existing
  | .creating, none => create core clock s k call fate
  | .queueing i phase made, none => queue s k call i made fate.taskId phase
  | .queueing i _ made, some e => queueFails clock s k call i made e fate.written
  | .deleting _ id, none => (s.deleteSchedule id).move k call .raised
  | .looking, some _ | .found _, some _ | .creating, some _ | .deleting _ _, some _ => s.move k call .raised
  | .returned _, _ | .raised, _ => s

/-! ## The clean-up -/

/-- `max(1, min(int(config.once_retention_hours or 48), 720))`. -/
def retentionHours (configured : Nat) : Nat := max 1 (min (if configured = 0 then 48 else configured) 720)

/-- `timedelta(hours=n)`. -/
def hours (n : Nat) : Int := n * 3600000000

/-- The order `("-finished_at", "-created_at")`, in which a run that is not finished comes first. -/
def laterRow (a b : RunRow) : Bool :=
  match a.finishedAt, b.finishedAt with
  | none, some _ => true
  | some _, none => false
  | none, none => decide (b.createdAt < a.createdAt)
  | some x, some y => decide (y < x ∨ y = x ∧ b.createdAt < a.createdAt)

/-- `order_by("-finished_at", "-created_at").first()`. -/
def latestRow (s : System) (id : String) : Option RunRow :=
  Entries.best laterRow ((s.runsOf id).filterMap fun i => (s.runs[i]?).map fun r => r.row)

/-- The condition of `cleanup_once_schedules` on a schedule. -/
def cleanable (s : System) (now : Int) (configured : Nat) (e : ScheduleRow) : Bool :=
  e.scheduleType == .once && !e.enabled && !((s.runsOf e.id).any fun i => (s.runs[i]?).any fun r => r.row.status.active) &&
    let terminalAt := (((s.latestRow e.id).bind fun row => row.finishedAt) <|> e.lastRunAt <|> e.runAt).getD e.updatedAt
    decide (terminalAt ≤ now - hours (retentionHours configured))

/-- The turn of a schedule in `cleanup_once_schedules`. -/
def cleanup (s : System) (now : Int) (configured : Nat) (id : String) : System :=
  if s.schedules.any fun e => e.id == id && s.cleanable now configured e then s.deleteSchedule id else s

/-! ## Steps -/

/-- A step of the workers and of the recovery. The end of a run saves its schedule. -/
def runStep (core : Core) (clock : Int) (s : System) (i : Nat) (a : RunAct) : System :=
  match s.runs[i]? with
  | none => s
  | some r =>
    let saved := (r.act core.timeouts clock a).2
    { s.setRun i fun r => (r.act core.timeouts clock a).1 with
      schedules := if saved then s.schedules.map fun e =>
          if r.row.schedule = some e.id then { e with lastRunAt := some clock, updatedAt := clock } else e
        else s.schedules }

def step (core : Core) (clock : Int) : Act → System → System
  | .start c grants, s =>
    match c.prepare core.mac clock grants with
    | .ok order => { s with calls := s.calls ++ [⟨order, .looking⟩] }
    | .error _ => s
  | .advance k fate, s =>
    match s.calls[k]? with
    | some call => advance core clock s k call fate
    | none => s
  | .lose k, s =>
    match s.calls[k]? with
    | some call => match call.stage with
      | .returned _ | .raised => s
      | _ => s.move k call .raised
    | none => s
  -- the forced delete of a schedule is not one of these steps
  | .run i a, s => match a with
    | .forceDelete => s
    | _ => runStep core clock s i a
  | .cleanup lag configured id, s => s.cleanup (clock - lag) configured id

end System

end Delegation

end TecTac
