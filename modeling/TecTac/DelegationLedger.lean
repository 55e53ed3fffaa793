import TecTac.DelegationSystem

/-!
# The grants, the tickets and the runs

The calls of `delegation.py` one after the other: a person's request asks for a confirmation and registers a grant, a module removes one, a live run
gets a ticket, a ticket starts a run, and workers go on with the runs. Every text that Core signs is kept as history, and so is every call that changed
something, in the order in which they came.
-/

namespace TecTac

namespace Delegation

/-- A call that changed something: a grant was registered (with the call, the person and the grant as it was saved) or removed, a ticket was issued for
it, or a run was started, with its number and the schedule it got. -/
inductive Entry where
  | registered (c : RegisterCall) (person : Person) (g : Grant)
  | removed (g : Grant)
  | ticketed (g : Grant) (body : List (String × Json))
  | started (g : Grant) (run : Nat) (schedule : ScheduleRow)

/-- The grant of an entry. -/
def Entry.grant : Entry → Grant
  | .registered _ _ g | .removed g | .ticketed g _ | .started g _ _ => g

/-- The entry registers or removes the grant. -/
def Entry.edits (ownerModule grantKey : String) : Entry → Prop
  | .registered _ _ g | .removed g => g.ownerModule = ownerModule ∧ g.grantKey = grantKey
  | _ => False

/-- The tables of delegation. The last three fields are history: every key that a grant or a schedule got, every prefix and payload that Core signed, and
the calls. -/
structure Ledger where
  grants : List Grant
  schedules : List ScheduleRow
  runs : List DelegatedRun
  given : List String
  signed : List (String × Json)
  log : List Entry

/-- What a start is given from outside: the ids of its rows, whether its audit row can be written and the run can be queued, and the id of the task. -/
structure StartFate where
  scheduleId : String
  runId : String
  audit : Bool := true
  queued : Bool := true
  taskId : String := ""
  failure : Exc := ⟨.other, "OperationalError", ""⟩

/-- One call. `judge` asks `run_is_validly_delegated` of any run; `delete` deletes a schedule, as the clean-up does. -/
inductive Step where
  | describe (a : Asked)
  | register (c : RegisterCall)
  | remove (env : Env) (ownerModule grantKey : String)
  | issueTicket (env : Env) (run : Option (String × String)) (grantKey : String)
  | start (c : StartCall) (fate : StartFate)
  | run (i : Nat) (a : RunAct)
  | judge (r : DelegatedRun)
  | delete (schedule : String)

namespace Ledger

def fresh : Ledger := ⟨[], [], [], [], [], []⟩

/-- Core signs a body. -/
def sign (s : Ledger) (p : Purpose) (body : List (String × Json)) : Ledger := { s with signed := s.signed ++ [(p.bytes, .obj body)] }

def note (s : Ledger) (entry : Entry) : Ledger := { s with log := s.log ++ [entry] }

/-- `filter(owner_module=..., owner_key=...).first()`. -/
def findSchedule (s : Ledger) (ownerModule ownerKey : String) : Option ScheduleRow :=
  s.schedules.find? fun e => e.ownerModule == ownerModule && e.ownerKey == ownerKey

/-- The grant that `register` saves; a new row has a key that `uuid4` never gave. -/
def register (core : Core) (clock : Int) (c : RegisterCall) (s : Ledger) : Ledger :=
  match c.person, c.register core.mac clock s.grants with
  | some person, .ok g =>
    if (findGrant c.ownerModule c.grantKey s.grants).isNone && s.given.contains c.newPk then s
    else { s with grants := saveGrant g s.grants, given := g.pk :: s.given }.note (.registered c person g)
  | _, _ => s

def remove (env : Env) (ownerModule grantKey : String) (s : Ledger) : Ledger :=
  match Delegation.remove env ownerModule grantKey s.grants with
  | .ok (some g) => { s with grants := s.grants.filter fun old => old.pk != g.pk }.note (.removed g)
  | _ => s

def issueTicket (clock : Int) (env : Env) (run : Option (String × String)) (grantKey : String) (s : Ledger) : Ledger :=
  match Delegation.issueTicket clock env run grantKey s.grants with
  | .ok (g, body) => (s.sign .ticket body).note (.ticketed g body)
  | .error _ => s

/-- The rows that a start creates. The marker is signed for the schedule; a run that cannot be queued is failed and its schedule deleted. -/
def create (core : Core) (clock : Int) (o : Order) (fate : StartFate) (s : Ledger) : Ledger :=
  let schedule := o.schedule core.mac core.uuid fate.scheduleId clock
  let row := o.run core.mac core.uuid fate.scheduleId fate.runId clock
  let queued : RunSys := { row := { row with celeryTaskId := fate.taskId }, dispatch := .idle, messages := [0] }
  let failed : RunSys := { row := { row.queueRunFailed clock fate.failure with schedule := none }, dispatch := .idle }
  let s' : Ledger := { s with
    schedules := if fate.queued then s.schedules ++ [schedule] else s.schedules
    runs := s.runs ++ [⟨fate.scheduleId, if fate.queued then queued else failed⟩]
    given := fate.scheduleId :: s.given }
  (s'.sign .marker (Order.markerBody fate.scheduleId o.grant)).note (.started o.grant s.runs.length schedule)

/-- The number of the newest run of a schedule. -/
def newestRun (s : Ledger) (id : String) : Option Nat :=
  let createdAt (i : Nat) : Int := ((s.runs[i]?).map fun r => r.sys.row.createdAt).getD 0
  Entries.best (fun i j => decide (createdAt j < createdAt i))
    ((List.range s.runs.length).filter fun i => (s.runs[i]?).any fun r => r.sys.row.schedule == some id)

def setRun (s : Ledger) (i : Nat) (f : RunSys → RunSys) : Ledger := { s with runs := s.runs.modify i fun r => { r with sys := f r.sys } }

/-- The earlier run of a ticket is the answer; one that was never handed to the queue is queued now. -/
def answer (clock : Int) (o : Order) (fate : StartFate) (existing : ScheduleRow) (s : Ledger) : Ledger :=
  if !o.sameEndpoints existing then s
  else
    match s.newestRun existing.id with
    | none => s
    | some i => s.setRun i fun r =>
      if r.row.status = .queued ∧ r.row.celeryTaskId = "" then
        if fate.queued then { r with row := { r.row with celeryTaskId := fate.taskId }, messages := r.messages ++ [0] }
        else { r with row := r.row.queueRunFailed clock fate.failure }
      else r

/-- `start`. An owner key is unique in the table of the schedules. -/
def start (core : Core) (clock : Int) (c : StartCall) (fate : StartFate) (s : Ledger) : Ledger :=
  match c.prepare core.mac clock s.grants with
  | .error _ => s
  | .ok o =>
    match s.findSchedule o.caller (o.ownerKey core.uuid) with
    | some existing => s.answer clock o fate existing
    | none => if fate.audit && !s.given.contains fate.scheduleId then s.create core clock o fate else s

def step (core : Core) (clock : Int) : Step → Ledger → Ledger
  | .describe a, s =>
    match a.describe clock with
    | .ok body => s.sign .confirmation body
    | .error _ => s
  | .register c, s => s.register core clock c
  | .remove env ownerModule grantKey, s => s.remove env ownerModule grantKey
  | .issueTicket env run grantKey, s => s.issueTicket clock env run grantKey
  | .start c fate, s => s.start core clock c fate
  -- the forced delete of a schedule is not one of these steps
  | .run i a, s => match a with
    | .forceDelete => s
    | _ => s.setRun i fun r => (r.act core.timeouts clock a).1
  | .judge _, s => s
  | .delete id, s =>
    { s with
      schedules := s.schedules.filter fun e => e.id != id
      runs := s.runs.map fun r => if r.sys.row.schedule = some id then { r with sys := { r.sys with row := { r.sys.row with schedule := none } } } else r }

end Ledger

/-- The token that a step presents. -/
def Step.presents : Step → Presented
  | .register c => c.confirmationId
  | .start c _ => c.ticket
  | .judge r => Order.presented ((Dict.get markerKey (dictOf r.sys.row.parametersSnapshot)).getD .null)
  | _ => .missing

end Delegation

end TecTac
