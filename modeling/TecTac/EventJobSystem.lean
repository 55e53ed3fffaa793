import TecTac.EventJob
import TecTac.Lib.Timeline

/-!
# Event jobs and everything that acts on them

The table of event-job rows, and for each row the processes that are between two of their steps: the publish that has
stored the row and not yet sent its message, the workers between their claim and their finish, and the tick between a
list it took and the row it then locks. A message may be delivered again at any time and in any order, so the message of
a retry adds nothing, and one whose sending failed may have reached the broker all the same. The tick takes at most 200
rows a step, the oldest first: here it may take any row that its query returns.
-/

namespace TecTac

/-- A worker that has claimed a row: the attempt it claimed, and whether it has called the handler. -/
structure JobWorker where
  attempt : Nat
  handling : Bool := false
  deriving DecidableEq

/-- What `_tick_recover_running` keeps of a running row it listed, with the attempt the row then stood at. -/
structure Suspect where
  attempt : Nat
  startedAt : Option Int
  hardLimit : Nat
  now : Int
  deriving DecidableEq

/-- What `_tick_enqueue_overdue` keeps of a pending row it listed. -/
structure Overdue where
  row : JobRow
  now : Int
  deriving DecidableEq

/-- A row and the processes that act on it. The last two fields are history: the attempts the handler was called for,
and the attempts whose worker was lost before it called the handler. A row that was pruned is marked as deleted; it is
finished, and every writer leaves a finished row as it is. -/
structure JobSys where
  row : JobRow
  deleted : Bool := false
  unsent : Bool := true
  sent : Bool := false
  workers : List JobWorker := []
  expiring : List (ExpireCause × Int) := []
  suspects : List Suspect := []
  overdue : List Overdue := []
  invoked : List Nat := []
  unreached : List Nat := []

/-- One step of one process that acts on a row. A number selects the worker or the entry of a list. `lag` is how long
ago the worker or the tick took its `now`. -/
inductive JobAct where
  | send (accepted : Bool)
  | deliver (lag : Nat) (taskId : String) (reg : JobRegistry)
  | invoke (worker : Nat)
  | finishSuccess (worker : Nat) (result : Json)
  | finishFailure (worker : Nat) (e : JobExc) (spec : JobPolicy) (jitter : Nat)
  | lose (worker : Nat)
  | listExpired (lag : Nat)
  | listUnavailable (lag : Nat) (status : ModuleStatus)
  | expire (listed : Nat)
  | listRunning (lag : Nat)
  | recoverRunning (listed jitter : Nat)
  | listOverdue (lag : Nat)
  | enqueueOverdue (listed : Nat) (accepted : Bool)

namespace JobSys

/-- The row is in the table. -/
def live (j : JobSys) : Bool := !j.deleted

/-- A worker ends. -/
def finish (worker : Nat) (row : JobRow) (j : JobSys) : JobSys := { j with row := row, workers := j.workers.eraseIdx worker }

/-- The tick lists a pending row to end it. -/
def list (cause : ExpireCause) (now : Int) (j : JobSys) : JobSys :=
  if j.live ∧ j.row.status = .pending then { j with expiring := j.expiring ++ [(cause, now)] } else j

/-- What an action does to a row and its processes. An action of a process that is not there, or not at that point, does
nothing. -/
def act (clock : Int) : JobAct → JobSys → JobSys
  | .send accepted, j =>
    if j.unsent then
      { j with
        unsent := false
        sent := true
        row := if j.row.enqueueRow clock accepted then j.row else j.row.markNotEnqueued }
    else j
  | .deliver lag taskId reg, j =>
    if j.sent ∧ j.live then
      let c := j.row.claim (clock - lag) taskId reg
      { j with row := c.2, workers := if c.1 = .claimed then j.workers ++ [{ attempt := c.2.attempt }] else j.workers }
    else j
  | .invoke worker, j =>
    match j.workers[worker]? with
    | some { attempt := n, handling := false } =>
      { j with workers := j.workers.set worker { attempt := n, handling := true }, invoked := j.invoked ++ [n] }
    | _ => j
  | .finishSuccess worker result, j =>
    match j.workers[worker]? with
    | some { attempt := _, handling := true } => j.finish worker (j.row.finishSuccess clock result)
    | _ => j
  | .finishFailure worker e spec jitter, j =>
    match j.workers[worker]? with
    | some { attempt := _, handling := true } => j.finish worker (j.row.finishFailure clock e (some spec) jitter).1
    | _ => j
  | .lose worker, j =>
    match j.workers[worker]? with
    | some { attempt := n, handling := false } =>
      { j with workers := j.workers.eraseIdx worker, unreached := j.unreached ++ [n] }
    | some { attempt := _, handling := true } => { j with workers := j.workers.eraseIdx worker }
    | none => j
  | .listExpired lag, j => if isExpired (clock - lag) j.row.expiresAt then j.list .expired (clock - lag) else j
  | .listUnavailable lag status, j => if status = .unavailable then j.list .moduleUnavailable (clock - lag) else j
  | .expire listed, j =>
    match j.expiring[listed]? with
    | some (cause, now) => { j with expiring := j.expiring.eraseIdx listed, row := j.row.expire now cause }
    | none => j
  | .listRunning lag, j =>
    if j.live ∧ j.row.status = .running then
      { j with suspects := j.suspects ++ [⟨j.row.attempt, j.row.startedAt, j.row.hardLimit, clock - lag⟩] }
    else j
  | .recoverRunning listed jitter, j =>
    match j.suspects[listed]? with
    | some s =>
      let rest := j.suspects.eraseIdx listed
      if isStaleRunning s.now s.startedAt s.hardLimit then
        { j with suspects := rest, row := (j.row.finishFailure s.now eventJobLost none jitter).1 }
      else { j with suspects := rest }
    | none => j
  | .listOverdue lag, j =>
    if j.live ∧ j.row.status = .pending ∧ isOverduePending (clock - lag) j.row.lastEnqueuedAt j.row.nextAttemptAt then
      { j with overdue := j.overdue ++ [⟨j.row, clock - lag⟩] }
    else j
  | .enqueueOverdue listed accepted, j =>
    match j.overdue[listed]? with
    | some o =>
      let rest := j.overdue.eraseIdx listed
      { j with
        overdue := rest
        sent := true
        row := if o.row.enqueueRow o.now accepted then j.row.markEnqueued o.now else j.row }
    | none => j

end JobSys

/-- The table of event jobs, in the order of creation. -/
structure EventJobs where
  jobs : List JobSys := []

/-- One step. -/
inductive EventAct where
  | publish (spec : EventJobSpec) (key : String) (payload : Json)
  | job (i : Nat) (a : JobAct)
  | trim (i lag maxBacklog budget : Nat)
  | prune (i lag retentionDays : Nat)

namespace EventJobs

/-- The query of the dedupe window: the same job and key succeeded since `since`. -/
def succeededSince (identity : String × String × String) (since : Int) (w : EventJobs) : Bool :=
  w.jobs.any fun j => j.live && j.row.identity == identity && j.row.status == .succeeded && j.row.finishedAt.any (since ≤ ·)

/-- The unique constraint would be broken by one more active row. -/
def activeExists (identity : String × String × String) (w : EventJobs) : Bool :=
  w.jobs.any fun j => j.live && j.row.identity == identity && j.row.status.active

/-- `_persist`: a new row, or none when the publish is a duplicate. -/
def persist (clock : Int) (spec : EventJobSpec) (key : String) (payload : Json) (w : EventJobs) : EventJobs :=
  let row := persistedRow spec key payload clock
  if 0 < spec.dedupeSeconds ∧ w.succeededSince row.identity (clock - seconds spec.dedupeSeconds) then w
  else if w.activeExists row.identity then w
  else { jobs := w.jobs ++ [{ row := row }] }

/-- A pending row of the same job. -/
def pendingLike (row : JobRow) (j : JobSys) : Bool :=
  j.live && j.row.status == .pending && j.row.moduleId == row.moduleId && j.row.jobId == row.jobId

/-- `_tick_trim` takes the row: it is among the oldest pending rows of its job that are over the backlog. `budget` is
what the tick has left of its 200 rows. -/
def overLimit (i maxBacklog budget : Nat) (row : JobRow) (w : EventJobs) : Bool :=
  decide ((w.jobs.take i).countP (pendingLike row) <
    min (overBacklog (w.jobs.countP (pendingLike row)) maxBacklog) (min budget tickRowLimit))

/-- `PRUNE_BATCH`. -/
def pruneBatch : Nat := 1000

/-- `_retention_days`, in microseconds. -/
def retention (configured : Nat) : Int := max 1 (min (if configured = 0 then 90 else configured) 3650) * dayMicros

/-- A finished row that ended before `finishedAt`. -/
def finishedBefore (finishedAt : Int) (j : JobSys) : Bool :=
  j.live && j.row.status.finished && j.row.finishedAt.any (· < finishedAt)

/-- `_tick_prune` takes the row: it is finished, and among the oldest that are past the retention or over the cap. -/
def prunable (now : Int) (configured : Nat) (j : JobSys) (w : EventJobs) : Bool :=
  j.live && j.row.status.finished &&
    match j.row.finishedAt with
    | none => false
    | some finishedAt =>
      let older := w.jobs.countP (finishedBefore finishedAt)
      let total := w.jobs.countP fun k => k.live && k.row.status.finished
      (decide (finishedAt < now - retention configured) && decide (older < pruneBatch)) ||
        decide (older < min (total - finishedRowCap) pruneBatch)

/-- A step of one row. -/
def onJob (i : Nat) (f : JobSys → JobSys) (w : EventJobs) : EventJobs :=
  match w.jobs[i]? with
  | none => w
  | some j => { jobs := w.jobs.set i (f j) }

/-- What a step does. -/
def step (clock : Int) : EventAct → EventJobs → EventJobs
  | .publish spec key payload, w => w.persist clock spec key payload
  | .job i a, w => w.onJob i (JobSys.act clock a)
  | .trim i lag maxBacklog budget, w =>
    w.onJob i fun j => if w.overLimit i maxBacklog budget j.row then j.list .dropped (clock - lag) else j
  | .prune i lag configured, w =>
    w.onJob i fun j => if w.prunable (clock - lag) configured j then { j with deleted := true } else j

end EventJobs

end TecTac
