import TecTac.Dispatch
import TecTac.Lib.Timeline

/-!
# One run and everything that acts on it

The row of one run, the messages the broker holds for it, and the processes that are between two of their steps: the
dispatcher inside `_queue_run`, the workers between their claim and their finish, a recovery that has listed the run and
not yet locked it, a tick that has listed the run for settling. Each action is one step of one process, so a list of
actions is an interleaving. A message once accepted may be delivered again at any time and in any order: it is never
taken off the list.
-/

namespace TecTac

/-- Where the dispatcher's `_queue_run` stands: not running, before the broker took the message, after it, and after the
task id was saved. -/
inductive DispatchPhase where
  | idle | sending | accepted | recorded
  deriving DecidableEq, Repr

/-- A worker that has claimed the run: the retry number of the message that started it, and whether it has called the
handler. -/
structure Worker where
  retries : Nat
  handling : Bool := false
  deriving DecidableEq

/-- What `recover_stale_runs` keeps of a running run it listed: its `started_at` then, and the moment of the recovery.
-/
structure StaleCandidate where
  startedAt : Int
  now : Int
  deriving DecidableEq

/-- A run and the processes that act on it. The last two fields are history: the retry numbers the handler was called
with, and the outcomes that were applied. -/
structure RunSys where
  row : RunRow
  dispatch : DispatchPhase
  messages : List Nat := []
  workers : List Worker := []
  candidates : List StaleCandidate := []
  settling : List SettleSnapshot := []
  invoked : List Nat := []
  outcomes : List OutcomeCall := []

/-- One step of one process. A number selects the message, the worker, the candidate or the snapshot that moves. `lag`
is how long ago the recovery or the tick took its `now`. -/
inductive RunAct where
  | accept
  | recordTaskId (taskId : String)
  | recordState
  | dispatchFail (e : Exc)
  | deliver (message : Nat) (v : ScheduleVisibility)
  | skipOneOff (worker : Nat) (reason : String)
  | invoke (worker : Nat)
  | finishResult (worker : Nat) (result : Json)
  | finishPending (worker : Nat) (ref : CompletionRef) (refusal : Option String)
  | finishRaised (worker : Nat) (e : Exc)
  | lose (worker : Nat)
  | recoverQueued (lag configured : Nat)
  | recoverList (lag : Nat)
  | recoverRunning (candidate : Nat) (revoked : Bool)
  | complete (c : CompletionCall)
  | settleList
  | settle (listed : Nat) (lag : Nat) (read : JobRead)
  | forceDelete

namespace RunSys

/-- A run just created. A queued one is in the dispatcher's hands; one created as skipped is in nobody's. -/
def created (row : RunRow) : RunSys where
  row := row
  dispatch := if row.status = .queued then .sending else .idle

/-- The row after an outcome was offered to it, with the outcome in the history when it was applied. -/
def offer (clock : Int) (c : OutcomeCall) (r : RunSys) : RunSys × Bool :=
  let a := r.row.applyOutcome clock c
  ({ r with row := a.2.1, outcomes := if a.1 = .applied then r.outcomes ++ [c] else r.outcomes }, a.2.2)

/-- A worker ends: the row it leaves, and the message Celery sends for a retry. -/
def finish (worker : Nat) (row : RunRow) (retry : List Nat) (r : RunSys) : RunSys :=
  { r with row := row, workers := r.workers.eraseIdx worker, messages := r.messages ++ retry }

/-- What an action does to the run, and whether it saves `last_run_at` and `updated_at` of the schedule. An action of a
process that is not there, or not at that point, does nothing. `timeouts` is the registry's timeout of an action. -/
def act (timeouts : String → Option Nat) (clock : Int) : RunAct → RunSys → RunSys × Bool
  | .accept, r =>
    (if r.dispatch = .sending then { r with dispatch := .accepted, messages := r.messages ++ [0] } else r, false)
  | .recordTaskId taskId, r =>
    (if r.dispatch = .accepted then { r with dispatch := .recorded, row := { r.row with celeryTaskId := taskId } }
      else r, false)
  | .recordState, r => (if r.dispatch = .recorded then { r with dispatch := .idle } else r, false)
  | .dispatchFail e, r =>
    (if r.dispatch = .idle then r else { r with dispatch := .idle, row := r.row.queueRunFailed clock e }, false)
  | .deliver message v, r =>
    match r.messages[message]? with
    | none => (r, false)
    | some retries =>
      let c := r.row.claim clock v retries
      ({ r with row := c.1, workers := if c.2 then r.workers ++ [{ retries := retries }] else r.workers }, false)
  | .skipOneOff worker reason, r =>
    match r.workers[worker]? with
    | some { retries := _, handling := false } => (r.finish worker (r.row.skipUnauthorizedOneOff clock reason) [], false)
    | _ => (r, false)
  | .invoke worker, r =>
    match r.workers[worker]? with
    | some { retries := n, handling := false } =>
      ({ r with workers := r.workers.set worker { retries := n, handling := true }, invoked := r.invoked ++ [n] }, false)
    | _ => (r, false)
  | .finishResult worker result, r =>
    match r.workers[worker]? with
    | some { retries := _, handling := true } =>
      let f := r.row.finishSuccess clock result
      (r.finish worker f.1 [], f.2)
    | _ => (r, false)
  | .finishPending worker ref refusal, r =>
    match r.workers[worker]? with
    | some { retries := _, handling := true } =>
      let f := r.row.parkPendingRun clock ref refusal
      (r.finish worker f.1 [], f.2)
    | _ => (r, false)
  | .finishRaised worker e, r =>
    match r.workers[worker]? with
    | some { retries := n, handling := _ } =>
      let f := r.row.finishFailure clock n e
      (r.finish worker f.1 (if r.row.status = .running ∧ r.row.retries n e then [n + 1] else []), f.2)
    | none => (r, false)
  | .lose worker, r => ({ r with workers := r.workers.eraseIdx worker }, false)
  | .recoverQueued lag configured, r => ({ r with row := r.row.recoverQueued (clock - lag) configured }, false)
  | .recoverList lag, r =>
    match r.row.startedAt with
    | some startedAt =>
      (if r.row.status = .running then { r with candidates := r.candidates ++ [⟨startedAt, clock - lag⟩] } else r, false)
    | none => (r, false)
  | .recoverRunning candidate revoked, r =>
    match r.candidates[candidate]? with
    | some c =>
      let rest := r.candidates.eraseIdx candidate
      if RunRow.staleRunning (RunRow.timeoutSeconds timeouts r.row.actionId) c.startedAt c.now then
        ({ r with row := r.row.recoverRunning timeouts c.now revoked, candidates := rest }, false)
      else ({ r with candidates := rest }, false)
    | none => (r, false)
  | .complete c, r =>
    match c.admit r.row with
    | .error _ => (r, false)
    | .ok call => r.offer clock call
  | .settleList, r => (if r.row.listedForSettling then { r with settling := r.settling ++ [⟨r.row⟩] } else r, false)
  | .settle listed lag read, r =>
    match r.settling[listed]? with
    | some s =>
      match s.outcomeCall (clock - lag) read with
      | some call => { r with settling := r.settling.eraseIdx listed }.offer clock call
      | none => ({ r with settling := r.settling.eraseIdx listed }, false)
    | none => (r, false)
  | .forceDelete, r => ({ r with row := r.row.forceDelete clock }, false)

/-- The run after an action. -/
def step (timeouts : String → Option Nat) (clock : Int) (a : RunAct) (r : RunSys) : RunSys := (r.act timeouts clock a).1

end RunSys

end TecTac
