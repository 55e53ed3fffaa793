import TecTac.Visibility

/-!
# The run row and its writers

`TecTacScheduleRun` of `models.py`, and every function that writes one: the dispatcher's failure record (`_queue_run`),
the worker (`execute_schedule_run`), the parking and the completion of a pending run (`scheduler_completion.py`), stale
recovery (`recover_stale_runs`) and the forced delete. Each function is what the source does to the row it holds under
the row lock, and says whether it also saves `last_run_at` and `updated_at` of the run's schedule.
-/

namespace TecTac

/-- `TecTacScheduleRun.Status`. -/
inductive RunStatus where
  | queued | running | succeeded | failed | skipped
  deriving DecidableEq, Repr

/-- The statuses that end a run. -/
def RunStatus.terminal : RunStatus → Bool
  | .succeeded | .failed | .skipped => true
  | .queued | .running => false

/-- The statuses the concurrency query counts. -/
def RunStatus.active (s : RunStatus) : Bool := !s.terminal

/-- The kinds of a pending completion, `KINDS`. -/
inductive CompletionKind where
  | module | serverMaintenanceJob
  deriving DecidableEq, Repr

/-- `OUTCOMES`. -/
inductive Outcome where
  | succeeded | failed | cancelled | timedOut
  deriving DecidableEq, Repr

/-- The values of `completion_state`. -/
inductive CompletionState where
  | blank | pending | completed | expired
  deriving DecidableEq, Repr

/-- `completion_ref`: what a parked run waits for, and the outcome it got. -/
structure CompletionRef where
  kind : CompletionKind
  externalJobId : String
  note : Option String := none
  outcome : Option Outcome := none
  deriving DecidableEq

/-- A run row. `schedule` is blank once the schedule was deleted. -/
structure RunRow where
  id : String
  schedule : Option String
  scheduleName : String
  moduleId : String
  actionId : String
  ownerType : OwnerType
  ownerModule : String
  ownerKey : String
  status : RunStatus := .queued
  scheduledFor : Int
  manual : Bool := false
  targetsSnapshot : Json
  targetModeSnapshot : TargetMode
  parametersSnapshot : Json
  retryCountSnapshot : Nat
  retryDelaySecondsSnapshot : Nat
  result : Json := .empty
  error : String := ""
  errorType : String := ""
  celeryTaskId : String := ""
  attempt : Nat := 0
  createdAt : Int
  lastQueuedAt : Option Int
  startedAt : Option Int := none
  finishedAt : Option Int := none
  completionState : CompletionState := .blank
  completionRef : Option CompletionRef := none
  completionStartedAt : Option Int := none
  deriving DecidableEq

/-- `_run_kwargs`: a new row of a schedule. The row's own id and the clock are what the database gives it. -/
def runKwargs (s : Schedule) (id : String) (clock scheduledFor : Int) : RunRow where
  id := id
  schedule := some s.id
  scheduleName := s.name
  moduleId := s.moduleId
  actionId := s.actionId
  ownerType := s.ownerType
  ownerModule := s.ownerModule
  ownerKey := s.ownerKey
  scheduledFor := scheduledFor
  targetsSnapshot := s.targets
  targetModeSnapshot := s.targetMode
  parametersSnapshot := s.parameters
  retryCountSnapshot := s.retryCount
  retryDelaySecondsSnapshot := effectiveRetryDelaySeconds s.retryDelaySeconds
  createdAt := clock
  lastQueuedAt := some clock

/-- The exception classes the worker tells apart. -/
inductive ExcKind where
  | schedulerTransient | capabilityUnhealthy | schedulerError | capabilityUnavailable | valueError | typeError | other
  deriving DecidableEq, Repr

/-- An exception: its class, the name of the class, and its text. -/
structure Exc where
  kind : ExcKind
  className : String
  text : String
  deriving DecidableEq

/-- `_retryable`. -/
def retryable (e : Exc) : Bool :=
  match e.kind with
  | .schedulerTransient | .capabilityUnhealthy => true
  | .schedulerError | .capabilityUnavailable | .valueError | .typeError => false
  | .other => true

namespace RunRow

/-! ## The dispatcher -/

/-- The `except` branch of `_queue_run`: the dispatcher writes these four columns of its own copy of the row, whatever
the row holds by then. -/
def queueRunFailed (clock : Int) (e : Exc) (row : RunRow) : RunRow :=
  { row with
    status := .failed
    errorType := "DispatchError"
    error := e.className ++ ": " ++ e.text
    finishedAt := some clock }

/-! ## The worker -/

/-- The claim at the head of `execute_schedule_run`, for a message that carries `retries`. The flag says whether the
worker goes on. -/
def claim (clock : Int) (v : ScheduleVisibility) (retries : Nat) (row : RunRow) : RunRow × Bool :=
  if row.status ≠ .queued then (row, false)
  else
    let blocked := runBlockedReason v row.moduleId row.ownerModule row.ownerType
    if blocked ≠ "" then
      ({ row with status := .skipped, error := blocked, errorType := "ModuleUnavailable", finishedAt := some clock }, false)
    else
      ({ row with
          status := .running
          startedAt := some clock
          finishedAt := none
          attempt := retries + 1
          error := ""
          errorType := "" }, true)

/-- The write of `_skip_unauthorized_one_off`. -/
def skipUnauthorizedOneOff (clock : Int) (reason : String) (row : RunRow) : RunRow :=
  if row.status ≠ .running then row
  else { row with status := .skipped, error := reason, errorType := "AuthorizationRevoked", finishedAt := some clock }

/-- The success branch of `execute_schedule_run`. -/
def finishSuccess (clock : Int) (result : Json) (row : RunRow) : RunRow × Bool :=
  if row.status ≠ .running then (row, false)
  else ({ row with status := .succeeded, result := result, finishedAt := some clock }, row.schedule.isSome)

/-- Whether a failed attempt is tried again: `current_retry` is the number the message carries, not the row's. -/
def retries (row : RunRow) (currentRetry : Nat) (e : Exc) : Bool :=
  retryable e && decide (currentRetry < row.retryCountSnapshot)

/-- The failure branch of `execute_schedule_run`. -/
def finishFailure (clock : Int) (currentRetry : Nat) (e : Exc) (row : RunRow) : RunRow × Bool :=
  if row.status ≠ .running then (row, false)
  else
    let text := if e.text = "" then e.className else e.text
    if row.retries currentRetry e then
      ({ row with
          status := .queued
          error := text
          errorType := e.className
          finishedAt := none
          lastQueuedAt := some clock }, false)
    else
      ({ row with status := .failed, error := text, errorType := e.className, finishedAt := some clock }, row.schedule.isSome)

/-- `park_pending_run`. `refusal` is what the checks before the lock found wrong (the shape of the pending completion,
the binding of a server job). -/
def parkPendingRun (clock : Int) (ref : CompletionRef) (refusal : Option String) (row : RunRow) : RunRow × Bool :=
  if row.status ≠ .running then (row, false)
  else
    match refusal with
    | some text =>
      ({ row with
          status := .failed
          error := String.ofList (text.toList.take 500)
          errorType := "PendingRefused"
          finishedAt := some clock }, row.schedule.isSome)
    | none =>
      ({ row with
          completionState := .pending
          completionRef := some { ref with outcome := none }
          completionStartedAt := some clock }, false)

end RunRow

/-! ## Pending completion -/

/-- What `_apply_outcome` returns. -/
inductive ApplyCode where
  | applied | duplicate | wrongKind | conflict | late | notPending | wrongJob
  deriving DecidableEq, Repr

/-- `ERROR_TYPES`. -/
def Outcome.errorType : Outcome → String
  | .succeeded => ""
  | .failed => "ExternalFailed"
  | .cancelled => "ExternalCancelled"
  | .timedOut => "ExternalTimedOut"

/-- The arguments of `_apply_outcome`. -/
structure OutcomeCall where
  allowedKind : CompletionKind
  externalJobId : String
  outcome : Outcome
  result : Json
  error : String
  errorType : Option String := none
  deriving DecidableEq

namespace RunRow

/-- `_apply_outcome`: the checks in the order the source makes them, on the row under its lock. -/
def applyCode (c : OutcomeCall) (row : RunRow) : ApplyCode :=
  if (row.completionRef.map (·.kind)).any (· ≠ c.allowedKind) then .wrongKind
  else if row.completionState = .completed then
    if row.completionRef.map (·.externalJobId) = some c.externalJobId ∧
      row.completionRef.bind (·.outcome) = some c.outcome then .duplicate
    else .conflict
  else if row.completionState = .expired then .late
  else if row.completionState ≠ .pending then .notPending
  else if row.status ≠ .running then .late
  else if row.completionRef.map (·.externalJobId) ≠ some c.externalJobId then .wrongJob
  else .applied

/-- The row an applied outcome leaves. -/
def applied (clock : Int) (c : OutcomeCall) (row : RunRow) : RunRow :=
  { row with
    completionRef := row.completionRef.map fun ref => { ref with outcome := some c.outcome }
    completionState := .completed
    status := if c.outcome = .succeeded then .succeeded else .failed
    result := c.result
    error := c.error
    errorType := if c.outcome = .succeeded then "" else c.errorType.getD c.outcome.errorType
    finishedAt := some clock }

/-- `_apply_outcome`: the code, the row it leaves, and whether the schedule is saved. -/
def applyOutcome (clock : Int) (c : OutcomeCall) (row : RunRow) : ApplyCode × RunRow × Bool :=
  if row.applyCode c = .applied then (.applied, row.applied clock c, row.schedule.isSome)
  else (row.applyCode c, row, false)

end RunRow

/-- `EXTERNAL_ID_RE`: 1 to 128 letters, digits and `. _ : -`. -/
def validExternalId (s : String) : Bool :=
  decide (1 ≤ s.length) && decide (s.length ≤ 128) &&
    s.toList.all fun c =>
      ('A' ≤ c && c ≤ 'Z') || ('a' ≤ c && c ≤ 'z') || ('0' ≤ c && c ≤ '9') || ['.', '_', ':', '-'].contains c

/-- A call of `complete_pending_run`: the verified caller (`none` when the call stack names none), the module of the
run's action as the registry knows it, and the payload as `_clean_result` and `_clean_error` leave it, or the text they
refuse it with. -/
structure CompletionCall where
  caller : Option String
  actionModule : Option String
  externalJobId : String
  outcome : Outcome
  payload : Except String (Json × String)

/-- What `complete_pending_run` answers: it was applied, it was an idempotent repeat, a refusal with its reason code, or
an invalid argument. -/
inductive CompletionAnswer where
  | applied | duplicate | refused (reason : String) | invalid (text : String)
  deriving DecidableEq, Repr

/-- The reason code of a refusal. -/
def ApplyCode.reason : ApplyCode → String
  | .applied => "applied"
  | .duplicate => "duplicate"
  | .wrongKind => "wrong_kind"
  | .conflict => "conflict"
  | .late => "late"
  | .notPending => "not_pending"
  | .wrongJob => "wrong_job"

/-- The text stored for an outcome that is not success when the module gave none. -/
def Outcome.defaultError : Outcome → String
  | .succeeded => ""
  | .failed => "The module reported that the work failed."
  | .cancelled => "The module reported that the work was cancelled."
  | .timedOut => "The module reported that the work timed out."

/-- The checks of `complete_pending_run` before it settles the row: an answer when one of them fails, else the outcome
to apply. -/
def CompletionCall.admit (row : RunRow) (c : CompletionCall) : Except CompletionAnswer OutcomeCall :=
  if !validExternalId c.externalJobId then
    .error (.invalid "complete_pending_run external_job_id must be the id the handler returned.")
  else
    match c.caller with
    | none => .error (.refused "caller_unverified")
    | some caller =>
      match c.actionModule with
      | none => .error (.refused "action_unavailable")
      | some owner =>
        if caller ≠ owner ∨ caller ≠ (if row.moduleId = "" then owner else row.moduleId) then .error (.refused "wrong_module")
        else
          match c.payload with
          | .error text => .error (.invalid text)
          | .ok (result, error) =>
            .ok { allowedKind := .module, externalJobId := c.externalJobId, outcome := c.outcome, result := result
                  error := if error = "" then c.outcome.defaultError else error }

/-- `complete_pending_run` on the row it names. -/
def RunRow.completePendingRun (clock : Int) (c : CompletionCall) (row : RunRow) : CompletionAnswer × RunRow × Bool :=
  match c.admit row with
  | .error answer => (answer, row, false)
  | .ok call =>
    let r := row.applyOutcome clock call
    (match r.1 with
      | .applied => .applied
      | .duplicate => .duplicate
      | code => .refused code.reason, r.2)

/-! ## Server-maintenance jobs -/

/-- What reading a server-maintenance job answers. -/
inductive JobRead where
  | notFound
  | unreadable
  | job (sourceModule sourceRunId status : String) (exitCode : Option Int) (classification : Option String)
  deriving DecidableEq

/-- `MISSING_JOB_GRACE`. -/
def missingJobGrace : Int := minutes 10

/-- `_JOB_OUTCOME`. -/
def jobOutcome (status : String) : Option Outcome :=
  if status = "succeeded" then some .succeeded
  else if status = "failed" ∨ status = "dispatch_failed" then some .failed
  else if status = "cancelled" then some .cancelled
  else none

/-- The error text of a finished server job. -/
def jobErrorText : Outcome → String
  | .succeeded => ""
  | .cancelled => "The server job was cancelled."
  | _ => "The server job failed."

/-- `_job_result`. -/
def jobResult (jobId status : String) (exitCode : Option Int) (classification : Option String) : Json :=
  .obj ([("job_id", .str jobId), ("status", .str status), ("exit_code", (exitCode.map Json.num).getD .null)] ++
    (classification.map fun c => ("classification", Json.str c)).toList)

/-- What `_settle_one` keeps of a listed run: the run as it was when the tick listed it. -/
structure SettleSnapshot where
  row : RunRow
  deriving DecidableEq

/-- `_settle_one`: the outcome the tick applies to a listed run, if any. `now` is the tick's moment. -/
def SettleSnapshot.outcomeCall (now : Int) (read : JobRead) (s : SettleSnapshot) : Option OutcomeCall :=
  let jobId := (s.row.completionRef.map (·.externalJobId)).getD ""
  match read with
  | .notFound =>
    match s.row.completionStartedAt.or s.row.startedAt with
    | some started =>
      if missingJobGrace < now - started then
        some { allowedKind := .serverMaintenanceJob, externalJobId := jobId, outcome := .failed
               result := .obj [("job_id", .str jobId), ("status", .str "missing")]
               error := "The server job record is gone." }
      else none
    | none => none
  | .unreadable => none
  | .job sourceModule sourceRunId status exitCode classification =>
    if sourceModule ≠ s.row.moduleId ∨ sourceRunId ≠ s.row.id then
      some { allowedKind := .serverMaintenanceJob, externalJobId := jobId, outcome := .failed
             result := .obj [("job_id", .str jobId)]
             error := "The server job was not started by this module for this run.", errorType := some "PendingRefused" }
    else
      (jobOutcome status).map fun outcome =>
        { allowedKind := .serverMaintenanceJob, externalJobId := jobId, outcome := outcome
          result := jobResult jobId status exitCode classification, error := jobErrorText outcome }

namespace RunRow

/-- The query of `settle_server_job_runs`. -/
def listedForSettling (row : RunRow) : Bool :=
  row.status == .running && row.completionState == .pending && (row.completionRef.map (·.kind)) == some .serverMaintenanceJob

/-! ## Stale recovery -/

/-- `queued_stale_deadline`. -/
def queuedStaleDeadline (queuedAt : Int) (queuedStaleMinutes attempt retryDelaySeconds : Nat) : Int :=
  queuedAt + seconds (if 0 < attempt then retryDelaySeconds else 0) + minutes (max 1 queuedStaleMinutes)

/-- The configured window, clamped as `recover_stale_runs` does. -/
def queuedMinutes (configured : Nat) : Nat := max 1 (min (if configured = 0 then 10 else configured) 1440)

/-- The deadline of a queued row: from `last_queued_at`, or from `created_at` on a row that has none. -/
def staleAfter (configured : Nat) (row : RunRow) : Int :=
  queuedStaleDeadline (row.lastQueuedAt.getD row.createdAt) (queuedMinutes configured) row.attempt
    (effectiveRetryDelaySeconds row.retryDelaySecondsSnapshot)

/-- The queued half of `recover_stale_runs`, for one row. The prefilter and the deadline are both read under the row
lock. -/
def recoverQueued (now : Int) (configured : Nat) (row : RunRow) : RunRow :=
  let cutoff := now - minutes (queuedMinutes configured)
  if row.status = .queued ∧ row.lastQueuedAt.getD row.createdAt < cutoff ∧ row.staleAfter configured < now then
    { row with
      status := .failed
      errorType := "Stale"
      error := "Stale queued run exceeded " ++ toString (queuedMinutes configured) ++ " minute dispatch window" ++
        (if 0 < row.attempt then
          " after " ++ toString (effectiveRetryDelaySeconds row.retryDelaySecondsSnapshot) ++ " second retry countdown."
        else ".")
      finishedAt := some now }
  else row

/-- The timeout of an action: the registered one, or an hour. -/
def timeoutSeconds (timeouts : String → Option Nat) (actionId : String) : Nat := (timeouts actionId).getD 3600

/-- A running attempt that started at `startedAt` is stale at `now`. -/
def staleRunning (timeout : Nat) (startedAt now : Int) : Bool :=
  decide (seconds timeout + defaultRunningStaleGrace < now - startedAt)

/-- The running half of `recover_stale_runs`, for one candidate that the snapshot showed stale: the row is re-read under
its lock and only its status is looked at again. `revoked` says whether the worker task could be revoked. -/
def recoverRunning (timeouts : String → Option Nat) (now : Int) (revoked : Bool) (row : RunRow) : RunRow :=
  if row.status ≠ .running then row
  else
    let waiting := row.completionState = .pending
    if row.celeryTaskId ≠ "" ∧ ¬waiting ∧ ¬revoked then row
    else if waiting then
      { row with
        status := .failed
        errorType := "CompletionTimeout"
        error := "No result arrived within the action timeout of " ++
          toString (timeoutSeconds timeouts row.actionId) ++ " seconds."
        completionState := .expired
        finishedAt := some now }
    else
      { row with
        status := .failed
        errorType := "Stale"
        error := "Stale running run exceeded action timeout of " ++
          toString (timeoutSeconds timeouts row.actionId) ++ " seconds."
        finishedAt := some now }

/-! ## The forced delete -/

/-- What `SchedulerDetailView.delete` with `force` does to a run of the schedule: an active run is failed, and every run
loses its schedule when the schedule goes. -/
def forceDelete (clock : Int) (row : RunRow) : RunRow :=
  if row.status.active then
    { row with
      status := .failed
      errorType := "ForceDeleted"
      error := "Schedule was force-deleted while this run was active."
      finishedAt := some clock
      schedule := none }
  else { row with schedule := none }

end RunRow

end TecTac
