import TecTac.Schedule
import TecTac.Lib.Text

/-!
# The event-job row and its writers

`TecTacEventJob` of `models.py`, the decisions of `event_jobs_policy.py` that a row's life depends on, and every
function of `event_jobs.py` that writes a row: the publish, the worker's claim and its two finishes, and the steps of
the Scheduler tick. Each is what the source does to the row it holds under the row lock.
-/

namespace TecTac

/-! ## Registration -/

/-- One entry of `LIMITS`: the minimum, the default and the maximum. -/
structure Limit where
  low : Nat
  default : Nat
  high : Nat
  deriving DecidableEq

/-- The test of `_bounded_int`. -/
def Limit.Within (l : Limit) (value : Nat) : Prop := l.low ≤ value ∧ value ≤ l.high

instance (l : Limit) (value : Nat) : Decidable (l.Within value) := by
  unfold Limit.Within
  infer_instance

namespace Limits

/-- `LIMITS["soft_time_limit_seconds"]`. -/
def softTimeLimitSeconds : Limit := ⟨5, 30, 600⟩

/-- `LIMITS["max_attempts"]`. -/
def maxAttempts : Limit := ⟨1, 3, 10⟩

/-- `LIMITS["backoff_seconds"]`. -/
def backoffSeconds : Limit := ⟨5, 60, 3600⟩

/-- `LIMITS["max_backoff_seconds"]`. -/
def maxBackoffSeconds : Limit := ⟨5, 3600, 3600⟩

/-- `LIMITS["expires_seconds"]`. -/
def expiresSeconds : Limit := ⟨60, 1800, 86400⟩

/-- `LIMITS["max_backlog"]`. -/
def maxBacklog : Limit := ⟨1, 500, 5000⟩

/-- `LIMITS["dedupe_seconds"]`. -/
def dedupeSeconds : Limit := ⟨0, 0, 3600⟩

end Limits

/-- `HARD_LIMIT_EXTRA_SECONDS`. -/
def hardLimitExtraSeconds : Nat := 15

/-- `EventJobSpec`: the checked arguments of a registration. What `clean_spec` demands of the numbers is part of the
type. -/
structure EventJobSpec where
  id : String
  moduleId : String
  softTimeLimitSeconds : Nat
  maxAttempts : Nat
  backoffSeconds : Nat
  maxBackoffSeconds : Nat
  expiresSeconds : Nat
  maxBacklog : Nat
  dedupeSeconds : Nat
  auditSuccess : Bool
  soft_within : Limits.softTimeLimitSeconds.Within softTimeLimitSeconds
  attempts_within : Limits.maxAttempts.Within maxAttempts
  backoff_within : Limits.backoffSeconds.Within backoffSeconds
  maxBackoff_within : Limits.maxBackoffSeconds.Within maxBackoffSeconds
  expires_within : Limits.expiresSeconds.Within expiresSeconds
  backlog_within : Limits.maxBacklog.Within maxBacklog
  dedupe_within : Limits.dedupeSeconds.Within dedupeSeconds
  backoff_le : backoffSeconds ≤ maxBackoffSeconds

/-- The registration that leaves every number at its default. -/
def EventJobSpec.withDefaults (id moduleId : String) : EventJobSpec where
  id := id
  moduleId := moduleId
  softTimeLimitSeconds := Limits.softTimeLimitSeconds.default
  maxAttempts := Limits.maxAttempts.default
  backoffSeconds := Limits.backoffSeconds.default
  maxBackoffSeconds := Limits.maxBackoffSeconds.default
  expiresSeconds := Limits.expiresSeconds.default
  maxBacklog := Limits.maxBacklog.default
  dedupeSeconds := Limits.dedupeSeconds.default
  auditSuccess := false
  soft_within := by decide
  attempts_within := by decide
  backoff_within := by decide
  maxBackoff_within := by decide
  expires_within := by decide
  backlog_within := by decide
  dedupe_within := by decide
  backoff_le := by decide

/-- `hard_time_limit_seconds`. -/
def EventJobSpec.hardTimeLimitSeconds (spec : EventJobSpec) : Nat := spec.softTimeLimitSeconds + hardLimitExtraSeconds

/-! ## The row -/

/-- `TecTacEventJob.Status`. -/
inductive JobStatus where
  | pending | running | succeeded | failed | skipped | expired
  deriving DecidableEq, Repr

/-- `FINISHED_STATUSES`. -/
def JobStatus.finished : JobStatus → Bool
  | .succeeded | .failed | .skipped | .expired => true
  | .pending | .running => false

/-- `ACTIVE_STATUSES`. -/
def JobStatus.active (s : JobStatus) : Bool := !s.finished

/-- The snapshot of the registered limits that a row keeps (`_snapshot`). -/
structure JobPolicy where
  soft : Nat
  hard : Nat
  backoff : Nat
  maxBackoff : Nat
  auditSuccess : Bool
  dedupe : Nat
  deriving DecidableEq

/-- `_snapshot`. -/
def EventJobSpec.snapshot (spec : EventJobSpec) : JobPolicy where
  soft := spec.softTimeLimitSeconds
  hard := spec.hardTimeLimitSeconds
  backoff := spec.backoffSeconds
  maxBackoff := spec.maxBackoffSeconds
  auditSuccess := spec.auditSuccess
  dedupe := spec.dedupeSeconds

/-- An event-job row. -/
structure JobRow where
  moduleId : String
  jobId : String
  key : String
  payload : Json
  policy : JobPolicy
  status : JobStatus := .pending
  attempt : Nat := 0
  maxAttempts : Nat
  nextAttemptAt : Option Int
  expiresAt : Int
  createdAt : Int
  lastEnqueuedAt : Option Int
  startedAt : Option Int := none
  finishedAt : Option Int := none
  errorType : String := ""
  error : String := ""
  result : Json := .empty
  celeryTaskId : String := ""
  deriving DecidableEq

/-- The columns of the unique constraint `tectac_evjob_active_key`. -/
def JobRow.identity (row : JobRow) : String × String × String := (row.moduleId, row.jobId, row.key)

/-! ## Decisions -/

/-- What `failure_is_permanent` tells apart. -/
inductive JobExcKind where
  | valueError | typeError | schedulerPermanent | other
  deriving DecidableEq, Repr

/-- An exception of a handler: its class, the name of the class, and its text. -/
structure JobExc where
  kind : JobExcKind
  className : String
  text : String
  deriving DecidableEq

/-- `EventJobLost`, as the tick raises it. -/
def eventJobLost : JobExc := ⟨.other, "EventJobLost", "The worker did not finish this attempt (it was stopped or lost)."⟩

/-- `failure_is_permanent`. -/
def failureIsPermanent (e : JobExc) : Bool := e.kind != .other

/-- What `after_failure` answers. -/
inductive FailureDecision where
  | retry | giveUp
  deriving DecidableEq, Repr

/-- `after_failure`. -/
def afterFailure (e : JobExc) (attempt maxAttempts : Nat) : FailureDecision :=
  if failureIsPermanent e ∨ maxAttempts ≤ attempt then .giveUp else .retry

/-- `is_expired`, for a row, whose `expires_at` is never blank. -/
def isExpired (now expiresAt : Int) : Bool := decide (expiresAt ≤ now)

/-- `STALE_RUNNING_GRACE_SECONDS`. -/
def staleRunningGraceSeconds : Nat := 300

/-- `is_stale_running`. -/
def isStaleRunning (now : Int) (startedAt : Option Int) (hardLimitSeconds : Nat) : Bool :=
  match startedAt with
  | none => true
  | some started => decide (seconds (hardLimitSeconds + staleRunningGraceSeconds) < now - started)

/-- `OVERDUE_SECONDS`. -/
def overdueSeconds : Nat := 60

/-- `is_overdue_pending`. -/
def isOverduePending (now : Int) (lastEnqueuedAt nextAttemptAt : Option Int) : Bool :=
  match lastEnqueuedAt with
  | none => true
  | some last =>
    decide (seconds overdueSeconds < now - nextAttemptAt.getD last) && decide (seconds overdueSeconds < now - last)

/-- `backoff_delay`, in microseconds. `jitter` is what the random number adds, which is at most 20 percent of the delay.
-/
def backoffDelay (attempt base cap : Nat) (jitter : Nat) : Int :=
  let delay := min cap (base * 2 ^ min (max 1 attempt - 1) 30)
  seconds delay + min (jitter : Int) (seconds delay / 5)

/-- `over_backlog`. -/
def overBacklog (pending maxBacklog : Nat) : Nat := pending - maxBacklog

/-- What `_CONTROL_RE` matches. -/
def isControl (c : Char) : Bool := decide (c.toNat ≤ 0x1f) || c.toNat == 0x7f

/-- `_CONTROL_RE.sub(" ", text)`: each run of control characters is one blank. -/
def collapseControl : Bool → List Char → List Char
  | _, [] => []
  | inRun, c :: rest =>
    if isControl c then (if inRun then collapseControl true rest else ' ' :: collapseControl true rest)
    else c :: collapseControl false rest

/-- `ERROR_MAX_CHARS`. -/
def errorMaxChars : Nat := 200

/-- `short_error`. -/
def shortError (e : JobExc) : String :=
  let text := strip (collapseControl false e.text.toList)
  String.ofList ((if text = [] then e.className.toList else e.className.toList ++ ": ".toList ++ text).take errorMaxChars)

/-! ## The writers -/

/-- What `_module_status_now` answers. -/
inductive ModuleStatus where
  | runnable | unavailable | unknown
  deriving DecidableEq, Repr

/-- The row `_persist` creates. -/
def persistedRow (spec : EventJobSpec) (key : String) (payload : Json) (now : Int) : JobRow where
  moduleId := spec.moduleId
  jobId := spec.id
  key := key
  payload := payload
  policy := spec.snapshot
  maxAttempts := spec.maxAttempts
  nextAttemptAt := some now
  expiresAt := now + seconds spec.expiresSeconds
  createdAt := now
  lastEnqueuedAt := some now

/-- What the worker finds of the registry: the module's status, and the handler registered under the row's job id, with
its module. -/
structure JobRegistry where
  moduleStatus : String → ModuleStatus
  definitionModule : String → Option String

/-- What became of a delivery in `run_event_job`. -/
inductive ClaimAnswer where
  | already | notDue | expired | deferred | skipped | claimed
  deriving DecidableEq, Repr

namespace JobRow

/-- A row that ends without a handler call. -/
def endUnstarted (now : Int) (status : JobStatus) (errorType error : String) (row : JobRow) : JobRow :=
  { row with status := status, errorType := errorType, error := error, finishedAt := some now }

/-- The claim of `run_event_job`. -/
def claim (now : Int) (taskId : String) (reg : JobRegistry) (row : JobRow) : ClaimAnswer × JobRow :=
  if row.status ≠ .pending then (.already, row)
  else if row.nextAttemptAt.any (now + seconds 5 < ·) then (.notDue, row)
  else if isExpired now row.expiresAt then
    (.expired, row.endUnstarted now .expired "Expired" "The job was not started in time.")
  else
    match reg.moduleStatus row.moduleId with
    | .unknown => (.deferred, { row with nextAttemptAt := some now, lastEnqueuedAt := some now })
    | .unavailable =>
      (.skipped, row.endUnstarted now .skipped "ModuleUnavailable" "The module is disabled or no longer installed.")
    | .runnable =>
      if reg.definitionModule row.jobId ≠ some row.moduleId then
        (.skipped, row.endUnstarted now .skipped "HandlerNotRegistered" "The handler is not registered in this worker.")
      else
        (.claimed,
          { row with
            status := .running
            attempt := row.attempt + 1
            startedAt := some now
            finishedAt := none
            celeryTaskId := String.ofList (taskId.toList.take 80)
            error := ""
            errorType := "" })

/-- `_finish_success`. The result is what `cap_result` leaves of it. -/
def finishSuccess (now : Int) (result : Json) (row : JobRow) : JobRow :=
  if row.status ≠ .running then row
  else { row with status := .succeeded, result := result, finishedAt := some now, error := "", errorType := "" }

/-- `_finish_failure`: the row, and whether a retry is to be sent. `spec` is the snapshot the worker passes; the tick
passes none. -/
def finishFailure (now : Int) (e : JobExc) (spec : Option JobPolicy) (jitter : Nat) (row : JobRow) : JobRow × Bool :=
  if row.status ≠ .running then (row, false)
  else
    let info := spec.getD row.policy
    let row := { row with error := shortError e, errorType := String.ofList (e.className.toList.take 120) }
    if afterFailure e row.attempt row.maxAttempts = .giveUp ∨ isExpired now row.expiresAt then
      ({ row with status := .failed, finishedAt := some now }, false)
    else
      let base := if info.backoff = 0 then Limits.backoffSeconds.default else info.backoff
      let cap := if info.maxBackoff = 0 then Limits.maxBackoffSeconds.default else info.maxBackoff
      ({ row with
          status := .pending
          nextAttemptAt := some (now + backoffDelay row.attempt base cap jitter)
          lastEnqueuedAt := some now }, true)

/-- `_enqueue_row`: whether the message was sent. `accepted` says whether the circuit breaker let the attempt through
and the broker took the message. -/
def enqueueRow (now : Int) (accepted : Bool) (row : JobRow) : Bool := accepted && decide (seconds 1 < row.expiresAt - now)

/-- `_mark_not_enqueued`. -/
def markNotEnqueued (row : JobRow) : JobRow := if row.status = .pending then { row with lastEnqueuedAt := none } else row

/-- The update of `_tick_enqueue_overdue` after a message was sent. -/
def markEnqueued (now : Int) (row : JobRow) : JobRow :=
  if row.status = .pending then { row with lastEnqueuedAt := some now } else row

/-- `DEFAULT_HARD_LIMIT`. -/
def defaultHardLimit : Nat := Limits.softTimeLimitSeconds.high + hardLimitExtraSeconds

/-- The hard limit the tick judges a running row by. -/
def hardLimit (row : JobRow) : Nat := if row.policy.hard = 0 then defaultHardLimit else row.policy.hard

end JobRow

/-- Why the tick ends a pending row. -/
inductive ExpireCause where
  | expired | moduleUnavailable | dropped
  deriving DecidableEq, Repr

/-- The error type the tick stores. -/
def ExpireCause.errorType : ExpireCause → String
  | .expired => "Expired"
  | .moduleUnavailable => "ModuleUnavailable"
  | .dropped => "Dropped"

/-- The text the tick stores. -/
def ExpireCause.text : ExpireCause → String
  | .expired => "The job was not started in time."
  | .moduleUnavailable => "The module is disabled or no longer installed."
  | .dropped => "The backlog was over its limit; the oldest job was dropped."

/-- `_expire_rows`, for one listed row. -/
def JobRow.expire (now : Int) (cause : ExpireCause) (row : JobRow) : JobRow :=
  if row.status ≠ .pending then row else row.endUnstarted now .expired cause.errorType cause.text

/-- `FINISHED_ROW_CAP`. -/
def finishedRowCap : Nat := 20000

/-- `TICK_ROW_LIMIT`. -/
def tickRowLimit : Nat := 200

end TecTac
