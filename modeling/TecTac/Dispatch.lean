import TecTac.Occurrence
import TecTac.Run

/-!
# The tick, for one schedule

The body of the loop of `dispatch_due_schedules`: what a tick does to one schedule under its row lock, and the run row
it creates. What the tick learns from outside the row (the module state, the time zone database, the target
canonicalisation, the run-time authorization check, the action registry) is in `TickEnv`.
-/

namespace TecTac

/-- What one tick reads besides the schedule row. `now` is the tick's moment. `canonicalTargets` is
`normalize_scheduler_targets` followed by `_canonicalize_persisted_endpoint_identity`; the targets it leaves as they are
it returns as stored. `authorizationError` is the text of `_runtime_authorization_error`, `none` when the check passes
or does not apply. `actionError` is the text `get_scheduled_action` raises, `none` when the action is registered. -/
structure TickEnv where
  now : Int
  runId : String
  visibility : ScheduleVisibility := {}
  zoneinfo : String → Option Zone
  canonicalTargets : Json → Except String Json := .ok
  authorizationError : Option String := none
  actionError : Option String := none

/-- What a tick leaves of a schedule: the row, the run it created (handed to `_queue_run` when it is queued), and the
occurrence it consumed as older than the last revision, without a run. -/
structure TickResult where
  schedule : Schedule
  created : Option RunRow := none
  baseline : Option Int := none
  deriving DecidableEq

/-- A one-time schedule is switched off once its occurrence is consumed. -/
def switchOffOnce (s : Schedule) : Schedule := if s.scheduleType = .once then { s with enabled := false } else s

/-- The save that marks an occurrence as consumed: `last_due_key`, and `updated_at`, which every save of that column
list writes. -/
def markConsumed (clock key : Int) (s : Schedule) : Schedule := { s with lastDueKey := some key, updatedAt := clock }

/-- `_consume_revision_baseline`: the row after an occurrence from before the last revision was consumed, `none` when it
is not one. -/
def consumeRevisionBaseline (clock : Int) (s : Schedule) (occurrence key : Int) : Option Schedule :=
  if occurrencePredatesScheduleRevision s occurrence then some (switchOffOnce (markConsumed clock key s)) else none

/-- A run row that is skipped when it is created. -/
def skippedRun (clock now : Int) (id : String) (s : Schedule) (scheduledFor : Int) (errorType error : String) : RunRow :=
  { runKwargs s id clock scheduledFor with
    status := .skipped
    error := error
    errorType := errorType
    finishedAt := some now }

/-- The error type of a missed occurrence. -/
def missedErrorType : MissedPolicy → String
  | .expire => "MissedExpired"
  | .runOnRecovery => "MissedRecoveryWindowExpired"
  | .skip => "MissedSkip"

/-- The text of a missed occurrence. -/
def missedMessage : MissedPolicy → String
  | .expire => "Occurrence expired after the scheduler lateness window."
  | .runOnRecovery => "Occurrence was outside the configured recovery grace window."
  | .skip => "Occurrence was missed and the schedule policy is skip."

/-- What both branches of the tick do first: find the latest occurrence, stop when it was consumed before, and consume
it without a run when it is older than the last revision. -/
def withOccurrence (clock : Int) (z : Zone) (s : Schedule) (now : Int) (go : Int → Int → TickResult) : TickResult :=
  match latestOccurrence z s.toTiming now with
  | none => { schedule := s }
  | some occurrence =>
    let key := dueKey s.toTiming occurrence
    if s.lastDueKey = some key then { schedule := s }
    else
      match consumeRevisionBaseline clock s occurrence key with
      | some s' => { schedule := s', baseline := some occurrence }
      | none => go occurrence key

/-- The branch for a schedule whose owner is no longer authorized. A one-time schedule stays enabled here. -/
def dispatchRevoked (clock : Int) (env : TickEnv) (z : Zone) (text : String) (s : Schedule) : TickResult :=
  withOccurrence clock z s env.now fun occurrence key =>
    { schedule := markConsumed clock key s
      created := some (skippedRun clock env.now env.runId s occurrence "AuthorizationRevoked" text) }

/-- The branch for an authorized schedule. `active` is the answer of the query for queued or running runs of the
schedule. -/
def dispatchAuthorized (clock : Int) (env : TickEnv) (z : Zone) (active : Bool) (s : Schedule) : TickResult :=
  withOccurrence clock z s env.now fun occurrence key =>
    if !shouldRunOccurrence s occurrence env.now then
      { schedule := switchOffOnce (markConsumed clock key s)
        created := some (skippedRun clock env.now env.runId s occurrence (missedErrorType s.missedPolicy)
          (missedMessage s.missedPolicy)) }
    else
      match env.actionError with
      | some text =>
        { schedule := switchOffOnce (markConsumed clock key s)
          created := some (skippedRun clock env.now env.runId s occurrence "ActionUnavailable" text) }
      | none =>
        if active && s.concurrencyPolicy == .skip then
          { schedule := markConsumed clock key s
            created := some (skippedRun clock env.now env.runId s occurrence "ConcurrencySkip"
              "Skipped because a previous run is still active.") }
        else
          { schedule := switchOffOnce (markConsumed clock key s)
            created := some (runKwargs s env.runId clock occurrence) }

/-- The save that switches off a schedule whose targets no longer have a valid shape. -/
def invalidateTargets (clock : Int) (text : String) (s : Schedule) : Schedule :=
  { s with
    enabled := false
    targetState := "invalid"
    targetStateDetail := String.ofList (text.toList.take 500)
    updatedAt := clock }

/-- The branch for such a schedule: it is switched off, with a skipped run for the tick itself. -/
def dispatchInvalid (clock : Int) (env : TickEnv) (text : String) (s : Schedule) : TickResult where
  schedule := invalidateTargets clock text s
  created := some (skippedRun clock env.now env.runId (invalidateTargets clock text s) env.now "InvalidTargetShape" text)

/-- The save of canonicalised targets. It writes `updated_at` too. -/
def saveCanonicalTargets (clock : Int) (canonical : Json) (s : Schedule) : Schedule :=
  if canonical ≠ s.targets then
    { s with targets := canonical, targetState := "valid", targetStateDetail := "", updatedAt := clock }
  else s

/-- The body of the loop of `dispatch_due_schedules`. An unknown time zone raises inside the transaction, which leaves
the row as it was. -/
def dispatchSchedule (clock : Int) (env : TickEnv) (active : Bool) (s : Schedule) : TickResult :=
  if !s.enabled then { schedule := s }
  else
    let pause := applyModulePause env.visibility s
    if pause.1 then { schedule := pause.2 }
    else
      match env.canonicalTargets pause.2.targets with
      | .error text => dispatchInvalid clock env text pause.2
      | .ok canonical =>
        let s' := saveCanonicalTargets clock canonical pause.2
        match env.zoneinfo s'.timezone with
        | none => { schedule := s }
        | some z =>
          match env.authorizationError with
          | some text => dispatchRevoked clock env z text s'
          | none => dispatchAuthorized clock env z active s'

end TecTac
