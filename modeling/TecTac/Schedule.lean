import TecTac.Lib.Json
import TecTac.Lib.Zone

/-!
# The schedule row

`TecTacSchedule` of `models.py`, with the columns the scheduler reads or writes. The columns that say when a schedule
runs stand in `Timing`, which no step of the scheduler changes: only a create or an edit writes them. A moment is a
number of microseconds since 1 January 1970 in UTC, so every datetime is already what `_as_utc` makes of it.
-/

namespace TecTac

/-- `timedelta(seconds=n)`. -/
def seconds (n : Int) : Int := n * 1000000

/-- `timedelta(minutes=n)`. -/
def minutes (n : Int) : Int := n * 60000000

/-- `value.replace(second=0, microsecond=0)`. -/
def floorMinute (t : Int) : Int := t - t % 60000000

/-- `TecTacSchedule.ScheduleType`. -/
inductive ScheduleType where
  | once | daily | weekly | monthly | interval
  deriving DecidableEq, Repr

/-- `TecTacSchedule.MissedPolicy`. -/
inductive MissedPolicy where
  | skip | runOnRecovery | expire
  deriving DecidableEq, Repr

/-- `TecTacSchedule.ConcurrencyPolicy`. -/
inductive ConcurrencyPolicy where
  | skip | queue | allow
  deriving DecidableEq, Repr

/-- `TecTacSchedule.OwnerType`. -/
inductive OwnerType where
  | user | module
  deriving DecidableEq, Repr

/-- `TecTacSchedule.TargetMode`. -/
inductive TargetMode where
  | snapshot | dynamic
  deriving DecidableEq, Repr

/-- The hour and minute of `run_time`. The scheduler reads no more of it: the seconds of a stored time are never used.
-/
structure RunTime where
  hour : Nat
  minute : Nat
  hour_lt : hour < 24
  minute_lt : minute < 60
  deriving DecidableEq

theorem RunTime.on_the_hour : 0 < 60 := by decide

theorem RunTime.at_three : 3 < 24 := by decide

/-- The wall time of a `run_time` on a day. -/
def RunTime.wall (rt : RunTime) (day : Int) : Int := day * dayMicros + rt.hour * 3600000000 + rt.minute * 60000000

/-- The columns that say when a schedule runs. -/
structure Timing where
  scheduleType : ScheduleType
  timezone : String := "UTC"
  runAt : Option Int := none
  runTime : Option RunTime := none
  weekdays : List Int := []
  dayOfMonth : Option Nat := none
  monthWeek : Option Int := none
  monthWeekday : Option Int := none
  intervalSeconds : Option Nat := none
  intervalAnchorAt : Option Int := none
  deriving DecidableEq

/-- A schedule row. `lastDueKey` is `none` for the blank text; a key is the `isoformat` of a moment in UTC, and two
moments have the same text only when they are equal, so the key is the moment. `createdBy` is the stored creator name,
blank when there is none. -/
structure Schedule extends Timing where
  id : String
  name : String
  moduleId : String
  actionId : String
  targetMode : TargetMode := .snapshot
  targets : Json := .empty
  targetState : String := "valid"
  targetStateDetail : String := ""
  parameters : Json := .empty
  ownerType : OwnerType := .user
  ownerModule : String := ""
  ownerKey : String := ""
  enabled : Bool := true
  pausedReason : String := ""
  missedPolicy : MissedPolicy := .skip
  missedGraceMinutes : Nat := 60
  concurrencyPolicy : ConcurrencyPolicy := .skip
  retryCount : Nat := 0
  retryDelaySeconds : Nat := 60
  lastDueKey : Option Int := none
  lastRunAt : Option Int := none
  createdBy : String := ""
  updatedAt : Int
  deriving DecidableEq

/-- `DEFAULT_RETRY_DELAY_SECONDS`. -/
def defaultRetryDelaySeconds : Nat := 60

/-- `effective_retry_delay_seconds`: the stored delay, or the default when none is stored. -/
def effectiveRetryDelaySeconds (value : Nat) : Nat := if 0 < value then value else defaultRetryDelaySeconds

/-- `MIN_INTERVAL_SECONDS`. -/
def minIntervalSeconds : Nat := 60

/-- `MISSED_LATE_TOLERANCE`. -/
def missedLateTolerance : Int := minutes 3

/-- `DEFAULT_RUNNING_STALE_GRACE`. -/
def defaultRunningStaleGrace : Int := minutes 5

end TecTac
