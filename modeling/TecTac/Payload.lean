import Mathlib
import TecTac.Schedule
import TecTac.Lib.Raise
import TecTac.Lib.Text

/-!
# Schedule payloads

What `validate_schedule_payload`, `check_monthly_shape` and `switch_monthly_mode` of `scheduler.py` make of the fields a
request or a module sends. A field that is not sent is `none`; a field that is sent may hold any value, so the checks
here are made on values and what they let through is typed. Functions of the standard library and the registries are
given as a `Runtime`.
-/

namespace TecTac

/-! ## Values -/

/-- A number with a fraction. -/
inductive PyFloat where
  | finite (x : Rat)
  | infinite
  | nan
  deriving DecidableEq

/-- A time of day. Its zone, if it has one, is never read. -/
structure TimeOfDay extends RunTime where
  second : Nat := 0
  microsecond : Nat := 0
  deriving DecidableEq

/-- A datetime: its wall time, and its offset from UTC unless it is naive. -/
structure Datetime where
  wall : Int
  offset : Option Int := none
  deriving DecidableEq

/-- What a field may hold. -/
inductive Value where
  | json (j : Json)
  | float (x : PyFloat)
  | time (t : TimeOfDay)
  | datetime (d : Datetime)
  deriving DecidableEq

namespace Value

/-- `None`. -/
def null : Value := .json .null

/-- A text. -/
def text (s : String) : Value := .json (.str s)

/-- A whole number. -/
def int (n : Int) : Value := .json (.num n)

/-- `bool(value)`. -/
def truthy : Value → Bool
  | .json .null => false
  | .json (.bool b) => b
  | .json (.num n) => n != 0
  | .json (.str s) => s != ""
  | .json (.arr xs) => !xs.isEmpty
  | .json (.obj kvs) => !kvs.isEmpty
  | .float (.finite x) => x != 0
  | .float _ => true
  | .time _ => true
  | .datetime _ => true

/-- `value in (None, "")`. -/
def unset (v : Value) : Bool := v == null || v == text ""

end Value

/-- An exception. -/
inductive Raised where
  | scheduler (text : String)
  | denied (text : String)
  | takeover
  | systemAction (reason : String)
  | other (className : String)
  deriving DecidableEq

/-- `ScheduledAction`, as far as the writers of a schedule read it. -/
structure Action where
  id : String
  moduleId : String
  label : String
  targetType : String
  otherTargetTypes : List String := []

/-- `action.target_types`. -/
def Action.targetTypes (a : Action) : List String := a.targetType :: a.otherTargetTypes

/-- What the writers use that is not theirs: `int` and `str` of the language, the parsers of Django, the zones, and the
registered actions. A parser answers nothing for a text it does not read, and raises for one that is well formed and no
time. -/
structure Runtime where
  parseInt : String → Option Int
  repr : Value → String
  parseDatetime : String → Except Raised (Option Datetime)
  parseTime : String → Except Raised (Option TimeOfDay)
  makeAware : Int → Int
  findZone : String → Except Raised Unit
  findAction : String → Option Action

namespace Runtime

/-- `str(value)`. -/
def str (rt : Runtime) : Value → String
  | .json (.str s) => s
  | v => rt.repr v

/-- `str(value).strip()`. -/
def stripped (rt : Runtime) (v : Value) : String := String.ofList (strip (rt.str v).toList)

/-- `get_scheduled_action`. -/
def getScheduledAction (rt : Runtime) (id : String) : Except Raised Action :=
  match rt.findAction id with
  | some a => .ok a
  | none => .error (.scheduler ("Scheduled action '" ++ id ++ "' is not registered in this runtime."))

/-- `int(value)`, where `TypeError` and `ValueError` become the given text. -/
def toInt (rt : Runtime) (message : String) : Value → Except Raised Int
  | .json (.bool b) => .ok (Json.boolNum b)
  | .json (.num n) => .ok n
  | .json (.str s) =>
    match rt.parseInt s with
    | some n => .ok n
    | none => .error (.scheduler message)
  | .float (.finite x) => .ok (if 0 ≤ x then x.floor else -(-x).floor)
  | .float .infinite => .error (.other "OverflowError")
  | _ => .error (.scheduler message)

end Runtime

/-! ## The payload and what the checks make of it -/

/-- The fields of a payload that Core reads. -/
structure Payload where
  name : Option Value := none
  actionId : Option Value := none
  targetMode : Option Value := none
  targets : Option Value := none
  parameters : Option Value := none
  scheduleType : Option Value := none
  timezone : Option Value := none
  runAt : Option Value := none
  runTime : Option Value := none
  weekdays : Option Value := none
  dayOfMonth : Option Value := none
  monthWeek : Option Value := none
  monthWeekday : Option Value := none
  intervalSeconds : Option Value := none
  intervalAnchorAt : Option Value := none
  enabled : Option Value := none
  missedPolicy : Option Value := none
  missedGraceMinutes : Option Value := none
  concurrencyPolicy : Option Value := none
  retryCount : Option Value := none
  retryDelaySeconds : Option Value := none

/-- A checked number that may also be `None` or the empty text. -/
inductive NumArg where
  | null | blank
  | int (n : Nat)
  deriving DecidableEq

/-- `bool(value)`. -/
def NumArg.truthy : NumArg → Bool
  | .null | .blank => false
  | .int n => n != 0

/-- A checked payload. The times are still values: they are parsed before the check, or when the row is saved. -/
structure ScheduleData where
  name : String
  actionId : String
  moduleId : String
  targetMode : Option TargetMode
  targets : Option Json
  parameters : Option Json
  scheduleType : ScheduleType
  timezone : String
  runAt : Option Value
  runTime : Option Value
  weekdays : Option (List Int)
  dayOfMonth : Option NumArg
  monthWeek : Option (Option Int)
  monthWeekday : Option (Option Int)
  intervalSeconds : Option NumArg
  intervalAnchorAt : Option Value
  enabled : Option Bool
  missedPolicy : Option MissedPolicy
  missedGraceMinutes : Option Nat
  concurrencyPolicy : Option ConcurrencyPolicy
  retryCount : Option Nat
  retryDelaySeconds : Option Nat

/-- A member of `ScheduleType.values`. -/
def ScheduleType.ofText : String → Option ScheduleType
  | "once" => some .once
  | "daily" => some .daily
  | "weekly" => some .weekly
  | "monthly" => some .monthly
  | "interval" => some .interval
  | _ => none

/-- The stored text of a schedule type. -/
def ScheduleType.text : ScheduleType → String
  | .once => "once"
  | .daily => "daily"
  | .weekly => "weekly"
  | .monthly => "monthly"
  | .interval => "interval"

/-- A member of `TargetMode.values`. -/
def TargetMode.ofValue : Value → Option TargetMode
  | .json (.str "snapshot") => some .snapshot
  | .json (.str "dynamic") => some .dynamic
  | _ => none

/-- The stored text of a target mode. -/
def TargetMode.text : TargetMode → String
  | .snapshot => "snapshot"
  | .dynamic => "dynamic"

/-- A member of `MissedPolicy.values`. -/
def MissedPolicy.ofValue : Value → Option MissedPolicy
  | .json (.str "skip") => some .skip
  | .json (.str "run_on_recovery") => some .runOnRecovery
  | .json (.str "expire") => some .expire
  | _ => none

/-- The stored text of a missed policy. -/
def MissedPolicy.text : MissedPolicy → String
  | .skip => "skip"
  | .runOnRecovery => "run_on_recovery"
  | .expire => "expire"

/-- A member of `ConcurrencyPolicy.values`. -/
def ConcurrencyPolicy.ofValue : Value → Option ConcurrencyPolicy
  | .json (.str "skip") => some .skip
  | .json (.str "queue") => some .queue
  | .json (.str "allow") => some .allow
  | _ => none

/-- The stored text of a concurrency policy. -/
def ConcurrencyPolicy.text : ConcurrencyPolicy → String
  | .skip => "skip"
  | .queue => "queue"
  | .allow => "allow"

/-! ## The checks, field by field -/

namespace Check

/-- The name. -/
def name (rt : Runtime) (v : Option Value) : Except Raised String :=
  let name := rt.stripped (v.getD (.text ""))
  if name = "" then .error (.scheduler "Schedule name is required.") else .ok name

/-- The time zone. -/
def timezone (rt : Runtime) (v : Option Value) : Except Raised String := do
  let chosen := v.getD .null
  let name := if chosen.truthy then rt.stripped chosen else "UTC"
  rt.findZone (if name = "" then "UTC" else name)
  return name

/-- The schedule type. The text of a value that is no text is none of the five names. -/
def scheduleType (v : Option Value) : Except Raised ScheduleType :=
  let chosen := v.getD .null
  if !chosen.truthy then .ok .once
  else
    let found := match chosen with | .json (.str s) => ScheduleType.ofText s | _ => none
    match found with
    | some t => .ok t
    | none => .error (.scheduler "schedule_type must be once, daily, weekly, monthly, or interval.")

/-- A field that holds one of a few texts. -/
def choice {α : Type} (ofValue : Value → Option α) (message : String) : Option Value → Except Raised (Option α)
  | none => .ok none
  | some v =>
    match ofValue v with
    | some a => .ok (some a)
    | none => .error (.scheduler message)

/-- A field that holds an object. -/
def object (key : String) : Option Value → Except Raised (Option Json)
  | none => .ok none
  | some (.json (.obj kvs)) => .ok (some (.obj kvs))
  | some _ => .error (.scheduler (key ++ " must be an object."))

/-- The switch. -/
def enabled : Option Value → Except Raised (Option Bool)
  | none => .ok none
  | some (.json (.bool b)) => .ok (some b)
  | some _ => .error (.scheduler "enabled must be true or false.")

/-- A number between two bounds. -/
def bounded (rt : Runtime) (key : String) (low high : Nat) : Option Value → Except Raised (Option Nat)
  | none => .ok none
  | some v => do
    let n ← rt.toInt (key ++ " must be an integer.") v
    if n < low ∨ (high : Int) < n then
      .error (.scheduler (key ++ " must be between " ++ toString low ++ " and " ++ toString high ++ "."))
    else return some n.toNat

/-- `interval_seconds`. -/
def intervalSeconds (rt : Runtime) : Option Value → Except Raised (Option NumArg)
  | none => .ok none
  | some (.json .null) => .ok (some .null)
  | some (.json (.str "")) => .ok (some .blank)
  | some (.json (.bool _)) => .error (.scheduler "interval_seconds must be an integer >= 60.")
  | some v => do
    let n ← rt.toInt "interval_seconds must be an integer >= 60." v
    if n < minIntervalSeconds then .error (.scheduler "interval_seconds must be at least 60.") else return some (.int n.toNat)

/-- A weekday of a list. A truth value is a whole number. -/
def weekday : Json → Option Int
  | .bool b => some (Json.boolNum b)
  | .num n => if 0 ≤ n ∧ n ≤ 6 then some n else none
  | _ => none

/-- `weekdays`: sorted, each once. -/
def weekdays : Option Value → Except Raised (Option (List Int))
  | none => .ok none
  | some (.json (.arr xs)) =>
    match xs.mapM weekday with
    | some days => .ok (some (days.dedup.insertionSort (· ≤ ·)))
    | none => .error (.scheduler "weekdays must be an array of integers 0-6.")
  | some _ => .error (.scheduler "weekdays must be an array of integers 0-6.")

/-- `day_of_month`. -/
def dayOfMonth (rt : Runtime) : Option Value → Except Raised (Option NumArg)
  | none => .ok none
  | some (.json .null) => .ok (some .null)
  | some (.json (.str "")) => .ok (some .blank)
  | some v => do
    let n ← rt.toInt "day_of_month must be an integer 1-31." v
    if n < 1 ∨ 31 < n then .error (.scheduler "day_of_month must be between 1 and 31.") else return some (.int n.toNat)

/-- `MONTH_WEEKS`. -/
def monthWeeks : List Int := [1, 2, 3, 4, -1]

/-- `month_week` and `month_weekday`: a whole number that passes the test, or not set. -/
def monthPart (test : Int → Bool) (message : String) : Option Value → Except Raised (Option (Option Int))
  | none => .ok none
  | some (.json .null) => .ok (some none)
  | some (.json (.str "")) => .ok (some none)
  | some (.json (.num n)) => if test n then .ok (some (some n)) else .error (.scheduler message)
  | some _ => .error (.scheduler message)

/-- `month_week`. -/
def monthWeek : Option Value → Except Raised (Option (Option Int)) :=
  monthPart (fun n => n ∈ monthWeeks) "month_week must be 1, 2, 3, 4 (the first to the fourth) or -1 (the last)."

/-- `month_weekday`. -/
def monthWeekday : Option Value → Except Raised (Option (Option Int)) :=
  monthPart (fun n => decide (0 ≤ n ∧ n ≤ 6)) "month_weekday must be an integer 0-6 (0 is Monday, 6 is Sunday)."

/-- The two parts of the pair are sent together. -/
def pairSent : Option (Option Int) → Option (Option Int) → Bool
  | some week, some weekday => week.isNone == weekday.isNone
  | _, _ => true

end Check

/-- The text of the two refusals of half a pair. -/
def halfPairText : String := "month_week and month_weekday go together: send both or neither."

/-- `validate_schedule_payload`, which every caller calls with the whole payload. -/
def validateSchedulePayload (rt : Runtime) (p : Payload) : Except Raised ScheduleData := do
  let name ← Check.name rt p.name
  let action ← rt.getScheduledAction (rt.stripped (p.actionId.getD (.text "")))
  let timezone ← Check.timezone rt p.timezone
  let scheduleType ← Check.scheduleType p.scheduleType
  let targetMode ← Check.choice TargetMode.ofValue "target_mode must be snapshot or dynamic." p.targetMode
  let targets ← Check.object "targets" p.targets
  let parameters ← Check.object "parameters" p.parameters
  let enabled ← Check.enabled p.enabled
  let missedPolicy ← Check.choice MissedPolicy.ofValue "Invalid missed_policy." p.missedPolicy
  let concurrencyPolicy ← Check.choice ConcurrencyPolicy.ofValue "Invalid concurrency_policy." p.concurrencyPolicy
  let missedGraceMinutes ← Check.bounded rt "missed_grace_minutes" 0 43200 p.missedGraceMinutes
  let retryCount ← Check.bounded rt "retry_count" 0 10 p.retryCount
  let retryDelaySeconds ← Check.bounded rt "retry_delay_seconds" 1 86400 p.retryDelaySeconds
  let intervalSeconds ← Check.intervalSeconds rt p.intervalSeconds
  let weekdays ← Check.weekdays p.weekdays
  let dayOfMonth ← Check.dayOfMonth rt p.dayOfMonth
  let monthWeek ← Check.monthWeek p.monthWeek
  let monthWeekday ← Check.monthWeekday p.monthWeekday
  Raise.require (Check.pairSent monthWeek monthWeekday) (.scheduler halfPairText)
  return {
    name := name
    actionId := action.id
    moduleId := action.moduleId
    targetMode := targetMode
    targets := targets
    parameters := parameters
    scheduleType := scheduleType
    timezone := timezone
    runAt := p.runAt
    runTime := p.runTime
    weekdays := weekdays
    dayOfMonth := dayOfMonth
    monthWeek := monthWeek
    monthWeekday := monthWeekday
    intervalSeconds := intervalSeconds
    intervalAnchorAt := p.intervalAnchorAt
    enabled := enabled
    missedPolicy := missedPolicy
    missedGraceMinutes := missedGraceMinutes
    concurrencyPolicy := concurrencyPolicy
    retryCount := retryCount
    retryDelaySeconds := retryDelaySeconds }

/-- `check_monthly_shape`. -/
def checkMonthlyShape (d : ScheduleData) : Except Raised Unit :=
  let hasDay := (d.dayOfMonth.getD .null).truthy
  let week := d.monthWeek.join
  let weekday := d.monthWeekday.join
  let hasPair := week.isSome || weekday.isSome
  if d.scheduleType ≠ .monthly then .ok ()
  else if hasPair && (week.isNone || weekday.isNone) then .error (.scheduler halfPairText)
  else if hasDay && hasPair then
    .error (.scheduler "A monthly schedule uses day_of_month or month_week with month_weekday, not both.")
  else if !hasDay && !hasPair then
    .error (.scheduler "Monthly schedules require day_of_month, or month_week with month_weekday.")
  else .ok ()

/-- `switch_monthly_mode`. -/
def switchMonthlyMode (merged incoming : Payload) : Payload :=
  let sent (v : Option Value) : Bool := !(v.getD .null).unset
  let sentDay := sent incoming.dayOfMonth
  let sentPair := sent incoming.monthWeek || sent incoming.monthWeekday
  if merged.scheduleType ≠ some (.text "monthly") then
    { merged with dayOfMonth := some .null, monthWeek := some .null, monthWeekday := some .null }
  else if sentPair && !sentDay then { merged with dayOfMonth := some .null }
  else if sentDay && !sentPair then { merged with monthWeek := some .null, monthWeekday := some .null }
  else merged

end TecTac
