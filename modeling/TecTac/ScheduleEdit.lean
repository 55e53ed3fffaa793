import TecTac.Payload

/-!
# Creating and editing a schedule

`POST` and `PATCH` of `scheduler_views.py`. A row in memory may hold, in five of its columns, a value that only the
save turns into what the column stores, so a row in memory is a `Draft`. What a request is allowed is asked of an `Env`:
the permissions, the Tactical scope, the target shapes and the confirmation of a system action are decided elsewhere.
-/

namespace TecTac

/-! ## Rows -/

/-- A schedule row with the columns that say whose it is. `createdBy` is `created_by_username`. -/
structure ScheduleRow extends Schedule where
  createdById : Option Nat := none
  updatedById : Option Nat := none
  confirmedBy : String := ""
  creationScope : Json := .empty
  deriving DecidableEq

/-- A row in memory: the typed columns, and beside them the five that may hold any value until the save. The columns of
these names in `row` are those of the last save. -/
structure Draft where
  row : ScheduleRow
  runAt : Value
  runTime : Value
  intervalAnchorAt : Value
  intervalSeconds : NumArg
  dayOfMonth : NumArg
  deriving DecidableEq

/-- A stored moment as it is loaded. -/
def Value.ofMoment : Option Int → Value
  | none => .null
  | some t => .datetime ⟨t, some 0⟩

/-- A stored time of day as it is loaded. -/
def Value.ofRunTime : Option RunTime → Value
  | none => .null
  | some t => .time { t with }

/-- A stored number as it is loaded. -/
def NumArg.ofNat? : Option Nat → NumArg
  | none => .null
  | some n => .int n

/-- A row as it is loaded. -/
def Draft.ofRow (row : ScheduleRow) : Draft where
  row := row
  runAt := .ofMoment row.runAt
  runTime := .ofRunTime row.runTime
  intervalAnchorAt := .ofMoment row.intervalAnchorAt
  intervalSeconds := .ofNat? row.intervalSeconds
  dayOfMonth := .ofNat? row.dayOfMonth

/-! ## Saving -/

/-- The moment of a datetime that is stored: a naive one is taken in the server's own zone. -/
def Datetime.stored (rt : Runtime) (d : Datetime) : Int :=
  match d.offset with
  | some o => d.wall - o
  | none => rt.makeAware d.wall

/-- The time of day of a datetime. -/
def Datetime.runTime (d : Datetime) : RunTime where
  hour := (d.wall % dayMicros / 3600000000).toNat
  minute := (d.wall % 3600000000 / 60000000).toNat
  hour_lt := by
    unfold dayMicros
    omega
  minute_lt := by omega

/-- What a `DateTimeField` stores. -/
def momentColumn (rt : Runtime) : Value → Except Raised (Option Int)
  | .json .null => .ok none
  | .datetime d => .ok (some (d.stored rt))
  | .json (.str s) =>
    match rt.parseDatetime s with
    | .ok (some d) => .ok (some (d.stored rt))
    | _ => .error (.other "ValidationError")
  | _ => .error (.other "TypeError")

/-- What a `TimeField` stores. -/
def timeColumn (rt : Runtime) : Value → Except Raised (Option RunTime)
  | .json .null => .ok none
  | .time t => .ok (some t.toRunTime)
  | .datetime d => .ok (some d.runTime)
  | .json (.str s) =>
    match rt.parseTime s with
    | .ok (some t) => .ok (some t.toRunTime)
    | _ => .error (.other "ValidationError")
  | _ => .error (.other "TypeError")

/-- What an integer field stores. -/
def numColumn : NumArg → Except Raised (Option Nat)
  | .null => .ok none
  | .blank => .error (.other "ValueError")
  | .int n => .ok (some n)

/-- `schedule.save()`. `fault` is what the database raises, if it does: a text that is too long, a number out of the
column's range, a lost connection, an audit row that cannot be written in the same transaction. -/
def Draft.save (rt : Runtime) (fault : Option Raised) (now : Int) (d : Draft) : Except Raised ScheduleRow := do
  let runAt ← momentColumn rt d.runAt
  let runTime ← timeColumn rt d.runTime
  let intervalAnchorAt ← momentColumn rt d.intervalAnchorAt
  let intervalSeconds ← numColumn d.intervalSeconds
  let dayOfMonth ← numColumn d.dayOfMonth
  match fault with
  | some e => .error e
  | none =>
    return { d.row with
      runAt := runAt
      runTime := runTime
      intervalAnchorAt := intervalAnchorAt
      intervalSeconds := intervalSeconds
      dayOfMonth := dayOfMonth
      updatedAt := now }

/-! ## What an edit changes -/

/-- `_EDIT_FIELDS`. -/
inductive EditField where
  | actionId | targetMode | targets | parameters | scheduleType | timezone | runAt | runTime | weekdays | dayOfMonth
  | monthWeek | monthWeekday | intervalSeconds
  deriving DecidableEq, Repr

/-- What `_comparable` answers for a time: a time of day without its seconds, a datetime, or the value itself. -/
inductive Comparable where
  | time (hour minute : Nat)
  | moment (d : Datetime)
  | value (v : Value)
  deriving DecidableEq

/-- `_comparable("run_time", value)`. -/
def comparableTime (rt : Runtime) : Value → Except Raised Comparable
  | .json (.str s) => do
    match ← rt.parseTime s with
    | some t => return .time t.hour t.minute
    | none => return .value (.text s)
  | .time t => .ok (.time t.hour t.minute)
  | .datetime d => .ok (.moment d)
  | v => .ok (.value v)

/-- `_comparable("run_at", value)` and `_comparable("interval_anchor_at", value)`. -/
def comparableMoment (rt : Runtime) : Value → Except Raised Comparable
  | .json (.str s) => do
    match ← rt.parseDatetime s with
    | some d => return .moment d
    | none => return .value (.text s)
  | .datetime d => .ok (.moment d)
  | v => .ok (.value v)

/-- The field is sent and its two values compare unequal. -/
def timeChanged (comparable : Value → Except Raised Comparable) (new : Option Value) (old : Value) : Except Raised Bool :=
  match new with
  | none => .ok false
  | some v => do
    let a ← comparable v
    let b ← comparable old
    return a != b

/-- `_edit_value`, for the monthly fields: they mean something on a monthly schedule only. -/
def monthlyValue {α : Type} (t : ScheduleType) (v : α) : Option α := if t = .monthly then some v else none

/-- `_changed_edit_fields`. -/
def changedEditFields (rt : Runtime) (s : Draft) (d : ScheduleData) : Except Raised (List EditField) := do
  let old := s.row.scheduleType
  let new := d.scheduleType
  let pick (c : Bool) (f : EditField) : List EditField := if c then [f] else []
  let runAt ← timeChanged (comparableMoment rt) d.runAt s.runAt
  let runTime ← timeChanged (comparableTime rt) d.runTime s.runTime
  return pick (d.actionId != s.row.actionId) .actionId ++
    pick (d.targetMode.any (· != s.row.targetMode)) .targetMode ++
    pick (d.targets.any fun j => !j.same s.row.targets) .targets ++
    pick (d.parameters.any fun j => !j.same s.row.parameters) .parameters ++
    pick (new != old) .scheduleType ++
    pick (d.timezone != s.row.timezone) .timezone ++
    pick runAt .runAt ++
    pick runTime .runTime ++
    pick (d.weekdays.any (· != s.row.weekdays)) .weekdays ++
    pick (d.dayOfMonth.any fun v => monthlyValue new v != monthlyValue old s.dayOfMonth) .dayOfMonth ++
    pick (d.monthWeek.any fun v => monthlyValue new v != monthlyValue old s.row.monthWeek) .monthWeek ++
    pick (d.monthWeekday.any fun v => monthlyValue new v != monthlyValue old s.row.monthWeekday) .monthWeekday ++
    pick (d.intervalSeconds.any (· != s.intervalSeconds)) .intervalSeconds

/-! ## What is decided elsewhere -/

/-- A signed-in person. -/
structure Person where
  id : Nat
  username : String
  deriving DecidableEq

/-- The name of a person as it is stored. -/
def Person.name (u : Person) : String := String.ofList (u.username.toList.take 150)

/-- The checks and lookups the writers ask for. `requireAction` is `_require_action`, `requirePerson` is
`_check_person_may_schedule`, and `coversTargets` is the check of a person's own scope with no bypass for a manager. -/
structure Env extends Runtime where
  username : Nat → String
  manager : Person → Bool
  getObject : Person → ScheduleRow → Except Raised Unit
  requireAction : Person → String → Except Raised Action
  normalizeTargets : Json → Except Raised Json
  canonicalizeTargets : Person → Json → Except Raised Json
  requireTargetScope : Person → Json → String → Except Raised Unit
  requirePerson : Person → Action → Json → Except Raised Unit
  coversTargets : Person → Json → String → Bool
  requireCreation : Person → Action → ScheduleData → Option Value → Except Raised Unit
  captureScope : Person → Json
  casefold : String → String

/-- `_parse_fields`, for one field that holds a time: blank is `None`, and a text is parsed. -/
def parseField {α : Type} (parse : String → Except Raised (Option α)) (toValue : α → Value) (message : String) :
    Option Value → Except Raised (Option Value)
  | none => .ok none
  | some v =>
    if v.unset then .ok (some .null)
    else
      match v with
      | .json (.str s) => do
        match ← parse s with
        | some a => return some (toValue a)
        | none => .error (.scheduler message)
      | v => .ok (some v)

/-- `_parse_fields`. -/
def parseFields (rt : Runtime) (p : Payload) : Except Raised Payload := do
  let runAt ← parseField rt.parseDatetime .datetime "run_at must be an ISO-8601 datetime." p.runAt
  let anchor ← parseField rt.parseDatetime .datetime "interval_anchor_at must be an ISO-8601 datetime." p.intervalAnchorAt
  let runTime ← parseField rt.parseTime .time "run_time must be an HH:MM time." p.runTime
  return { p with runAt := runAt, intervalAnchorAt := anchor, runTime := runTime }

/-- `_system_action_creation` of the views. -/
def systemActionCreation (env : Env) (user : Person) (action : Action) (d : ScheduleData) (confirmationId : Option Value)
    (schedule : Option Draft) : Except Raised Unit :=
  if !(d.enabled.getD true) then .ok ()
  else
    match schedule with
    | none => env.requireCreation user action d confirmationId
    | some s => do
      let changed ← changedEditFields env.toRuntime s d
      if s.row.enabled && changed.isEmpty then return () else env.requireCreation user action d confirmationId

/-- The target type of an action's targets. -/
def targetType (rt : Runtime) (targets : Option Json) : String :=
  match targets with
  | some (.obj kvs) =>
    match Dict.get "type" kvs with
    | some j => if (Value.json j).truthy then rt.str (.json j) else "none"
    | none => "none"
  | _ => "none"

/-- The refusal of a target type the action does not support. -/
def requireTargetType (rt : Runtime) (action : Action) (targets : Option Json) : Except Raised Unit :=
  let type := targetType rt targets
  Raise.require (decide (type ∈ action.targetTypes))
    (.scheduler ("Action " ++ action.id ++ " does not support target type '" ++ type ++ "'."))

/-- The value is set to something that is not false, zero or empty. -/
def isSet (v : Option Value) : Bool := v.any Value.truthy

/-- The shape rules that both the views and the modules' path have: when a one-time, a calendar and a weekly schedule
runs. -/
def requireTimes (d : ScheduleData) : Except Raised Unit := do
  Raise.require (!(d.scheduleType == .once) || isSet d.runAt) (.scheduler "A one-time schedule requires run_at.")
  Raise.require (!(d.scheduleType ∈ [ScheduleType.daily, .weekly, .monthly]) || isSet d.runTime)
    (.scheduler "Recurring calendar schedules require run_time.")

/-- A weekly schedule has a weekday. -/
def requireWeekday (d : ScheduleData) : Except Raised Unit :=
  Raise.require (!(d.scheduleType == .weekly) || d.weekdays.any (· != []))
    (.scheduler "Weekly schedules require at least one weekday.")

/-- An interval schedule has a length. -/
def requireInterval (d : ScheduleData) : Except Raised Unit :=
  Raise.require (!(d.scheduleType == .interval) || (d.intervalSeconds.getD .null).truthy)
    (.scheduler "Interval schedules require interval_seconds.")

/-- `_validate_shape`. -/
def validateShape (rt : Runtime) (d : ScheduleData) : Except Raised Unit := do
  requireTimes d
  requireInterval d
  Raise.require (!(d.scheduleType == .interval) || isSet d.intervalAnchorAt)
    (.scheduler "Interval schedules require interval_anchor_at.")
  requireWeekday d
  checkMonthlyShape d
  let action ← rt.getScheduledAction d.actionId
  requireTargetType rt action d.targets

/-! ## The two requests -/

/-- Set the columns that are in the data: the loop that `_apply_schedule_fields` and `reconcile_schedule` share, without
`interval_anchor_at`. -/
def Draft.setFields (d : ScheduleData) (s : Draft) : Draft where
  row := { s.row with
    name := d.name
    moduleId := d.moduleId
    actionId := d.actionId
    targetMode := d.targetMode.getD s.row.targetMode
    targets := d.targets.getD s.row.targets
    parameters := d.parameters.getD s.row.parameters
    scheduleType := d.scheduleType
    timezone := d.timezone
    weekdays := d.weekdays.getD s.row.weekdays
    monthWeek := d.monthWeek.getD s.row.monthWeek
    monthWeekday := d.monthWeekday.getD s.row.monthWeekday
    enabled := d.enabled.getD s.row.enabled
    missedPolicy := d.missedPolicy.getD s.row.missedPolicy
    missedGraceMinutes := d.missedGraceMinutes.getD s.row.missedGraceMinutes
    concurrencyPolicy := d.concurrencyPolicy.getD s.row.concurrencyPolicy
    retryCount := d.retryCount.getD s.row.retryCount
    retryDelaySeconds := d.retryDelaySeconds.getD s.row.retryDelaySeconds }
  runAt := d.runAt.getD s.runAt
  runTime := d.runTime.getD s.runTime
  intervalAnchorAt := s.intervalAnchorAt
  intervalSeconds := d.intervalSeconds.getD s.intervalSeconds
  dayOfMonth := d.dayOfMonth.getD s.dayOfMonth

/-- A schedule that is not an interval schedule keeps no interval. -/
def Draft.clearInterval (s : Draft) : Draft :=
  if s.row.scheduleType = .interval then s else { s with intervalSeconds := .null, intervalAnchorAt := .null }

/-- A schedule that is not monthly keeps none of the three monthly fields. -/
def Draft.clearMonthly (s : Draft) : Draft :=
  if s.row.scheduleType = .monthly then s
  else { s with dayOfMonth := .null, row := { s.row with monthWeek := none, monthWeekday := none } }

/-- `_apply_schedule_fields`. -/
def Draft.applyScheduleFields (d : ScheduleData) (s : Draft) : Draft :=
  let set := s.setFields d
  { set with intervalAnchorAt := d.intervalAnchorAt.getD s.intervalAnchorAt }.clearInterval.clearMonthly

/-- The new targets are valid. -/
def Draft.markValid (s : Draft) : Draft := { s with row := { s.row with targetState := "valid", targetStateDetail := "" } }

/-- The defaults that `post` sets, with the anchor of an interval schedule. -/
def postDefaults (now : Int) (action : Action) (d : ScheduleData) : ScheduleData :=
  { d with
    targets := some (d.targets.getD (.obj [("type", .str action.targetType)]))
    parameters := some (d.parameters.getD .empty)
    targetMode := some (d.targetMode.getD .snapshot)
    enabled := some (d.enabled.getD true)
    missedPolicy := some (d.missedPolicy.getD .skip)
    missedGraceMinutes := some (d.missedGraceMinutes.getD 60)
    concurrencyPolicy := some (d.concurrencyPolicy.getD .skip)
    retryCount := some (d.retryCount.getD 0)
    retryDelaySeconds := some (d.retryDelaySeconds.getD 60)
    intervalAnchorAt :=
      if d.scheduleType = .interval ∧ isSet d.intervalAnchorAt = false then some (.ofMoment (some (floorMinute now)))
      else d.intervalAnchorAt }

/-- The row `post` starts from. -/
def newUserRow (env : Env) (user : Person) (id : String) (now : Int) : ScheduleRow where
  id := id
  name := ""
  moduleId := ""
  actionId := ""
  scheduleType := .once
  ownerType := .user
  createdBy := user.name
  createdById := some user.id
  updatedById := some user.id
  confirmedBy := user.name
  creationScope := env.captureScope user
  updatedAt := now

/-- `SchedulerListView.post`: the row it saves. -/
def post (env : Env) (now : Int) (user : Person) (payload : Payload) (confirmationId : Option Value) (id : String)
    (fault : Option Raised) : Except Raised ScheduleRow := do
  let incoming ← parseFields env.toRuntime payload
  let data ← validateSchedulePayload env.toRuntime incoming
  let action ← env.requireAction user data.actionId
  let data := postDefaults now action data
  let targets ← env.normalizeTargets (data.targets.getD .null)
  let data := { data with targets := some targets }
  systemActionCreation env user action data confirmationId none
  let targets ← env.canonicalizeTargets user targets
  let data := { data with targets := some targets }
  validateShape env.toRuntime data
  env.requireTargetScope user targets action.moduleId
  ((Draft.ofRow (newUserRow env user id now)).applyScheduleFields data).markValid.save env.toRuntime fault now

/-- The payload that `patch` starts from: every stored field. -/
def Payload.ofDraft (s : Draft) : Payload where
  name := some (.text s.row.name)
  actionId := some (.text s.row.actionId)
  targetMode := some (.text s.row.targetMode.text)
  targets := some (.json s.row.targets)
  parameters := some (.json s.row.parameters)
  scheduleType := some (.text s.row.scheduleType.text)
  timezone := some (.text s.row.timezone)
  runAt := some s.runAt
  runTime := some s.runTime
  weekdays := some (.json (.arr (s.row.weekdays.map .num)))
  dayOfMonth := some (match s.dayOfMonth with | .null => .null | .blank => .text "" | .int n => .int n)
  monthWeek := some (s.row.monthWeek.elim .null .int)
  monthWeekday := some (s.row.monthWeekday.elim .null .int)
  intervalSeconds := some (match s.intervalSeconds with | .null => .null | .blank => .text "" | .int n => .int n)
  intervalAnchorAt := some s.intervalAnchorAt
  enabled := some (.json (.bool s.row.enabled))
  missedPolicy := some (.text s.row.missedPolicy.text)
  missedGraceMinutes := some (.int s.row.missedGraceMinutes)
  concurrencyPolicy := some (.text s.row.concurrencyPolicy.text)
  retryCount := some (.int s.row.retryCount)
  retryDelaySeconds := some (.int s.row.retryDelaySeconds)

/-- `merged.update(incoming)`. -/
def Payload.update (merged incoming : Payload) : Payload where
  name := incoming.name <|> merged.name
  actionId := incoming.actionId <|> merged.actionId
  targetMode := incoming.targetMode <|> merged.targetMode
  targets := incoming.targets <|> merged.targets
  parameters := incoming.parameters <|> merged.parameters
  scheduleType := incoming.scheduleType <|> merged.scheduleType
  timezone := incoming.timezone <|> merged.timezone
  runAt := incoming.runAt <|> merged.runAt
  runTime := incoming.runTime <|> merged.runTime
  weekdays := incoming.weekdays <|> merged.weekdays
  dayOfMonth := incoming.dayOfMonth <|> merged.dayOfMonth
  monthWeek := incoming.monthWeek <|> merged.monthWeek
  monthWeekday := incoming.monthWeekday <|> merged.monthWeekday
  intervalSeconds := incoming.intervalSeconds <|> merged.intervalSeconds
  intervalAnchorAt := incoming.intervalAnchorAt <|> merged.intervalAnchorAt
  enabled := incoming.enabled <|> merged.enabled
  missedPolicy := incoming.missedPolicy <|> merged.missedPolicy
  missedGraceMinutes := incoming.missedGraceMinutes <|> merged.missedGraceMinutes
  concurrencyPolicy := incoming.concurrencyPolicy <|> merged.concurrencyPolicy
  retryCount := incoming.retryCount <|> merged.retryCount
  retryDelaySeconds := incoming.retryDelaySeconds <|> merged.retryDelaySeconds

/-- The action and the data of a `patch`, up to its last check: the stored fields and the sent ones, merged and checked.
-/
def patchData (env : Env) (user : Person) (row : ScheduleRow) (payload : Payload) (confirmationId : Option Value) :
    Except Raised (Action × ScheduleData) := do
  let schedule := Draft.ofRow row
  let incoming ← parseFields env.toRuntime payload
  let merged := switchMonthlyMode ((Payload.ofDraft schedule).update incoming) incoming
  let data ← validateSchedulePayload env.toRuntime merged
  let action ← env.requireAction user data.actionId
  let targets ← env.normalizeTargets (data.targets.getD .null)
  let data := { data with targets := some targets }
  systemActionCreation env user action data confirmationId (some schedule)
  let targets ← env.canonicalizeTargets user targets
  let data := { data with targets := some targets }
  validateShape env.toRuntime data
  env.requireTargetScope user targets action.moduleId
  return (action, data)

/-- What `patch` decides about the ownership: whether the request edits, and whether it takes the schedule over. -/
structure EditDecision where
  edited : Bool
  otherPerson : Bool
  takeover : Bool

/-- The ownership rule of `patch`. -/
def editDecision (env : Env) (user : Person) (row : ScheduleRow) (data : ScheduleData) : Except Raised EditDecision := do
  let changed ← changedEditFields env.toRuntime (Draft.ofRow row) data
  let enabled := data.enabled.getD row.enabled
  let turnedOn := enabled && !row.enabled
  let edited := !changed.isEmpty || turnedOn
  let otherPerson := row.createdById != some user.id
  return ⟨edited, otherPerson, edited && otherPerson && enabled⟩

/-- What `patch` writes about the person. -/
def Draft.signedBy (env : Env) (user : Person) (decision : EditDecision) (s : Draft) : Draft :=
  let row := { s.row with updatedById := some user.id }
  let row := { row with createdBy := if row.createdBy = "" then row.createdById.elim "" env.username else row.createdBy }
  let row := if decision.takeover then { row with createdById := some user.id, createdBy := user.name } else row
  let row :=
    if decision.takeover || (decision.edited && !decision.otherPerson) then
      { row with creationScope := env.captureScope user }
    else row
  { s with row := { row with confirmedBy := user.name, lastDueKey := none } }

/-- `SchedulerDetailView.patch`: the row it saves. -/
def patch (env : Env) (now : Int) (user : Person) (row : ScheduleRow) (payload : Payload) (confirmationId : Option Value)
    (fault : Option Raised) : Except Raised ScheduleRow := do
  env.getObject user row
  Raise.require (row.ownerType != .module)
    (.denied ("Schedule is managed by module '" ++ row.ownerModule ++ "'. Change it from the owning module instead."))
  Raise.require (env.manager user || row.createdById == some user.id)
    (.denied "Only the schedule owner or a scheduler manager may change this user schedule.")
  let (action, data) ← patchData env user row payload confirmationId
  let decision ← editDecision env user row data
  Raise.require (!decision.takeover || env.coversTargets user (data.targets.getD .null) action.moduleId) .takeover
  let applied := ((Draft.ofRow row).applyScheduleFields data).markValid
  (applied.signedBy env user decision).save env.toRuntime fault now

end TecTac
