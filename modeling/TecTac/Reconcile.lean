import TecTac.ScheduleEdit

/-!
# The schedules of a module

`reconcile_schedule` of `scheduler.py`, by which a module creates, changes and switches off the schedules it owns. The
function assigns to the row in memory first and decides afterwards, so a call answers three things here: what it returns
or raises, how it leaves the row in memory, and the row it saved.
-/

namespace TecTac

/-- The arguments of `reconcile_schedule`, with their defaults. -/
structure ReconcileArgs where
  ownerModule : Value
  ownerKey : Value
  actionId : Value
  scheduleType : Value
  targets : Value := .null
  parameters : Value := .null
  enabled : Value := .json (.bool true)
  name : Value := .null
  timezoneName : Value := .text "UTC"
  runAt : Value := .null
  runTime : Value := .null
  weekdays : Value := .null
  dayOfMonth : Value := .null
  intervalSeconds : Value := .null
  intervalAnchorAt : Value := .null
  monthWeek : Value := .null
  monthWeekday : Value := .null
  targetMode : Value := .text "snapshot"
  missedPolicy : Value := .text "skip"
  missedGraceMinutes : Value := .int 60
  concurrencyPolicy : Value := .text "skip"
  retryCount : Value := .int 0
  retryDelaySeconds : Value := .int 60
  confirmationId : Option Value := none

/-- How a call ends: its answer, the row in memory as it leaves it when there was one, and the row it saved. -/
structure Reconciled where
  answer : Except Raised (Option Draft)
  memory : Option Draft
  saved : Option ScheduleRow := none

/-- `str(value or "").strip()`. -/
def strippedOr (rt : Runtime) (v : Value) : String := if v.truthy then rt.stripped v else ""

/-- `_validate_owner`. -/
def validateOwner (rt : Runtime) (ownerModule ownerKey : Value) : Except Raised (String × String) := do
  let module := strippedOr rt ownerModule
  let key := strippedOr rt ownerKey
  Raise.require (module != "") (.scheduler "owner_module is required.")
  Raise.require (key != "") (.scheduler "owner_key is required.")
  Raise.require (decide (module.length ≤ 100)) (.scheduler "owner_module exceeds 100 characters.")
  Raise.require (decide (key.length ≤ 255)) (.scheduler "owner_key exceeds 255 characters.")
  return (module, key)

/-- `is_one_off_key`. -/
def isOneOffKey (key : String) : Bool := "one-off:".isPrefixOf key

/-- The creator's name: the stored one, or that of the creator's row. -/
def creatorName (env : Env) (row : ScheduleRow) : String :=
  let stored := String.ofList (strip row.createdBy.toList)
  if stored = "" then String.ofList (strip (row.createdById.elim "" env.username).toList) else stored

/-- `_owner_differs`. -/
def ownerDiffers (env : Env) (row : ScheduleRow) (person : Person) : Bool :=
  match row.createdById with
  | some id => id != person.id
  | none => env.casefold (creatorName env row) != env.casefold person.username

/-- The owner, the action and the switch of a call, checked before the row is looked up. -/
structure Owned where
  module : String
  key : String
  action : Action
  enabled : Bool

/-- The checks that come before the row is looked up. -/
def reconcileOwner (env : Env) (a : ReconcileArgs) : Except Raised Owned := do
  let (module, key) ← validateOwner env.toRuntime a.ownerModule a.ownerKey
  Raise.require (!isOneOffKey key) (.scheduler "owner_key may not start with 'one-off:': that prefix is reserved to Core.")
  let action ← env.getScheduledAction (strippedOr env.toRuntime a.actionId)
  Raise.require (action.moduleId == module)
    (.scheduler ("Scheduled action '" ++ action.id ++ "' belongs to module '" ++ action.moduleId ++ "', not '" ++ module ++ "'."))
  match a.enabled with
  | .json (.bool enabled) => return ⟨module, key, action, enabled⟩
  | _ => .error (.scheduler "enabled must be true or false.")

/-- The anchor a call uses: the one it is given, or for an interval schedule the stored one or the current minute. -/
def reconcileAnchor (now : Int) (a : ReconcileArgs) (existing : Option ScheduleRow) : Value :=
  if a.scheduleType = .text "interval" ∧ a.intervalAnchorAt = .null then
    .ofMoment (some ((existing.bind (·.intervalAnchorAt)).getD (floorMinute now)))
  else a.intervalAnchorAt

/-- The payload a call builds. -/
def reconcilePayload (env : Env) (a : ReconcileArgs) (o : Owned) (existing : Option ScheduleRow) : Payload where
  name := some (.text (if a.name.truthy then env.str a.name else existing.elim (o.action.label ++ " · " ++ o.key) (·.name)))
  actionId := some (.text o.action.id)
  scheduleType := some a.scheduleType
  timezone := some a.timezoneName
  runAt := some a.runAt
  runTime := some a.runTime
  weekdays := some (if a.weekdays.truthy then a.weekdays else .json (.arr []))
  dayOfMonth := some a.dayOfMonth
  monthWeek := some a.monthWeek
  monthWeekday := some a.monthWeekday
  intervalSeconds := some a.intervalSeconds
  targetMode := some a.targetMode
  targets := some (if a.targets.truthy then a.targets else .json (.obj [("type", .str o.action.targetType)]))
  parameters := some (if a.parameters.truthy then a.parameters else .json .empty)
  enabled := some (.json (.bool o.enabled))
  missedPolicy := some a.missedPolicy
  missedGraceMinutes := some a.missedGraceMinutes
  concurrencyPolicy := some a.concurrencyPolicy
  retryCount := some a.retryCount
  retryDelaySeconds := some a.retryDelaySeconds

/-- The data of a call: the payload, checked. -/
def reconcileData (env : Env) (a : ReconcileArgs) (o : Owned) (existing : Option ScheduleRow) :
    Except Raised ScheduleData := do
  let data ← validateSchedulePayload env.toRuntime (reconcilePayload env a o existing)
  let targets ← env.normalizeTargets (data.targets.getD .null)
  let data := { data with targets := some targets }
  requireTimes data
  requireWeekday data
  checkMonthlyShape data
  requireInterval data
  requireTargetType env.toRuntime o.action data.targets
  return data

/-! ## The assignments -/

/-- The columns that are in the data, and the owner. -/
def Draft.assign (o : Owned) (d : ScheduleData) (s : Draft) : Draft :=
  let set := s.setFields d
  { set with row := { set.row with ownerType := .module, ownerModule := o.module, ownerKey := o.key } }

/-- `_as_utc(anchor) if anchor else None`. -/
def anchorAttribute : Value → Except Raised Value
  | .datetime d => .ok (.datetime ⟨d.wall - d.offset.getD 0, some 0⟩)
  | v => if v.truthy then .error (.other "AttributeError") else .ok .null

/-- `==` on two datetimes: two that have an offset are compared by their moment. -/
def Datetime.same (a b : Datetime) : Bool :=
  match a.offset, b.offset with
  | some x, some y => a.wall - x == b.wall - y
  | none, none => a.wall == b.wall
  | _, _ => false

/-- `==` on two values. -/
def Value.same : Value → Value → Bool
  | .json a, .json b => a.same b
  | .datetime a, .datetime b => a.same b
  | a, b => a == b

/-- `previous_signature == new_signature`. -/
def Draft.sameSignature (s t : Draft) : Bool :=
  s.row.scheduleType == t.row.scheduleType && s.intervalSeconds == t.intervalSeconds &&
    s.intervalAnchorAt.same t.intervalAnchorAt && s.runAt.same t.runAt && s.runTime.same t.runTime &&
    s.row.weekdays == t.row.weekdays && s.dayOfMonth == t.dayOfMonth && s.row.enabled == t.row.enabled &&
    s.row.monthWeek == t.row.monthWeek && s.row.monthWeekday == t.row.monthWeekday

/-- The assignments after the anchor: the interval of another type is cleared, the targets are valid, and a new signature
forgets the last due key. -/
def Draft.complete (o : Owned) (anchor : Value) (previous : Option Draft) (s : Draft) : Draft :=
  let cleared := { s with intervalAnchorAt := anchor }.clearInterval
  let valid := { cleared with row := { cleared.row with moduleId := o.action.moduleId } }.markValid
  if previous.any fun p => !p.sameSignature valid then { valid with row := { valid.row with lastDueKey := none } } else valid

/-- The locked fields before `run_at`, in the order of `_LOCKED_FIELDS`, differ. -/
def Draft.earlyChanged (s t : Draft) : Bool :=
  t.row.actionId != s.row.actionId || t.row.targetMode != s.row.targetMode || !t.row.targets.same s.row.targets ||
    !t.row.parameters.same s.row.parameters || t.row.scheduleType != s.row.scheduleType || t.row.timezone != s.row.timezone

/-- The locked fields after `run_time` differ. -/
def Draft.lateChanged (s t : Draft) : Bool :=
  t.row.weekdays != s.row.weekdays || t.dayOfMonth != s.dayOfMonth || t.row.monthWeek != s.row.monthWeek ||
    t.row.monthWeekday != s.row.monthWeekday || t.intervalSeconds != s.intervalSeconds ||
    t.intervalAnchorAt != s.intervalAnchorAt || t.row.enabled != s.row.enabled || t.row.missedPolicy != s.row.missedPolicy ||
    t.row.missedGraceMinutes != s.row.missedGraceMinutes || t.row.concurrencyPolicy != s.row.concurrencyPolicy ||
    t.row.retryCount != s.row.retryCount || t.row.retryDelaySeconds != s.row.retryDelaySeconds

/-- `any(_comparable(name, getattr(schedule, name)) != value ...)` over `_LOCKED_FIELDS`: the first difference ends it, and
a text time that is no time raises. -/
def lockedChanged (rt : Runtime) (s t : Draft) : Except Raised Bool :=
  if s.earlyChanged t then .ok true
  else do
    let runAt ← timeChanged (comparableMoment rt) (some t.runAt) s.runAt
    if runAt then return true
    let runTime ← timeChanged (comparableTime rt) (some t.runTime) s.runTime
    if runTime then return true
    return s.lateChanged t

/-- Put the locked fields, the name, the module, the target state and the last due key back. -/
def Draft.restore (saved s : Draft) : Draft where
  row := { s.row with
    name := saved.row.name
    moduleId := saved.row.moduleId
    actionId := saved.row.actionId
    targetMode := saved.row.targetMode
    targets := saved.row.targets
    targetState := saved.row.targetState
    targetStateDetail := saved.row.targetStateDetail
    parameters := saved.row.parameters
    scheduleType := saved.row.scheduleType
    timezone := saved.row.timezone
    weekdays := saved.row.weekdays
    monthWeek := saved.row.monthWeek
    monthWeekday := saved.row.monthWeekday
    enabled := saved.row.enabled
    missedPolicy := saved.row.missedPolicy
    missedGraceMinutes := saved.row.missedGraceMinutes
    concurrencyPolicy := saved.row.concurrencyPolicy
    retryCount := saved.row.retryCount
    retryDelaySeconds := saved.row.retryDelaySeconds
    lastDueKey := saved.row.lastDueKey }
  runAt := saved.runAt
  runTime := saved.runTime
  intervalAnchorAt := saved.intervalAnchorAt
  intervalSeconds := saved.intervalSeconds
  dayOfMonth := saved.dayOfMonth

/-- The refusal of a change to a person's schedule. -/
def personSchedule : Raised :=
  .scheduler ("This schedule was created by a person. A module can switch it off or leave it as it is, but only that person's " ++
    "own request can change its action, targets, parameters, timing or switch it back on.")

/-! ## The call -/

/-- The row a call creates when there is none. -/
def newModuleRow (o : Owned) (id : String) (now : Int) : ScheduleRow where
  id := id
  name := ""
  moduleId := ""
  actionId := ""
  scheduleType := .once
  ownerType := .module
  ownerModule := o.module
  ownerKey := o.key
  updatedAt := now

/-- What a call with a person's request writes about the person. -/
def Draft.confirmedBy (env : Env) (person : Person) (existing : Option ScheduleRow) (takeover : Bool) (s : Draft) : Draft :=
  let firstTime := existing.all fun row => creatorName env row == ""
  let own := existing.any fun row => !ownerDiffers env row person
  let row := if firstTime || takeover then { s.row with createdById := some person.id, createdBy := person.name } else s.row
  let row := { row with updatedById := some person.id, confirmedBy := person.name }
  { s with row := if firstTime || takeover || own then { row with creationScope := env.captureScope person } else row }

/-- Save the row of a call that is allowed to change it. -/
def saveReconciled (env : Env) (now : Int) (fault : Option Raised) (loaded : Option Draft) (s : Draft) : Reconciled :=
  match s.save env.toRuntime fault now with
  | .ok row => ⟨.ok (some s), loaded.map fun _ => s, some row⟩
  | .error e => ⟨.error e, loaded.map fun _ => s, none⟩

/-- The call from the assignments on. `person` is the person behind the call, with whether the ownership moves. -/
def reconcileAssign (env : Env) (now : Int) (fault : Option Raised) (a : ReconcileArgs) (o : Owned)
    (existing : Option ScheduleRow) (id : String) (data : ScheduleData) (person : Option (Person × Bool)) : Reconciled :=
  let loaded := existing.map Draft.ofRow
  let assigned := (loaded.getD (.ofRow (newModuleRow o id now))).assign o data
  let memory (s : Draft) : Option Draft := loaded.map fun _ => s
  match anchorAttribute (reconcileAnchor now a existing) with
  | .error e => ⟨.error e, memory assigned, none⟩
  | .ok anchor =>
    let s := assigned.complete o anchor loaded
    let changed : Except Raised Bool :=
      match loaded with
      | none => .ok true
      | some before => lockedChanged env.toRuntime before s
    match changed, person with
    | .error e, _ => ⟨.error e, memory s, none⟩
    | .ok changed, none =>
      match loaded with
      | none => saveReconciled env now fault loaded s
      | some before =>
        if creatorName env before.row = "" then saveReconciled env now fault loaded s
        else if changed then ⟨.error personSchedule, some (before.restore s), none⟩
        else ⟨.ok (some s), some s, none⟩
    | .ok _, some (person, takeover) =>
      saveReconciled env now fault loaded (s.confirmedBy env person existing takeover)

/-- What a call with a person's request checks before it assigns: the data, and whether the ownership moves. -/
def reconcilePerson (env : Env) (a : ReconcileArgs) (o : Owned) (existing : Option ScheduleRow) (data : ScheduleData)
    (request : Except Raised Person) : Except Raised (ScheduleData × Person × Bool) := do
  let person ← request
  let targets := data.targets.getD .null
  env.requirePerson person o.action targets
  let takeover := o.enabled && existing.any fun row => creatorName env row != "" && ownerDiffers env row person
  Raise.require (!takeover || env.coversTargets person targets o.action.moduleId) .takeover
  if o.enabled then env.requireCreation person o.action data a.confirmationId
  let targets ← env.canonicalizeTargets person targets
  return ({ data with targets := some targets }, person, takeover)

/-- A module switches off a person's schedule: only `enabled` changes. -/
def switchPersonOff (now : Int) (fault : Option Raised) (row : ScheduleRow) : Reconciled :=
  if row.enabled then
    let off := { Draft.ofRow row with row := { row with enabled := false } }
    match fault with
    | some e => ⟨.error e, some off, none⟩
    | none => ⟨.ok (some off), some off, some { row with enabled := false, updatedAt := now }⟩
  else ⟨.ok (some (.ofRow row)), some (.ofRow row), none⟩

/-- `reconcile_schedule`, for the row of the owner and key if there is one. `request` is what `_verified_person` makes of
`confirmed_by_request`, if one is given; `removed` says that an administrator removed the schedule; `id` is the id a new
row gets. -/
def reconcileRow (env : Env) (now : Int) (fault : Option Raised) (a : ReconcileArgs) (o : Owned)
    (request : Option (Except Raised Person)) (removed : Bool) (id : String) (existing : Option ScheduleRow) : Reconciled :=
  let untouched (answer : Except Raised (Option Draft)) : Reconciled := ⟨answer, existing.map Draft.ofRow, none⟩
  if existing.isNone && (!o.enabled || request.isNone && removed) then untouched (.ok none)
  else
    match reconcileData env a o existing with
    | .error e => untouched (.error e)
    | .ok data =>
      match request with
      | some request =>
        match reconcilePerson env a o existing data request with
        | .error e => untouched (.error e)
        | .ok (data, person, takeover) => reconcileAssign env now fault a o existing id data (some (person, takeover))
      | none =>
        match existing with
        | some row =>
          if creatorName env row ≠ "" ∧ o.enabled = false then switchPersonOff now fault row
          else reconcileAssign env now fault a o existing id data none
        | none => reconcileAssign env now fault a o existing id data none

end TecTac
