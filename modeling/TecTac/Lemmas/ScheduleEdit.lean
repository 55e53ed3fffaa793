import TecTac.Reconcile
import TecTac.Lemmas.Payload

/-!
# What a save stores

`StoredFrom` says of each column what the save made of the row in memory. The examples of the theorems about the writers are
runs of the small installation at the end.
-/

namespace TecTac

open Raise

/-- A day that is not set is stored as none. -/
theorem numColumn_of_not_truthy {v : NumArg} {r : Option Nat} (h : numColumn v = .ok r) (hv : v = .null ∨ v = .blank) :
    r = none := by
  rcases hv with rfl | rfl
  · cases h
    rfl
  · cases h

/-- What is not null is stored as a moment. -/
theorem momentColumn_isSome {rt : Runtime} {v : Value} {r : Option Int} (h : momentColumn rt v = .ok r) (hv : v ≠ .null) :
    ∃ t, r = some t := by
  unfold momentColumn at h
  split at h
  · exact absurd rfl hv
  · cases h
    exact ⟨_, rfl⟩
  · split at h
    · cases h
      exact ⟨_, rfl⟩
    · cases h
  · cases h

/-- What the save makes of a row in memory. -/
structure StoredFrom (rt : Runtime) (s : Draft) (row : ScheduleRow) : Prop where
  runAt : momentColumn rt s.runAt = .ok row.runAt
  runTime : timeColumn rt s.runTime = .ok row.runTime
  intervalAnchorAt : momentColumn rt s.intervalAnchorAt = .ok row.intervalAnchorAt
  intervalSeconds : numColumn s.intervalSeconds = .ok row.intervalSeconds
  dayOfMonth : numColumn s.dayOfMonth = .ok row.dayOfMonth
  rest : row = { s.row with
    runAt := row.runAt, runTime := row.runTime, intervalAnchorAt := row.intervalAnchorAt,
    intervalSeconds := row.intervalSeconds, dayOfMonth := row.dayOfMonth, updatedAt := row.updatedAt }

/-- A save that does not raise stores every column. -/
theorem saved_of_ok {rt : Runtime} {fault : Option Raised} {now : Int} {s : Draft} {row : ScheduleRow}
    (h : s.save rt fault now = .ok row) : StoredFrom rt s row := by
  unfold Draft.save at h
  obtain ⟨runAt, hrunAt, h⟩ := bind_ok h
  obtain ⟨runTime, hrunTime, h⟩ := bind_ok h
  obtain ⟨anchor, hanchor, h⟩ := bind_ok h
  obtain ⟨secs, hsecs, h⟩ := bind_ok h
  obtain ⟨day, hday, h⟩ := bind_ok h
  cases fault with
  | some e => cases h
  | none =>
    cases h
    exact ⟨hrunAt, hrunTime, hanchor, hsecs, hday, rfl⟩

/-! ## The fields of a row after an edit -/

/-- What `_apply_schedule_fields` makes of a row in memory. -/
theorem applyScheduleFields_eq (s : Draft) (d : ScheduleData) :
    s.applyScheduleFields d =
      { row := { (s.setFields d).row with
          monthWeek := if d.scheduleType = .monthly then d.monthWeek.getD s.row.monthWeek else none
          monthWeekday := if d.scheduleType = .monthly then d.monthWeekday.getD s.row.monthWeekday else none }
        runAt := d.runAt.getD s.runAt
        runTime := d.runTime.getD s.runTime
        intervalAnchorAt := if d.scheduleType = .interval then d.intervalAnchorAt.getD s.intervalAnchorAt else .null
        intervalSeconds := if d.scheduleType = .interval then d.intervalSeconds.getD s.intervalSeconds else .null
        dayOfMonth := if d.scheduleType = .monthly then d.dayOfMonth.getD s.dayOfMonth else .null } := by
  unfold Draft.applyScheduleFields Draft.clearInterval Draft.clearMonthly
  by_cases hinterval : d.scheduleType = .interval
  · simp [Draft.setFields, hinterval]
  · by_cases hmonthly : d.scheduleType = .monthly
    · simp [Draft.setFields, hmonthly]
    · simp [Draft.setFields, hinterval, hmonthly]

/-- What is written about the person of an edit: the schedule is theirs when they take it over, and nothing of its work
or its timing changes. -/
theorem signedBy_fields (env : Env) (user : Person) (decision : EditDecision) (s : Draft) :
    (s.signedBy env user decision).row.toTiming = s.row.toTiming ∧
      (s.signedBy env user decision).row.actionId = s.row.actionId ∧
      (s.signedBy env user decision).row.targetMode = s.row.targetMode ∧
      (s.signedBy env user decision).row.targets = s.row.targets ∧
      (s.signedBy env user decision).row.parameters = s.row.parameters ∧
      (s.signedBy env user decision).row.enabled = s.row.enabled := by
  unfold Draft.signedBy
  dsimp only
  split
  · split <;> exact ⟨rfl, rfl, rfl, rfl, rfl, rfl⟩
  · split <;> exact ⟨rfl, rfl, rfl, rfl, rfl, rfl⟩

theorem signedBy_takeover (env : Env) (user : Person) {decision : EditDecision} (s : Draft) (h : decision.takeover = true) :
    (s.signedBy env user decision).row.createdById = some user.id ∧
      (s.signedBy env user decision).row.createdBy = user.name := by
  simp [Draft.signedBy, h]

theorem signedBy_keeps (env : Env) (user : Person) {decision : EditDecision} (s : Draft) (h : decision.takeover = false) :
    (s.signedBy env user decision).row.createdById = s.row.createdById := by
  unfold Draft.signedBy
  dsimp only
  rw [h]
  split <;> rfl

/-! ## A small installation -/

/-- An action that has no target. -/
def sampleAction : Action := ⟨"backup.run", "backup", "Back up", "none", []⟩

/-- An installation with one action and one zone, in which everybody may do everything and everybody's scope covers
every target. Its parsers read the one time of day that the examples send as text. -/
def sampleEnv : Env where
  parseInt := fun _ => none
  repr := fun _ => ""
  parseDatetime := fun _ => .ok none
  parseTime := fun s =>
    if s = "03:00" then .ok (some ⟨⟨3, 0, RunTime.at_three, RunTime.on_the_hour⟩, 0, 0⟩)
    else if s = "25:00" then .error (.other "ValueError")
    else .ok none
  makeAware := id
  findZone := fun _ => .ok ()
  findAction := fun id => if id = "backup.run" then some sampleAction else none
  username := fun _ => "alice"
  manager := fun _ => true
  getObject := fun _ _ => .ok ()
  requireAction := fun _ _ => .ok sampleAction
  normalizeTargets := .ok
  canonicalizeTargets := fun _ => .ok
  requireTargetScope := fun _ _ _ => .ok ()
  requirePerson := fun _ _ _ => .ok ()
  coversTargets := fun _ _ _ => true
  requireCreation := fun _ _ _ _ => .ok ()
  captureScope := fun _ => .empty
  casefold := id

/-- A module call for a daily schedule at three, with the given extra fields. -/
def sampleCall : ReconcileArgs where
  ownerModule := .text "backup"
  ownerKey := .text "nightly"
  actionId := .text "backup.run"
  scheduleType := .text "daily"
  runTime := .time ⟨⟨3, 0, RunTime.at_three, RunTime.on_the_hour⟩, 0, 0⟩

end TecTac
