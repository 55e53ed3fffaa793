import TecTac.Payload

/-!
# What a checked payload holds

`Validated` says for each field which check let it through, and `validated_of_ok` reads it off an answer of
`validate_schedule_payload`. The lemmas below say what the checks of the timing fields let through.
-/

namespace TecTac

open Raise

/-- Every field of the data is what its check made of the payload's. -/
structure Validated (rt : Runtime) (p : Payload) (d : ScheduleData) : Prop where
  name : Check.name rt p.name = .ok d.name
  action : ∃ a, rt.getScheduledAction (rt.stripped (p.actionId.getD (.text ""))) = .ok a ∧ d.actionId = a.id ∧
    d.moduleId = a.moduleId
  timezone : Check.timezone rt p.timezone = .ok d.timezone
  scheduleType : Check.scheduleType p.scheduleType = .ok d.scheduleType
  targetMode : Check.choice TargetMode.ofValue "target_mode must be snapshot or dynamic." p.targetMode = .ok d.targetMode
  targets : Check.object "targets" p.targets = .ok d.targets
  parameters : Check.object "parameters" p.parameters = .ok d.parameters
  enabled : Check.enabled p.enabled = .ok d.enabled
  intervalSeconds : Check.intervalSeconds rt p.intervalSeconds = .ok d.intervalSeconds
  weekdays : Check.weekdays p.weekdays = .ok d.weekdays
  dayOfMonth : Check.dayOfMonth rt p.dayOfMonth = .ok d.dayOfMonth
  monthWeek : Check.monthWeek p.monthWeek = .ok d.monthWeek
  monthWeekday : Check.monthWeekday p.monthWeekday = .ok d.monthWeekday
  runAt : d.runAt = p.runAt
  runTime : d.runTime = p.runTime
  intervalAnchorAt : d.intervalAnchorAt = p.intervalAnchorAt

/-- A payload that passes has passed every check. -/
theorem validated_of_ok {rt : Runtime} {p : Payload} {d : ScheduleData} (h : validateSchedulePayload rt p = .ok d) :
    Validated rt p d := by
  unfold validateSchedulePayload at h
  obtain ⟨name, hname, h⟩ := bind_ok h
  obtain ⟨action, haction, h⟩ := bind_ok h
  obtain ⟨timezone, htimezone, h⟩ := bind_ok h
  obtain ⟨scheduleType, htype, h⟩ := bind_ok h
  obtain ⟨targetMode, hmode, h⟩ := bind_ok h
  obtain ⟨targets, htargets, h⟩ := bind_ok h
  obtain ⟨parameters, hparameters, h⟩ := bind_ok h
  obtain ⟨enabled, henabled, h⟩ := bind_ok h
  obtain ⟨_, _, h⟩ := bind_ok h
  obtain ⟨_, _, h⟩ := bind_ok h
  obtain ⟨_, _, h⟩ := bind_ok h
  obtain ⟨_, _, h⟩ := bind_ok h
  obtain ⟨_, _, h⟩ := bind_ok h
  obtain ⟨intervalSeconds, hinterval, h⟩ := bind_ok h
  obtain ⟨weekdays, hweekdays, h⟩ := bind_ok h
  obtain ⟨dayOfMonth, hday, h⟩ := bind_ok h
  obtain ⟨monthWeek, hweek, h⟩ := bind_ok h
  obtain ⟨monthWeekday, hweekday, h⟩ := bind_ok h
  obtain ⟨_, _, h⟩ := bind_ok h
  cases h
  exact
    { name := hname, action := ⟨action, haction, rfl, rfl⟩, timezone := htimezone, scheduleType := htype, targetMode := hmode,
      targets := htargets, parameters := hparameters, enabled := henabled, intervalSeconds := hinterval,
      weekdays := hweekdays, dayOfMonth := hday, monthWeek := hweek, monthWeekday := hweekday, runAt := rfl, runTime := rfl,
      intervalAnchorAt := rfl }

/-- A name of a type is its text. -/
theorem ScheduleType.text_of_ofText {s : String} {t : ScheduleType} (h : ScheduleType.ofText s = some t) : s = t.text := by
  unfold ScheduleType.ofText at h
  split at h <;> cases h <;> rfl

namespace Check

/-- A type that was named by its text, or the default. -/
theorem scheduleType_cases {v : Value} {t : ScheduleType} (h : scheduleType (some v) = .ok t) :
    v = .text t.text ∨ t = .once := by
  unfold scheduleType at h
  simp only [Option.getD_some] at h
  split at h
  · cases h
    exact Or.inr rfl
  · split at h
    · rename_i found hfound
      cases h
      split at hfound
      · rename_i s _
        rw [ScheduleType.text_of_ofText hfound]
        exact Or.inl rfl
      · cases hfound
    · cases h

/-- An interval schedule was asked for by name. -/
theorem scheduleType_interval {v : Value} (h : scheduleType (some v) = .ok .interval) : v = .text "interval" := by
  rcases scheduleType_cases h with hv | hv
  · exact hv
  · cases hv

/-- An interval is at least a minute. -/
theorem intervalSeconds_min {rt : Runtime} {v : Option Value} {n : Nat} (h : intervalSeconds rt v = .ok (some (.int n))) :
    minIntervalSeconds ≤ n := by
  unfold intervalSeconds at h
  split at h
  · cases h
  · cases h
  · cases h
  · cases h
  · obtain ⟨m, _, h⟩ := bind_ok h
    split at h
    · cases h
    · rename_i hmin
      cases h
      omega

/-- A day of the month is one. -/
theorem dayOfMonth_range {rt : Runtime} {v : Option Value} {n : Nat} (h : dayOfMonth rt v = .ok (some (.int n))) :
    1 ≤ n ∧ n ≤ 31 := by
  unfold dayOfMonth at h
  split at h
  · cases h
  · cases h
  · cases h
  · obtain ⟨m, _, h⟩ := bind_ok h
    split at h
    · cases h
    · rename_i hrange
      cases h
      omega

/-- A part of the pair passes its test. -/
theorem monthPart_test {test : Int → Bool} {message : String} {v : Option Value} {n : Int}
    (h : monthPart test message v = .ok (some (some n))) : test n = true := by
  unfold monthPart at h
  split at h
  · cases h
  · cases h
  · cases h
  · split at h
    · cases h
      assumption
    · cases h
  · cases h

/-- A part of the pair that is not set stays so. -/
theorem monthPart_unset {test : Int → Bool} {message : String} {v : Value} (h : v.unset = true) :
    monthPart test message (some v) = .ok (some none) := by
  simp only [Value.unset, Bool.or_eq_true, beq_iff_eq] at h
  rcases h with rfl | rfl
  · rfl
  · rfl

/-- A part of the pair that is sent is in the data. -/
theorem monthPart_isSome {test : Int → Bool} {message : String} {v : Value} {r : Option (Option Int)}
    (h : monthPart test message (some v) = .ok r) : r.isSome := by
  unfold monthPart at h
  split at h
  · rename_i hv
    cases hv
  · cases h
    rfl
  · cases h
    rfl
  · split at h
    · cases h
      rfl
    · cases h
  · cases h

/-- A day that is not set stays so. -/
theorem dayOfMonth_unset {rt : Runtime} {v : Value} {r : Option NumArg} (hv : v.unset = true)
    (h : dayOfMonth rt (some v) = .ok r) : r = some .null ∨ r = some .blank := by
  simp only [Value.unset, Bool.or_eq_true, beq_iff_eq] at hv
  rcases hv with rfl | rfl
  · cases h
    exact Or.inl rfl
  · cases h
    exact Or.inr rfl

/-- A day that is sent is in the data. -/
theorem dayOfMonth_isSome {rt : Runtime} {v : Value} {r : Option NumArg} (h : dayOfMonth rt (some v) = .ok r) : r.isSome := by
  unfold dayOfMonth at h
  split at h
  · rename_i hv
    cases hv
  · cases h
    rfl
  · cases h
    rfl
  · obtain ⟨m, _, h⟩ := bind_ok h
    split at h
    · cases h
    · cases h
      rfl

/-- An interval that is sent is in the data. -/
theorem intervalSeconds_isSome {rt : Runtime} {v : Value} {r : Option NumArg} (h : intervalSeconds rt (some v) = .ok r) :
    r.isSome := by
  unfold intervalSeconds at h
  split at h
  · rename_i hv
    cases hv
  · cases h
    rfl
  · cases h
    rfl
  · cases h
  · obtain ⟨m, _, h⟩ := bind_ok h
    split at h
    · cases h
    · cases h
      rfl

end Check

end TecTac
