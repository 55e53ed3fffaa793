import TecTac.Lemmas.Occurrence
import TecTac.Theorems.StoredShape

/-!
# Ownership follows an edit

A person who is not the owner of a schedule and edits it takes it over, after a check of the person's own scope; an edit
that does not take it over leaves the work and the moments of the schedule as they were. The fields that count as an
edit do not have the anchor of an interval schedule, so the rule fails for a request that moves the anchor alone, and
for no other.
-/

namespace TecTac

open Raise

/-- The schedule went over to the person, whose own scope covers its targets. -/
def OwnershipMoved (env : Env) (user : Person) (saved : ScheduleRow) : Prop :=
  saved.createdById = some user.id ∧ saved.createdBy = user.name ∧
    ∃ action, env.requireAction user saved.actionId = .ok action ∧ env.coversTargets user saved.targets action.moduleId = true

/-- The schedule does the same work at the same moments. -/
structure SameWork (row saved : ScheduleRow) : Prop where
  actionId : saved.actionId = row.actionId
  targetMode : saved.targetMode = row.targetMode
  targets : saved.targets.same row.targets = true
  parameters : saved.parameters.same row.parameters = true
  firing : FiresAlike saved.toTiming row.toTiming

/-- The request changes one of the fields that count as an edit. -/
def Edits (env : Env) (user : Person) (row : ScheduleRow) (payload : Payload) (confirmationId : Option Value) : Prop :=
  ∃ action data changed, patchData env user row payload confirmationId = .ok (action, data) ∧
    changedEditFields env.toRuntime (Draft.ofRow row) data = .ok changed ∧ changed ≠ []

/-- The request sends an interval schedule another anchor. -/
def AnchorMoved (rt : Runtime) (row : ScheduleRow) (payload : Payload) : Prop :=
  row.scheduleType = .interval ∧ ∃ v t,
    parseField rt.parseDatetime .datetime "interval_anchor_at must be an ISO-8601 datetime." payload.intervalAnchorAt = .ok (some v) ∧
      momentColumn rt v = .ok (some t) ∧ row.intervalAnchorAt ≠ some t

namespace OwnershipAux

variable {env : Env} {rt : Runtime} {user : Person} {row saved : ScheduleRow} {payload : Payload}
  {confirmationId : Option Value} {d : ScheduleData}

/-! ### No field of an edit changes -/

/-- The data has every field as the row has it. -/
structure SameFields (rt : Runtime) (s : Draft) (d : ScheduleData) : Prop where
  actionId : d.actionId = s.row.actionId
  targetMode : d.targetMode.getD s.row.targetMode = s.row.targetMode
  targets : ∀ j, d.targets = some j → j.same s.row.targets = true
  parameters : ∀ j, d.parameters = some j → j.same s.row.parameters = true
  scheduleType : d.scheduleType = s.row.scheduleType
  timezone : d.timezone = s.row.timezone
  runAt : timeChanged (comparableMoment rt) d.runAt s.runAt = .ok false
  runTime : timeChanged (comparableTime rt) d.runTime s.runTime = .ok false
  weekdays : d.weekdays.getD s.row.weekdays = s.row.weekdays
  monthly : s.row.scheduleType = .monthly → d.dayOfMonth.getD s.dayOfMonth = s.dayOfMonth ∧
    d.monthWeek.getD s.row.monthWeek = s.row.monthWeek ∧ d.monthWeekday.getD s.row.monthWeekday = s.row.monthWeekday
  intervalSeconds : d.intervalSeconds.getD s.intervalSeconds = s.intervalSeconds

theorem getD_of_any_ne {α : Type} [BEq α] [LawfulBEq α] {v : Option α} {a : α} (h : v.any (· != a) = false) : v.getD a = a := by
  cases v with
  | none => rfl
  | some b => simpa using h

theorem getD_of_any_monthly {α : Type} [BEq α] [LawfulBEq α] {v : Option α} {a : α} {new old : ScheduleType}
    (hnew : new = .monthly) (hold : old = .monthly) (h : v.any (fun b => monthlyValue new b != monthlyValue old a) = false) :
    v.getD a = a := by
  subst hnew hold
  cases v with
  | none => rfl
  | some b => simpa [monthlyValue] using h

/-- The list of changed fields is empty only when no field changes. -/
theorem sameFields_of_nil {s : Draft} (h : changedEditFields rt s d = .ok []) : SameFields rt s d := by
  unfold changedEditFields at h
  obtain ⟨runAt, hrunAt, h⟩ := bind_ok h
  obtain ⟨runTime, hrunTime, h⟩ := bind_ok h
  have hnil := Except.ok.inj h
  have hpick : ∀ (c : Bool) (f : EditField), (if c then [f] else []) = ([] : List EditField) ↔ c = false := by
    intro c f
    cases c <;> simp
  simp only [List.append_eq_nil_iff, hpick] at hnil
  obtain ⟨⟨⟨⟨⟨⟨⟨⟨⟨⟨⟨⟨haction, hmode⟩, htargets⟩, hparameters⟩, htype⟩, hzone⟩, hat⟩, htime⟩, hdays⟩, hday⟩, hweek⟩, hweekday⟩, hsecs⟩ := hnil
  have htype' : d.scheduleType = s.row.scheduleType := by simpa using htype
  refine
    { actionId := by simpa using haction, targetMode := getD_of_any_ne hmode, targets := ?_, parameters := ?_,
      scheduleType := htype', timezone := by simpa using hzone, runAt := by rw [hrunAt, hat], runTime := by rw [hrunTime, htime],
      weekdays := getD_of_any_ne hdays, monthly := ?_, intervalSeconds := getD_of_any_ne hsecs }
  · intro j hj
    rw [hj] at htargets
    simpa using htargets
  · intro j hj
    rw [hj] at hparameters
    simpa using hparameters
  · intro hmonthly
    have hnew : d.scheduleType = .monthly := htype'.trans hmonthly
    exact ⟨getD_of_any_monthly hnew hmonthly hday, getD_of_any_monthly hnew hmonthly hweek,
      getD_of_any_monthly hnew hmonthly hweekday⟩

/-! ### Times that compare equal are stored alike -/

theorem comparableMoment_cases {v : Value} {c : Comparable} (h : comparableMoment rt v = .ok c) :
    (∃ d, c = .moment d ∧ momentColumn rt v = .ok (some (d.stored rt))) ∨ c = .value v := by
  unfold comparableMoment at h
  split at h
  · rename_i s
    obtain ⟨parsed, hparsed, h⟩ := bind_ok h
    cases parsed with
    | none =>
      cases h
      exact Or.inr rfl
    | some d =>
      cases h
      refine Or.inl ⟨d, rfl, ?_⟩
      simp only [momentColumn, hparsed]
  · cases h
    exact Or.inl ⟨_, rfl, rfl⟩
  · cases h
    exact Or.inr rfl

theorem comparableTime_cases {v : Value} {c : Comparable} (h : comparableTime rt v = .ok c) :
    (∃ t : TimeOfDay, c = .time t.hour t.minute ∧ timeColumn rt v = .ok (some t.toRunTime)) ∨
      (∃ d, c = .moment d ∧ timeColumn rt v = .ok (some d.runTime)) ∨ c = .value v := by
  unfold comparableTime at h
  split at h
  · rename_i s
    obtain ⟨parsed, hparsed, h⟩ := bind_ok h
    cases parsed with
    | none =>
      cases h
      exact Or.inr (Or.inr rfl)
    | some t =>
      cases h
      refine Or.inl ⟨t, rfl, ?_⟩
      simp only [timeColumn, hparsed]
  · cases h
    exact Or.inl ⟨_, rfl, rfl⟩
  · cases h
    exact Or.inr (Or.inl ⟨_, rfl, rfl⟩)
  · cases h
    exact Or.inr (Or.inr rfl)

theorem momentColumn_eq {v w : Value} {c : Comparable} (hv : comparableMoment rt v = .ok c)
    (hw : comparableMoment rt w = .ok c) : momentColumn rt v = momentColumn rt w := by
  rcases comparableMoment_cases hv with ⟨d, rfl, hcol⟩ | rfl
  · rcases comparableMoment_cases hw with ⟨d', heq, hcol'⟩ | heq
    · cases heq
      rw [hcol, hcol']
    · cases heq
  · rcases comparableMoment_cases hw with ⟨d', heq, _⟩ | heq
    · cases heq
    · cases heq
      rfl

theorem timeColumn_eq {v w : Value} {c : Comparable} (hv : comparableTime rt v = .ok c)
    (hw : comparableTime rt w = .ok c) : timeColumn rt v = timeColumn rt w := by
  rcases comparableTime_cases hv with ⟨t, rfl, hcol⟩ | ⟨d, rfl, hcol⟩ | rfl
  · rcases comparableTime_cases hw with ⟨t', heq, hcol'⟩ | ⟨d', heq, _⟩ | heq
    · obtain ⟨hhour, hminute⟩ := Comparable.time.inj heq
      have hsame : t.toRunTime = t'.toRunTime := by
        cases ht : t.toRunTime
        cases ht' : t'.toRunTime
        simp_all
      rw [hcol, hcol', hsame]
    · cases heq
    · cases heq
  · rcases comparableTime_cases hw with ⟨t', heq, _⟩ | ⟨d', heq, hcol'⟩ | heq
    · cases heq
    · cases heq
      rw [hcol, hcol']
    · cases heq
  · rcases comparableTime_cases hw with ⟨t', heq, _⟩ | ⟨d', heq, _⟩ | heq
    · cases heq
    · cases heq
    · cases heq
      rfl

/-- A value that compares equal to the old one, or is not sent, compares with it. -/
theorem comparable_of_unchanged {comparable : Value → Except Raised Comparable} {v : Option Value} {old : Value}
    (h : timeChanged comparable v old = .ok false) :
    v = none ∨ ∃ w c, v = some w ∧ comparable w = .ok c ∧ comparable old = .ok c := by
  cases v with
  | none => exact Or.inl rfl
  | some w =>
    obtain ⟨a, ha, h⟩ := bind_ok h
    obtain ⟨b, hb, h⟩ := bind_ok h
    have hab : a = b := by simpa using Except.ok.inj h
    exact Or.inr ⟨w, a, rfl, ha, hab ▸ hb⟩

theorem momentColumn_ofMoment (stored : Option Int) : momentColumn rt (.ofMoment stored) = .ok stored := by
  cases stored with
  | none => rfl
  | some t =>
    show Except.ok (some (t - 0)) = Except.ok (some t)
    rw [Int.sub_zero]

theorem timeColumn_ofRunTime (stored : Option RunTime) : timeColumn rt (.ofRunTime stored) = .ok stored := by
  cases stored with
  | none => rfl
  | some t => rfl

theorem numColumn_ofNat (stored : Option Nat) : numColumn (.ofNat? stored) = .ok stored := by
  cases stored with
  | none => rfl
  | some n => rfl

/-- A value that compares equal to the stored one is stored as it. -/
theorem column_unchanged {α : Type} {comparable : Value → Except Raised Comparable} {column : Value → Except Raised α} {v : Option Value} {old : Value}
    {stored r : α} (h : timeChanged comparable v old = .ok false)
    (hequal : ∀ a b c, comparable a = .ok c → comparable b = .ok c → column a = column b) (hold : column old = .ok stored) (hcol : column (v.getD old) = .ok r) : r = stored := by
  have hsame : column (v.getD old) = column old := by
    rcases comparable_of_unchanged h with rfl | ⟨w, c, rfl, hw, hc⟩
    · rfl
    · exact hequal _ _ _ hw hc
  rw [hsame, hold] at hcol
  exact (Except.ok.inj hcol).symm

/-! ### The request -/

/-- The anchor of the merged payload: the one that is sent, or the stored one. -/
theorem merged_anchor (s : Draft) (incoming : Payload) :
    (switchMonthlyMode ((Payload.ofDraft s).update incoming) incoming).intervalAnchorAt =
      some (incoming.intervalAnchorAt.getD s.intervalAnchorAt) := by
  have hupdate : (incoming.intervalAnchorAt <|> some s.intervalAnchorAt) =
      some (incoming.intervalAnchorAt.getD s.intervalAnchorAt) := by
    cases incoming.intervalAnchorAt <;> rfl
  rw [← hupdate]
  unfold switchMonthlyMode
  dsimp only
  split
  · rfl
  · split
    · rfl
    · split <;> rfl

/-- What the data of an edit says of the action, the targets, the parameters and the anchor. -/
theorem patchData_fields {action : Action} (h : patchData env user row payload confirmationId = .ok (action, d)) :
    env.requireAction user d.actionId = .ok action ∧ (∃ targets, d.targets = some targets) ∧
      (∃ parameters, d.parameters = some parameters) ∧
      ∃ v, parseField env.parseDatetime .datetime "interval_anchor_at must be an ISO-8601 datetime." payload.intervalAnchorAt = .ok v ∧
        d.intervalAnchorAt = some (v.getD (.ofMoment row.intervalAnchorAt)) := by
  unfold patchData at h
  obtain ⟨incoming, hincoming, h⟩ := bind_ok h
  obtain ⟨data, hdata, h⟩ := bind_ok h
  obtain ⟨_, haction, h⟩ := bind_ok h
  obtain ⟨_, _, h⟩ := bind_ok h
  obtain ⟨_, _, h⟩ := bind_ok h
  obtain ⟨targets, _, h⟩ := bind_ok h
  obtain ⟨_, _, h⟩ := bind_ok h
  obtain ⟨_, _, h⟩ := bind_ok h
  cases h
  have hvalid := validated_of_ok hdata
  refine ⟨haction, ⟨targets, rfl⟩, ?_, ?_⟩
  · have hparameters := hvalid.parameters
    have hsent : ∃ v, (switchMonthlyMode ((Payload.ofDraft (Draft.ofRow row)).update incoming) incoming).parameters = some v := by
      have hupdate : ∃ v, (incoming.parameters <|> some (.json row.parameters)) = some v := by
        cases incoming.parameters with
        | none => exact ⟨_, rfl⟩
        | some v => exact ⟨v, rfl⟩
      unfold switchMonthlyMode
      dsimp only
      split
      · exact hupdate
      · split
        · exact hupdate
        · split <;> exact hupdate
    obtain ⟨v, hv⟩ := hsent
    rw [hv] at hparameters
    unfold Check.object at hparameters
    split at hparameters
    · rename_i hnone
      cases hnone
    · exact ⟨_, (Except.ok.inj hparameters).symm⟩
    · cases hparameters
  · unfold parseFields at hincoming
    obtain ⟨_, _, hincoming⟩ := bind_ok hincoming
    obtain ⟨v, hv, hincoming⟩ := bind_ok hincoming
    obtain ⟨_, _, hincoming⟩ := bind_ok hincoming
    cases hincoming
    refine ⟨v, hv, ?_⟩
    show data.intervalAnchorAt = _
    rw [hvalid.intervalAnchorAt, merged_anchor]
    rfl

/-- What an accepted edit went through, and what it saved. -/
structure Accepted (env : Env) (user : Person) (row : ScheduleRow) (payload : Payload) (confirmationId : Option Value)
    (saved : ScheduleRow) (action : Action) (d : ScheduleData) (changed : List EditField) (decision : EditDecision) : Prop where
  data : patchData env user row payload confirmationId = .ok (action, d)
  edited : changedEditFields env.toRuntime (Draft.ofRow row) d = .ok changed
  takeover : decision.takeover = ((!changed.isEmpty || d.enabled.getD row.enabled && !row.enabled) &&
    row.createdById != some user.id && d.enabled.getD row.enabled)
  covers : decision.takeover = true → env.coversTargets user (d.targets.getD .null) action.moduleId = true
  stored : StoredFrom env.toRuntime (((Draft.ofRow row).applyScheduleFields d).markValid.signedBy env user decision) saved

theorem accepted_of_ok {now : Int} {fault : Option Raised}
    (h : patch env now user row payload confirmationId fault = .ok saved) :
    ∃ action d changed decision, Accepted env user row payload confirmationId saved action d changed decision := by
  unfold patch at h
  obtain ⟨_, _, h⟩ := bind_ok h
  obtain ⟨_, _, h⟩ := bind_ok h
  obtain ⟨_, _, h⟩ := bind_ok h
  obtain ⟨⟨action, data⟩, hdata, h⟩ := bind_ok h
  obtain ⟨decision, hdecision, h⟩ := bind_ok h
  obtain ⟨_, hcovers, h⟩ := bind_ok h
  obtain ⟨changed, hchanged, hdecision⟩ := bind_ok hdecision
  cases hdecision
  refine ⟨action, data, changed, _, hdata, hchanged, rfl, ?_, saved_of_ok h⟩
  intro htakeover
  have hcovers := of_require hcovers
  rw [htakeover] at hcovers
  simpa using hcovers

/-- The columns of the saved row that the rule speaks of. -/
theorem saved_fields {action : Action} {changed : List EditField} {decision : EditDecision}
    (h : Accepted env user row payload confirmationId saved action d changed decision) :
    saved.actionId = d.actionId ∧ saved.targetMode = d.targetMode.getD row.targetMode ∧
      saved.targets = d.targets.getD row.targets ∧ saved.parameters = d.parameters.getD row.parameters ∧
      saved.enabled = d.enabled.getD row.enabled ∧ saved.scheduleType = d.scheduleType ∧ saved.timezone = d.timezone ∧
      saved.weekdays = d.weekdays.getD row.weekdays := by
  obtain ⟨htiming, haction, hmode, htargets, hparameters, henabled⟩ :=
    signedBy_fields env user decision ((Draft.ofRow row).applyScheduleFields d).markValid
  rw [applyScheduleFields_eq] at htiming haction hmode htargets hparameters henabled
  have hrest := h.stored.rest
  rw [applyScheduleFields_eq] at hrest
  refine ⟨?_, ?_, ?_, ?_, ?_, ?_, ?_, ?_⟩
  · exact (congrArg (fun r : ScheduleRow => r.actionId) hrest).trans haction
  · exact (congrArg (fun r : ScheduleRow => r.targetMode) hrest).trans hmode
  · exact (congrArg (fun r : ScheduleRow => r.targets) hrest).trans htargets
  · exact (congrArg (fun r : ScheduleRow => r.parameters) hrest).trans hparameters
  · exact (congrArg (fun r : ScheduleRow => r.enabled) hrest).trans henabled
  · exact (congrArg (fun r : ScheduleRow => r.scheduleType) hrest).trans (congrArg Timing.scheduleType htiming)
  · exact (congrArg (fun r : ScheduleRow => r.timezone) hrest).trans (congrArg Timing.timezone htiming)
  · exact (congrArg (fun r : ScheduleRow => r.weekdays) hrest).trans (congrArg Timing.weekdays htiming)

/-- A request that takes the schedule over moves the ownership. -/
theorem moved_of_takeover {action : Action} {changed : List EditField} {decision : EditDecision}
    (h : Accepted env user row payload confirmationId saved action d changed decision) (htakeover : decision.takeover = true) :
    OwnershipMoved env user saved := by
  obtain ⟨hid, hname⟩ := signedBy_takeover env user ((Draft.ofRow row).applyScheduleFields d).markValid htakeover
  obtain ⟨hrequired, ⟨targets, htargets⟩, _⟩ := patchData_fields h.data
  obtain ⟨haction, _, hsaved, _⟩ := saved_fields h
  have hcovers := h.covers htakeover
  rw [htargets] at hcovers hsaved
  refine ⟨?_, ?_, action, ?_, ?_⟩
  · rw [h.stored.rest]
    exact hid
  · rw [h.stored.rest]
    exact hname
  · rw [haction]
    exact hrequired
  · rw [hsaved]
    exact hcovers

/-- The anchor that an edit of an interval schedule stores. -/
theorem saved_anchor {action : Action} {changed : List EditField} {decision : EditDecision}
    (h : Accepted env user row payload confirmationId saved action d changed decision) (htype : d.scheduleType = .interval) :
    ∃ v t, parseField env.parseDatetime .datetime "interval_anchor_at must be an ISO-8601 datetime." payload.intervalAnchorAt = .ok v ∧
      momentColumn env.toRuntime (v.getD (.ofMoment row.intervalAnchorAt)) = .ok (some t) ∧ saved.intervalAnchorAt = some t := by
  obtain ⟨_, _, _, v, hparsed, hanchor⟩ := patchData_fields h.data
  have hset := (StoredShapeAux.shape_of_validateShape (StoredShapeAux.patchData_cases h.data).1).2.1 htype
  have hcol := h.stored.intervalAnchorAt
  rw [applyScheduleFields_eq] at hcol
  simp only [Draft.signedBy, Draft.markValid, htype, if_true, hanchor, Option.getD_some] at hcol
  rw [hanchor] at hset
  obtain ⟨t, ht⟩ := momentColumn_isSome hcol (StoredShapeAux.ne_null_of_isSet hset .null)
  exact ⟨v, t, hparsed, by rw [hcol, ht], ht⟩

/-- An edit that changes no field leaves the fields that the firing of the schedule depends on, but for the anchor. -/
theorem sameFiring_of_unedited {action : Action} {decision : EditDecision}
    (h : Accepted env user row payload confirmationId saved action d [] decision)
    (hanchor : d.scheduleType = .interval → saved.intervalAnchorAt = row.intervalAnchorAt) :
    SameFiring saved.toTiming row.toTiming := by
  have hsame := sameFields_of_nil h.edited
  obtain ⟨_, _, _, _, _, htype, hzone, hdays⟩ := saved_fields h
  have hstored := h.stored
  rw [applyScheduleFields_eq] at hstored
  have hrowType : d.scheduleType = row.scheduleType := hsame.scheduleType
  refine ⟨htype.trans hrowType, hzone.trans hsame.timezone, ?_, ?_, hdays.trans hsame.weekdays, ?_, ?_⟩
  · exact column_unchanged hsame.runAt (fun _ _ _ => momentColumn_eq) (momentColumn_ofMoment _) hstored.runAt
  · exact column_unchanged hsame.runTime (fun _ _ _ => timeColumn_eq) (timeColumn_ofRunTime _) hstored.runTime
  · intro hmonthly
    have hnew : d.scheduleType = .monthly := htype.symm.trans hmonthly
    obtain ⟨hday, hweek, hweekday⟩ := hsame.monthly (hrowType.symm.trans hnew)
    have hcol := hstored.dayOfMonth
    have htiming := (signedBy_fields env user decision ((Draft.ofRow row).applyScheduleFields d).markValid).1
    rw [applyScheduleFields_eq] at htiming
    simp only [Draft.ofRow] at hday
    simp only [Draft.signedBy, Draft.markValid, hnew, if_true, hday, Draft.ofRow, numColumn_ofNat] at hcol
    refine ⟨(Except.ok.inj hcol).symm, ?_, ?_⟩
    · have hsaved : saved.monthWeek = _ := congrArg (fun r : ScheduleRow => r.monthWeek) hstored.rest
      rw [hsaved]
      refine (congrArg Timing.monthWeek htiming).trans ?_
      simp only [Draft.markValid, hnew, if_true]
      exact hweek
    · have hsaved : saved.monthWeekday = _ := congrArg (fun r : ScheduleRow => r.monthWeekday) hstored.rest
      rw [hsaved]
      refine (congrArg Timing.monthWeekday htiming).trans ?_
      simp only [Draft.markValid, hnew, if_true]
      exact hweekday
  · intro hinterval
    have hnew : d.scheduleType = .interval := htype.symm.trans hinterval
    have hcol := hstored.intervalSeconds
    have hsecs := hsame.intervalSeconds
    simp only [Draft.ofRow] at hsecs
    simp only [Draft.signedBy, Draft.markValid, hnew, if_true, hsecs, Draft.ofRow, numColumn_ofNat] at hcol
    exact ⟨(Except.ok.inj hcol).symm, hanchor hnew⟩

/-- An edit that changes no field leaves the work. -/
theorem sameWork_of_unedited {action : Action} {decision : EditDecision}
    (h : Accepted env user row payload confirmationId saved action d [] decision)
    (hanchor : d.scheduleType = .interval → saved.intervalAnchorAt = row.intervalAnchorAt) : SameWork row saved := by
  have hsame := sameFields_of_nil h.edited
  obtain ⟨haction, hmode, htargets, hparameters, _⟩ := saved_fields h
  obtain ⟨_, ⟨targets, hsent⟩, ⟨parameters, hsent'⟩, _⟩ := patchData_fields h.data
  refine ⟨haction.trans hsame.actionId, hmode.trans hsame.targetMode, ?_, ?_, (sameFiring_of_unedited h hanchor).firesAlike⟩
  · rw [htargets, hsent]
    exact hsame.targets targets hsent
  · rw [hparameters, hsent']
    exact hsame.parameters parameters hsent'

/-- An edit that sends no other anchor keeps the stored one. -/
theorem anchor_kept {action : Action} {decision : EditDecision}
    (h : Accepted env user row payload confirmationId saved action d [] decision)
    (hmoved : ¬ AnchorMoved env.toRuntime row payload) (htype : d.scheduleType = .interval) :
    saved.intervalAnchorAt = row.intervalAnchorAt := by
  have hrow : row.scheduleType = .interval := (sameFields_of_nil h.edited).scheduleType.symm.trans htype
  obtain ⟨v, t, hparsed, hcol, hsaved⟩ := saved_anchor h htype
  cases v with
  | none =>
    rw [Option.getD_none, momentColumn_ofMoment] at hcol
    rw [hsaved]
    exact (Except.ok.inj hcol).symm
  | some v =>
    by_contra hne
    exact hmoved ⟨hrow, v, t, hparsed, hcol, fun heq => hne (hsaved.trans heq.symm)⟩

/-- An edit that changes no field and sends another anchor changes when the schedule fires. -/
theorem firing_of_anchorMoved {now : Int} {fault : Option Raised} {action : Action} {decision : EditDecision}
    (hpatch : patch env now user row payload confirmationId fault = .ok saved)
    (h : Accepted env user row payload confirmationId saved action d [] decision)
    (hmoved : AnchorMoved env.toRuntime row payload) : ¬ FiresAlike saved.toTiming row.toTiming := by
  intro hfires
  obtain ⟨hrow, v, t, hparsed, hcol, hne⟩ := hmoved
  have hsame := sameFields_of_nil h.edited
  have hnew : d.scheduleType = .interval := hsame.scheduleType.trans hrow
  have htype : saved.scheduleType = .interval := (saved_fields h).2.2.2.2.2.1.trans hnew
  obtain ⟨v', t', hparsed', hcol', hsaved⟩ := saved_anchor h hnew
  have hv : some v = v' := Except.ok.inj (hparsed.symm.trans hparsed')
  subst hv
  have ht : t = t' := Option.some.inj (Except.ok.inj (hcol.symm.trans hcol'))
  subst ht
  obtain ⟨secs, _, hsecs, hmin, _⟩ := (StoredShapeAux.wellShaped_patch hpatch).interval htype
  have hrowSecs : row.intervalSeconds = some secs := by
    have hstored := h.stored.intervalSeconds
    have hunchanged := hsame.intervalSeconds
    simp only [Draft.ofRow] at hunchanged
    rw [applyScheduleFields_eq] at hstored
    simp only [Draft.signedBy, Draft.markValid, hnew, if_true, hunchanged, Draft.ofRow, numColumn_ofNat] at hstored
    rw [Except.ok.inj hstored]
    exact hsecs
  exact hne (anchor_eq_of_firesAlike hfires htype hrow hsaved hsecs hrowSecs hmin)

end OwnershipAux

/-- Alice's schedule: every hour, on the hour. -/
def sampleHourly : ScheduleRow where
  id := "s1"
  name := "Hourly"
  moduleId := "backup"
  actionId := "backup.run"
  scheduleType := .interval
  intervalSeconds := some 3600
  intervalAnchorAt := some 0
  targets := .obj [("type", .str "none")]
  createdById := some 1
  createdBy := "alice"
  updatedAt := 0

end TecTac
