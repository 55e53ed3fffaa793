import TecTac.ScheduleWriters
import TecTac.Lemmas.ScheduleEdit

/-!
# The shape of a stored schedule

A monthly schedule holds a day of the month or a complete pair of a week and a weekday, and no other schedule holds any
of the three; an interval schedule holds its length and its anchor, and no other schedule holds either. `POST` and
`PATCH` clear what the type has no use for. `reconcile_schedule` clears the interval and not the monthly fields, and it
takes an anchor that is neither missing nor a moment as none. In every run whose module calls send the monthly fields
with a monthly schedule only, and no such anchor, every stored schedule has its shape.
-/

namespace TecTac

open Timeline Raise

/-- The stored shape of a schedule. -/
structure WellShaped (t : Timing) : Prop where
  monthly : t.scheduleType = .monthly →
    (∃ day, t.dayOfMonth = some day ∧ 1 ≤ day ∧ day ≤ 31 ∧ t.monthWeek = none ∧ t.monthWeekday = none) ∨
    (t.dayOfMonth = none ∧ ∃ week weekday, t.monthWeek = some week ∧ week ∈ [1, 2, 3, 4, -1] ∧
      t.monthWeekday = some weekday ∧ 0 ≤ weekday ∧ weekday ≤ 6)
  notMonthly : t.scheduleType ≠ .monthly → t.dayOfMonth = none ∧ t.monthWeek = none ∧ t.monthWeekday = none
  interval : t.scheduleType = .interval →
    ∃ secs anchor, t.intervalSeconds = some secs ∧ 60 ≤ secs ∧ t.intervalAnchorAt = some anchor
  notInterval : t.scheduleType ≠ .interval → t.intervalSeconds = none ∧ t.intervalAnchorAt = none

/-- A module call sends the monthly fields with a monthly schedule only, and as the anchor of an interval schedule it
sends none or a value that is not false, zero or empty. -/
def ShapeSent (a : ReconcileArgs) : Prop :=
  (a.scheduleType ≠ .text "monthly" →
    a.dayOfMonth.unset = true ∧ a.monthWeek.unset = true ∧ a.monthWeekday.unset = true) ∧
  (a.scheduleType = .text "interval" → a.intervalAnchorAt = .null ∨ a.intervalAnchorAt.truthy = true)

/-- The module calls of a run send the shape of their type. -/
def CallsSendShape (_ : Int) (a : WriteAct) (_ : List ScheduleRow) : Prop :=
  match a with
  | .reconcile _ args _ _ _ _ => ShapeSent args
  | _ => True

/-- The shape of a row in memory. A blank day is not stored: the save raises. -/
structure Shaped (s : Draft) : Prop where
  monthly : s.row.scheduleType = .monthly →
    (∃ day, s.dayOfMonth = .int day ∧ 1 ≤ day ∧ day ≤ 31 ∧ s.row.monthWeek = none ∧ s.row.monthWeekday = none) ∨
    ((s.dayOfMonth = .null ∨ s.dayOfMonth = .blank) ∧ ∃ week weekday, s.row.monthWeek = some week ∧ week ∈ [1, 2, 3, 4, -1] ∧
      s.row.monthWeekday = some weekday ∧ 0 ≤ weekday ∧ weekday ≤ 6)
  notMonthly : s.row.scheduleType ≠ .monthly →
    (s.dayOfMonth = .null ∨ s.dayOfMonth = .blank) ∧ s.row.monthWeek = none ∧ s.row.monthWeekday = none
  interval : s.row.scheduleType = .interval →
    (∃ secs, s.intervalSeconds = .int secs ∧ 60 ≤ secs) ∧ s.intervalAnchorAt ≠ .null
  notInterval : s.row.scheduleType ≠ .interval → s.intervalSeconds = .null ∧ s.intervalAnchorAt = .null

namespace StoredShapeAux

variable {rt : Runtime} {d : ScheduleData} {s : Draft}

/-! ### What the checks say of the data -/

/-- The numbers of the data are in their ranges. -/
structure Fits (d : ScheduleData) : Prop where
  day : ∀ n, d.dayOfMonth = some (.int n) → 1 ≤ n ∧ n ≤ 31
  week : ∀ n, d.monthWeek = some (some n) → n ∈ [1, 2, 3, 4, -1]
  weekday : ∀ n, d.monthWeekday = some (some n) → 0 ≤ n ∧ n ≤ 6
  secs : ∀ n, d.intervalSeconds = some (.int n) → 60 ≤ n

theorem fits_of_validated {p : Payload} (h : Validated rt p d) : Fits d where
  day := fun n hn => Check.dayOfMonth_range (by rw [h.dayOfMonth, hn])
  week := by
    intro n hn
    have htest := h.monthWeek
    rw [hn] at htest
    simpa [Check.monthWeeks] using Check.monthPart_test htest
  weekday := by
    intro n hn
    have htest := h.monthWeekday
    rw [hn] at htest
    simpa using Check.monthPart_test htest
  secs := fun n hn => Check.intervalSeconds_min (by rw [h.intervalSeconds, hn])

/-- A number that is set is one of the data. -/
theorem num_of_truthy {v : Option NumArg} (h : (v.getD .null).truthy = true) : ∃ n, v = some (.int n) := by
  cases v with
  | none => cases h
  | some v =>
    cases v with
    | null => cases h
    | blank => cases h
    | int n => exact ⟨n, rfl⟩

/-- A day that is not set is none or blank: a day of the data is not zero. -/
theorem day_of_not_truthy (hfits : Fits d) (h : (d.dayOfMonth.getD .null).truthy = false) :
    d.dayOfMonth.getD .null = .null ∨ d.dayOfMonth.getD .null = .blank := by
  cases hday : d.dayOfMonth with
  | none => exact Or.inl rfl
  | some v =>
    cases v with
    | null => exact Or.inl rfl
    | blank => exact Or.inr rfl
    | int n =>
      have hlow := (hfits.day n hday).1
      rw [hday] at h
      simp only [Option.getD_some, NumArg.truthy, bne_eq_false_iff_eq] at h
      omega

/-- The monthly rule lets through a day alone or a whole pair alone. -/
theorem monthly_cases (h : checkMonthlyShape d = .ok ()) (htype : d.scheduleType = .monthly) :
    ((d.dayOfMonth.getD .null).truthy = true ∧ d.monthWeek.join = none ∧ d.monthWeekday.join = none) ∨
    ((d.dayOfMonth.getD .null).truthy = false ∧ ∃ week weekday, d.monthWeek.join = some week ∧
      d.monthWeekday.join = some weekday) := by
  unfold checkMonthlyShape at h
  simp only [htype, ne_eq, not_true_eq_false, if_false] at h
  generalize (d.dayOfMonth.getD .null).truthy = hasDay at h ⊢
  cases hweek : d.monthWeek.join with
  | none =>
    cases hweekday : d.monthWeekday.join with
    | none =>
      cases hasDay with
      | true => exact Or.inl ⟨rfl, rfl, rfl⟩
      | false => simp [hweek, hweekday] at h
    | some weekday => simp [hweek, hweekday] at h
  | some week =>
    cases hweekday : d.monthWeekday.join with
    | none => simp [hweek, hweekday] at h
    | some weekday =>
      cases hasDay with
      | true => simp [hweek, hweekday] at h
      | false => exact Or.inr ⟨rfl, week, weekday, rfl, rfl⟩

theorem some_of_join {v : Option (Option Int)} {n : Int} (h : v.join = some n) : v = some (some n) := by
  cases v with
  | none => cases h
  | some w => exact congrArg some h

/-- A row in memory that has the monthly fields of the data has the monthly shape. -/
theorem shaped_monthly (hfits : Fits d) (hcheck : checkMonthlyShape d = .ok ()) (htype : d.scheduleType = .monthly)
    (hday : s.dayOfMonth = d.dayOfMonth.getD .null) (hweek : s.row.monthWeek = d.monthWeek.join)
    (hweekday : s.row.monthWeekday = d.monthWeekday.join) :
    (∃ day, s.dayOfMonth = .int day ∧ 1 ≤ day ∧ day ≤ 31 ∧ s.row.monthWeek = none ∧ s.row.monthWeekday = none) ∨
    ((s.dayOfMonth = .null ∨ s.dayOfMonth = .blank) ∧ ∃ week weekday, s.row.monthWeek = some week ∧ week ∈ [1, 2, 3, 4, -1] ∧
      s.row.monthWeekday = some weekday ∧ 0 ≤ weekday ∧ weekday ≤ 6) := by
  rw [hday, hweek, hweekday]
  rcases monthly_cases hcheck htype with ⟨hset, hnoweek, hnoweekday⟩ | ⟨hunset, week, weekday, hw, hwd⟩
  · obtain ⟨n, hn⟩ := num_of_truthy hset
    obtain ⟨hlow, hhigh⟩ := hfits.day n hn
    exact Or.inl ⟨n, by rw [hn]; rfl, hlow, hhigh, hnoweek, hnoweekday⟩
  · have hrange := hfits.weekday weekday (some_of_join hwd)
    exact Or.inr ⟨day_of_not_truthy hfits hunset, week, weekday, hw, hfits.week week (some_of_join hw), hwd, hrange.1, hrange.2⟩

/-- An interval schedule has a length of at least a minute. -/
theorem interval_secs (hfits : Fits d) (h : requireInterval d = .ok ()) (htype : d.scheduleType = .interval) :
    ∃ secs, d.intervalSeconds.getD .null = .int secs ∧ 60 ≤ secs := by
  have hset := of_require h
  rw [htype] at hset
  obtain ⟨n, hn⟩ := num_of_truthy (by simpa using hset)
  exact ⟨n, by rw [hn]; rfl, hfits.secs n hn⟩

/-! ### What is stored -/

/-- A row in memory that has its shape is stored with it. -/
theorem wellShaped_of_saved {row : ScheduleRow} (h : Shaped s) (hsaved : StoredFrom rt s row) : WellShaped row.toTiming := by
  have htype : row.scheduleType = s.row.scheduleType := congrArg (·.scheduleType) hsaved.rest
  have hweek : row.monthWeek = s.row.monthWeek := congrArg (·.monthWeek) hsaved.rest
  have hweekday : row.monthWeekday = s.row.monthWeekday := congrArg (·.monthWeekday) hsaved.rest
  refine ⟨?_, ?_, ?_, ?_⟩
  · intro hmonthly
    rw [hweek, hweekday]
    rcases h.monthly (htype ▸ hmonthly) with ⟨day, hday, hlow, hhigh, hnone⟩ | ⟨hunset, hpair⟩
    · have hcol := hsaved.dayOfMonth
      rw [hday] at hcol
      exact Or.inl ⟨day, (Except.ok.inj hcol).symm, hlow, hhigh, hnone⟩
    · exact Or.inr ⟨numColumn_of_not_truthy hsaved.dayOfMonth hunset, hpair⟩
  · intro hmonthly
    obtain ⟨hday, hnoweek, hnoweekday⟩ := h.notMonthly (htype ▸ hmonthly)
    rw [hweek, hweekday]
    exact ⟨numColumn_of_not_truthy hsaved.dayOfMonth hday, hnoweek, hnoweekday⟩
  · intro hinterval
    obtain ⟨⟨secs, hsecs, hmin⟩, hanchor⟩ := h.interval (htype ▸ hinterval)
    obtain ⟨t, ht⟩ := momentColumn_isSome hsaved.intervalAnchorAt hanchor
    have hcol := hsaved.intervalSeconds
    rw [hsecs] at hcol
    exact ⟨secs, t, (Except.ok.inj hcol).symm, hmin, ht⟩
  · intro hinterval
    obtain ⟨hsecs, hanchor⟩ := h.notInterval (htype ▸ hinterval)
    have hcol := hsaved.intervalSeconds
    have hmoment := hsaved.intervalAnchorAt
    rw [hsecs] at hcol
    rw [hanchor] at hmoment
    exact ⟨(Except.ok.inj hcol).symm, (Except.ok.inj hmoment).symm⟩

/-! ### The views -/

/-- A field that the data does not have is not set in the row either. -/
structure Complete (d : ScheduleData) (s : Draft) : Prop where
  day : d.dayOfMonth.getD s.dayOfMonth = d.dayOfMonth.getD .null
  week : d.monthWeek.getD s.row.monthWeek = d.monthWeek.join
  weekday : d.monthWeekday.getD s.row.monthWeekday = d.monthWeekday.join
  secs : d.intervalSeconds.getD s.intervalSeconds = d.intervalSeconds.getD .null

theorem ne_null_of_isSet {v : Option Value} (h : isSet v = true) (w : Value) : v.getD w ≠ .null := by
  cases v with
  | none => cases h
  | some v =>
    intro heq
    simp only [Option.getD_some] at heq
    rw [heq] at h
    cases h

/-- `_apply_schedule_fields` leaves the row in memory with its shape. -/
theorem shaped_apply (hfits : Fits d) (hcomplete : Complete d s) (hmonthly : checkMonthlyShape d = .ok ())
    (hinterval : requireInterval d = .ok ()) (hanchor : d.scheduleType = .interval → isSet d.intervalAnchorAt = true) :
    Shaped (s.applyScheduleFields d) := by
  rw [applyScheduleFields_eq]
  refine ⟨?_, ?_, ?_, ?_⟩
  · intro h
    have h : d.scheduleType = .monthly := h
    refine shaped_monthly hfits hmonthly h ?_ ?_ ?_
    · simp [h, hcomplete.day]
    · simp [h, hcomplete.week]
    · simp [h, hcomplete.weekday]
  · intro h
    have h : d.scheduleType ≠ .monthly := h
    simp [h]
  · intro h
    have h : d.scheduleType = .interval := h
    obtain ⟨secs, hsecs, hmin⟩ := interval_secs hfits hinterval h
    refine ⟨⟨secs, by simp [h, hcomplete.secs, hsecs], hmin⟩, ?_⟩
    dsimp only
    rw [if_pos h]
    exact ne_null_of_isSet (hanchor h) s.intervalAnchorAt
  · intro h
    have h : d.scheduleType ≠ .interval := h
    simp [h]

/-- What `_validate_shape` checks of the three kinds. -/
theorem shape_of_validateShape (h : validateShape rt d = .ok ()) :
    requireInterval d = .ok () ∧ (d.scheduleType = .interval → isSet d.intervalAnchorAt = true) ∧
      checkMonthlyShape d = .ok () := by
  unfold validateShape at h
  obtain ⟨_, _, h⟩ := bind_ok h
  obtain ⟨_, hinterval, h⟩ := bind_ok h
  obtain ⟨_, hanchor, h⟩ := bind_ok h
  obtain ⟨_, _, h⟩ := bind_ok h
  obtain ⟨_, hmonthly, h⟩ := bind_ok h
  refine ⟨hinterval, ?_, hmonthly⟩
  intro htype
  simpa [htype] using of_require hanchor

/-- The shape is one of the timing columns: another row in memory with the same ones has it too. -/
theorem shaped_of_timing {row : ScheduleRow} (htiming : row.toTiming = s.row.toTiming) (h : Shaped s) :
    Shaped { s with row := row } := by
  have htype : row.scheduleType = s.row.scheduleType := congrArg Timing.scheduleType htiming
  have hweek : row.monthWeek = s.row.monthWeek := congrArg Timing.monthWeek htiming
  have hweekday : row.monthWeekday = s.row.monthWeekday := congrArg Timing.monthWeekday htiming
  refine ⟨?_, ?_, ?_, ?_⟩
  · dsimp only
    rw [htype, hweek, hweekday]
    exact h.monthly
  · dsimp only
    rw [htype, hweek, hweekday]
    exact h.notMonthly
  · dsimp only
    rw [htype]
    exact h.interval
  · dsimp only
    rw [htype]
    exact h.notInterval

/-- What is written about the person of an edit does not touch the timing. -/
theorem shaped_signedBy {env : Env} {user : Person} {decision : EditDecision} (h : Shaped s) :
    Shaped (s.signedBy env user decision) := by
  refine shaped_of_timing ?_ h
  dsimp only
  split
  · split <;> rfl
  · split <;> rfl

/-- Data that passes `_validate_shape` and is applied to a row that has nothing else gives the row its shape. -/
theorem shaped_view (h : validateShape rt d = .ok ()) (hfits : Fits d) (hcomplete : Complete d s) :
    Shaped (s.applyScheduleFields d).markValid := by
  obtain ⟨hinterval, hanchor, hmonthly⟩ := shape_of_validateShape h
  have hshaped := shaped_apply hfits hcomplete hmonthly hinterval hanchor
  exact ⟨hshaped.monthly, hshaped.notMonthly, hshaped.interval, hshaped.notInterval⟩

theorem getD_none (v : Option (Option Int)) : v.getD none = v.join := by
  cases v with
  | none => rfl
  | some w => rfl

/-- A schedule that `POST` creates has its shape. -/
theorem wellShaped_post {env : Env} {now : Int} {user : Person} {payload : Payload} {confirmationId : Option Value}
    {id : String} {fault : Option Raised} {row : ScheduleRow}
    (h : post env now user payload confirmationId id fault = .ok row) : WellShaped row.toTiming := by
  unfold post at h
  obtain ⟨incoming, _, h⟩ := bind_ok h
  obtain ⟨data, hdata, h⟩ := bind_ok h
  obtain ⟨action, _, h⟩ := bind_ok h
  obtain ⟨targets, _, h⟩ := bind_ok h
  obtain ⟨_, _, h⟩ := bind_ok h
  obtain ⟨canonical, _, h⟩ := bind_ok h
  obtain ⟨_, hshape, h⟩ := bind_ok h
  obtain ⟨_, _, h⟩ := bind_ok h
  have hfits := fits_of_validated (validated_of_ok hdata)
  refine wellShaped_of_saved (shaped_view hshape ?_ ?_) (saved_of_ok h)
  · exact ⟨hfits.day, hfits.week, hfits.weekday, hfits.secs⟩
  · exact ⟨rfl, getD_none _, getD_none _, rfl⟩

theorem getD_of_isSome {α : Type} {v : Option α} (h : v.isSome) (a b : α) : v.getD a = v.getD b := by
  obtain ⟨x, rfl⟩ := Option.isSome_iff_exists.1 h
  rfl

theorem getD_join_of_isSome {v : Option (Option Int)} (h : v.isSome) (a : Option Int) : v.getD a = v.join := by
  obtain ⟨x, rfl⟩ := Option.isSome_iff_exists.1 h
  rfl

/-- Data of a payload that has the four fields has them too. -/
theorem complete_of_isSome {payload : Payload} (h : Validated rt payload d) (hday : payload.dayOfMonth.isSome) (hweek : payload.monthWeek.isSome)
    (hweekday : payload.monthWeekday.isSome) (hsecs : payload.intervalSeconds.isSome) : Complete d s := by
  obtain ⟨day, hday⟩ := Option.isSome_iff_exists.1 hday
  obtain ⟨week, hweek⟩ := Option.isSome_iff_exists.1 hweek
  obtain ⟨weekday, hweekday⟩ := Option.isSome_iff_exists.1 hweekday
  obtain ⟨secs, hsecs⟩ := Option.isSome_iff_exists.1 hsecs
  refine ⟨?_, ?_, ?_, ?_⟩
  · exact getD_of_isSome (Check.dayOfMonth_isSome (hday ▸ h.dayOfMonth)) _ _
  · exact getD_join_of_isSome (Check.monthPart_isSome (hweek ▸ h.monthWeek)) _
  · exact getD_join_of_isSome (Check.monthPart_isSome (hweekday ▸ h.monthWeekday)) _
  · exact getD_of_isSome (Check.intervalSeconds_isSome (hsecs ▸ h.intervalSeconds)) _ _

/-- The merged payload of an edit has the four fields. -/
theorem complete_of_merged {incoming : Payload} {t : Draft}
    (h : Validated rt (switchMonthlyMode ((Payload.ofDraft t).update incoming) incoming) d) : Complete d s := by
  have hsome : ∀ p : Payload, p = switchMonthlyMode ((Payload.ofDraft t).update incoming) incoming →
      p.dayOfMonth.isSome ∧ p.monthWeek.isSome ∧ p.monthWeekday.isSome ∧ p.intervalSeconds.isSome := by
    intro p hp
    subst hp
    unfold switchMonthlyMode
    dsimp only
    have hupdate : ∀ (a : Option Value) (b : Value), (a <|> some b).isSome := by
      intro a b
      cases a <;> rfl
    split
    · exact ⟨rfl, rfl, rfl, hupdate _ _⟩
    · split
      · exact ⟨rfl, hupdate _ _, hupdate _ _, hupdate _ _⟩
      · split
        · exact ⟨hupdate _ _, rfl, rfl, hupdate _ _⟩
        · exact ⟨hupdate _ _, hupdate _ _, hupdate _ _, hupdate _ _⟩
  obtain ⟨hday, hweek, hweekday, hsecs⟩ := hsome _ rfl
  exact complete_of_isSome h hday hweek hweekday hsecs

/-- What the data of an edit went through. -/
theorem patchData_cases {env : Env} {user : Person} {row : ScheduleRow} {payload : Payload} {confirmationId : Option Value}
    {action : Action} (h : patchData env user row payload confirmationId = .ok (action, d)) :
    validateShape env.toRuntime d = .ok () ∧ Fits d ∧ Complete d (Draft.ofRow row) := by
  unfold patchData at h
  obtain ⟨incoming, _, h⟩ := bind_ok h
  obtain ⟨data, hdata, h⟩ := bind_ok h
  obtain ⟨action', _, h⟩ := bind_ok h
  obtain ⟨targets, _, h⟩ := bind_ok h
  obtain ⟨_, _, h⟩ := bind_ok h
  obtain ⟨canonical, _, h⟩ := bind_ok h
  obtain ⟨_, hshape, h⟩ := bind_ok h
  obtain ⟨_, _, h⟩ := bind_ok h
  cases h
  have hvalid := validated_of_ok hdata
  have hfits := fits_of_validated hvalid
  have hcomplete : Complete data (Draft.ofRow row) := complete_of_merged hvalid
  refine ⟨hshape, ?_, ?_⟩
  · exact ⟨hfits.day, hfits.week, hfits.weekday, hfits.secs⟩
  · exact ⟨hcomplete.day, hcomplete.week, hcomplete.weekday, hcomplete.secs⟩

/-- A schedule that `PATCH` saves has its shape. -/
theorem wellShaped_patch {env : Env} {now : Int} {user : Person} {old row : ScheduleRow} {payload : Payload}
    {confirmationId : Option Value} {fault : Option Raised}
    (h : patch env now user old payload confirmationId fault = .ok row) : WellShaped row.toTiming := by
  unfold patch at h
  obtain ⟨_, _, h⟩ := bind_ok h
  obtain ⟨_, _, h⟩ := bind_ok h
  obtain ⟨_, _, h⟩ := bind_ok h
  obtain ⟨⟨action, data⟩, hdata, h⟩ := bind_ok h
  obtain ⟨decision, _, h⟩ := bind_ok h
  obtain ⟨_, _, h⟩ := bind_ok h
  obtain ⟨hshape, hfits, hcomplete⟩ := patchData_cases hdata
  exact wellShaped_of_saved (shaped_signedBy (shaped_view hshape hfits hcomplete)) (saved_of_ok h)

/-! ### The modules' path -/

variable {env : Env} {a : ReconcileArgs} {o : Owned} {existing : Option ScheduleRow}

/-- What a call's data says when the call sends the shape of its type. -/
structure DataShape (a : ReconcileArgs) (d : ScheduleData) : Prop where
  fits : Fits d
  complete : ∀ s, Complete d s
  monthly : checkMonthlyShape d = .ok ()
  interval : requireInterval d = .ok ()
  notMonthly : d.scheduleType ≠ .monthly →
    (d.dayOfMonth.getD .null = .null ∨ d.dayOfMonth.getD .null = .blank) ∧ d.monthWeek.join = none ∧ d.monthWeekday.join = none
  sentInterval : d.scheduleType = .interval → a.scheduleType = .text "interval"

/-- The monthly fields of a call that does not ask for a monthly schedule are not set in its data. -/
theorem unset_of_not_monthly (hsent : ShapeSent a) (h : Validated env.toRuntime (reconcilePayload env a o existing) d)
    (htype : d.scheduleType ≠ .monthly) :
    (d.dayOfMonth.getD .null = .null ∨ d.dayOfMonth.getD .null = .blank) ∧ d.monthWeek.join = none ∧
      d.monthWeekday.join = none := by
  have hname : a.scheduleType ≠ .text "monthly" := by
    intro hname
    have hchecked := h.scheduleType
    simp only [reconcilePayload, hname] at hchecked
    exact htype (Except.ok.inj hchecked).symm
  obtain ⟨hday, hweek, hweekday⟩ := hsent.1 hname
  have hweek' : d.monthWeek = some none := Except.ok.inj (h.monthWeek.symm.trans (Check.monthPart_unset hweek))
  have hweekday' : d.monthWeekday = some none := Except.ok.inj (h.monthWeekday.symm.trans (Check.monthPart_unset hweekday))
  rw [hweek', hweekday']
  refine ⟨?_, rfl, rfl⟩
  rcases Check.dayOfMonth_unset hday h.dayOfMonth with hd | hd
  · rw [hd]
    exact Or.inl rfl
  · rw [hd]
    exact Or.inr rfl

/-- The data of a call has the shape of its type. -/
theorem dataShape_of_reconcileData (hsent : ShapeSent a) (h : reconcileData env a o existing = .ok d) : DataShape a d := by
  unfold reconcileData at h
  obtain ⟨data, hdata, h⟩ := bind_ok h
  obtain ⟨targets, _, h⟩ := bind_ok h
  obtain ⟨_, _, h⟩ := bind_ok h
  obtain ⟨_, _, h⟩ := bind_ok h
  obtain ⟨_, hmonthly, h⟩ := bind_ok h
  obtain ⟨_, hinterval, h⟩ := bind_ok h
  obtain ⟨_, _, h⟩ := bind_ok h
  cases h
  have hvalid := validated_of_ok hdata
  have hfits := fits_of_validated hvalid
  have hcomplete (s : Draft) : Complete data s := complete_of_isSome hvalid rfl rfl rfl rfl
  refine ⟨⟨hfits.day, hfits.week, hfits.weekday, hfits.secs⟩, fun s => ⟨(hcomplete s).day, (hcomplete s).week, (hcomplete s).weekday, (hcomplete s).secs⟩,
    hmonthly, hinterval, ?_, ?_⟩
  · intro htype
    exact unset_of_not_monthly (d := data) hsent hvalid htype
  · intro htype
    have htype' : data.scheduleType = .interval := htype
    exact Check.scheduleType_interval (htype' ▸ hvalid.scheduleType)

/-- The checks of a person's request leave the shape of the data. -/
theorem dataShape_of_reconcilePerson {request : Except Raised Person} {d' : ScheduleData} {who : Person × Bool}
    (h : DataShape a d) (hperson : reconcilePerson env a o existing d request = .ok (d', who)) : DataShape a d' := by
  have hkeep : ∀ targets, DataShape a { d with targets := some targets } := by
    intro targets
    refine ⟨⟨h.fits.day, h.fits.week, h.fits.weekday, h.fits.secs⟩, ?_, h.monthly, h.interval, h.notMonthly, h.sentInterval⟩
    intro s
    exact ⟨(h.complete s).day, (h.complete s).week, (h.complete s).weekday, (h.complete s).secs⟩
  unfold reconcilePerson at hperson
  obtain ⟨_, _, hperson⟩ := bind_ok hperson
  obtain ⟨_, _, hperson⟩ := bind_ok hperson
  obtain ⟨_, _, hperson⟩ := bind_ok hperson
  dsimp only at hperson
  split at hperson
  · obtain ⟨_, _, hperson⟩ := bind_ok hperson
    obtain ⟨targets, _, hperson⟩ := bind_ok hperson
    cases hperson
    exact hkeep targets
  · obtain ⟨targets, _, hperson⟩ := bind_ok hperson
    cases hperson
    exact hkeep targets

/-- The anchor of an interval schedule is a moment. -/
theorem anchor_ne_null {now : Int} {anchor : Value} (hsent : ShapeSent a) (htype : a.scheduleType = .text "interval")
    (h : anchorAttribute (reconcileAnchor now a existing) = .ok anchor) : anchor ≠ .null := by
  have hset : (reconcileAnchor now a existing).truthy = true := by
    unfold reconcileAnchor
    split
    · rfl
    · rename_i hgiven
      rcases hsent.2 htype with hnull | htruthy
      · exact absurd ⟨htype, hnull⟩ hgiven
      · exact htruthy
  unfold anchorAttribute at h
  split at h
  · cases h
    intro hnull
    cases hnull
  · rw [if_pos hset] at h
    cases h

/-- What `complete` makes of the timing columns. -/
theorem complete_eq (o : Owned) (anchor : Value) (previous : Option Draft) (t : Draft) :
    ∃ row : ScheduleRow, row.toTiming = t.row.toTiming ∧
      t.complete o anchor previous =
        { row := row, runAt := t.runAt, runTime := t.runTime, dayOfMonth := t.dayOfMonth,
          intervalAnchorAt := if t.row.scheduleType = .interval then anchor else .null,
          intervalSeconds := if t.row.scheduleType = .interval then t.intervalSeconds else .null } := by
  refine ⟨(t.complete o anchor previous).row, ?_⟩
  unfold Draft.complete Draft.clearInterval Draft.markValid
  by_cases htype : t.row.scheduleType = .interval
  · simp only [htype, if_true]
    split
    · exact ⟨rfl, rfl⟩
    · exact ⟨rfl, rfl⟩
  · simp only [htype, if_false]
    split
    · exact ⟨rfl, rfl⟩
    · exact ⟨rfl, rfl⟩

/-- The assignments of a call leave the row in memory with its shape. -/
theorem shaped_assign {now : Int} {anchor : Value} {previous : Option Draft} (hsent : ShapeSent a) (h : DataShape a d)
    (hanchor : anchorAttribute (reconcileAnchor now a existing) = .ok anchor) :
    Shaped ((s.assign o d).complete o anchor previous) := by
  obtain ⟨row, htiming, heq⟩ := complete_eq o anchor previous (s.assign o d)
  have htype : row.scheduleType = d.scheduleType := congrArg Timing.scheduleType htiming
  have hweek : row.monthWeek = d.monthWeek.join := (congrArg Timing.monthWeek htiming).trans (h.complete s).week
  have hweekday : row.monthWeekday = d.monthWeekday.join := (congrArg Timing.monthWeekday htiming).trans (h.complete s).weekday
  have hday : (s.assign o d).dayOfMonth = d.dayOfMonth.getD .null := (h.complete s).day
  have hsecs : (s.assign o d).intervalSeconds = d.intervalSeconds.getD .null := (h.complete s).secs
  have htype' : (s.assign o d).row.scheduleType = d.scheduleType := rfl
  rw [heq, htype', hsecs]
  refine ⟨?_, ?_, ?_, ?_⟩
  · intro hm
    exact shaped_monthly h.fits h.monthly (htype ▸ hm) hday hweek hweekday
  · intro hm
    dsimp only
    rw [hday, hweek, hweekday]
    exact h.notMonthly (htype ▸ hm)
  · intro hi
    have hinterval : d.scheduleType = .interval := htype ▸ hi
    obtain ⟨secs, hlen, hmin⟩ := interval_secs h.fits h.interval hinterval
    dsimp only
    rw [if_pos hinterval, if_pos hinterval]
    exact ⟨⟨secs, hlen, hmin⟩, anchor_ne_null hsent (h.sentInterval hinterval) hanchor⟩
  · intro hi
    have hinterval : d.scheduleType ≠ .interval := htype ▸ hi
    dsimp only
    rw [if_neg hinterval, if_neg hinterval]
    exact ⟨rfl, rfl⟩

/-- What is written about the person of a call does not touch the timing. -/
theorem shaped_confirmedBy {person : Person} {takeover : Bool} (h : Shaped s) :
    Shaped (s.confirmedBy env person existing takeover) := by
  refine shaped_of_timing ?_ h
  dsimp only
  split
  · split <;> rfl
  · split <;> rfl

/-- A row that has its shape is saved with it. -/
theorem wellShaped_saveReconciled {now : Int} {fault : Option Raised} {loaded : Option Draft} {row : ScheduleRow}
    (h : Shaped s) (hsaved : (saveReconciled env now fault loaded s).saved = some row) : WellShaped row.toTiming := by
  unfold saveReconciled at hsaved
  split at hsaved
  · rename_i saved hok
    cases hsaved
    exact wellShaped_of_saved h (saved_of_ok hok)
  · cases hsaved

/-- What a call saves after its assignments has its shape. -/
theorem wellShaped_reconcileAssign {now : Int} {fault : Option Raised} {id : String} {who : Option (Person × Bool)}
    {row : ScheduleRow} (hsent : ShapeSent a) (hdata : DataShape a d)
    (h : (reconcileAssign env now fault a o existing id d who).saved = some row) : WellShaped row.toTiming := by
  unfold reconcileAssign at h
  dsimp only at h
  split at h
  · cases h
  · rename_i anchor hanchor
    have hshaped : ∀ previous s, Shaped ((Draft.assign o d s).complete o anchor previous) :=
      fun previous s => shaped_assign hsent hdata hanchor
    split at h
    · cases h
    · split at h
      · exact wellShaped_saveReconciled (hshaped _ _) h
      · split at h
        · exact wellShaped_saveReconciled (hshaped _ _) h
        · split at h <;> cases h
    · exact wellShaped_saveReconciled (shaped_confirmedBy (hshaped _ _)) h

/-- What a call saves has its shape. A schedule that is switched off keeps the one it had. -/
theorem wellShaped_reconcileRow {now : Int} {fault : Option Raised} {id : String} {request : Option (Except Raised Person)}
    {removed : Bool} {row : ScheduleRow} (hsent : ShapeSent a) (hold : ∀ old, existing = some old → WellShaped old.toTiming)
    (h : (reconcileRow env now fault a o request removed id existing).saved = some row) : WellShaped row.toTiming := by
  unfold reconcileRow at h
  dsimp only at h
  split at h
  · cases h
  · split at h
    · cases h
    · rename_i data hdata
      have hshape := dataShape_of_reconcileData hsent hdata
      split at h
      · split at h
        · cases h
        · rename_i hperson
          exact wellShaped_reconcileAssign hsent (dataShape_of_reconcilePerson hshape hperson) h
      · split at h
        · rename_i old _
          split at h
          · unfold switchPersonOff at h
            split at h
            · split at h
              · cases h
              · cases h
                exact hold old rfl
            · cases h
          · exact wellShaped_reconcileAssign hsent hshape h
        · exact wellShaped_reconcileAssign hsent hshape h

/-- One call keeps the shape of every stored schedule. -/
theorem wellShaped_step {now : Int} {act : WriteAct} {rows : List ScheduleRow} (hcall : CallsSendShape now act rows)
    (h : ∀ row ∈ rows, WellShaped row.toTiming) : ∀ row ∈ ScheduleTable.step now act rows, WellShaped row.toTiming := by
  cases act with
  | post env user payload confirmationId id fault =>
    refine ScheduleTable.forall_write h ?_
    intro row hrow
    exact wellShaped_post (ok_of_toOption hrow)
  | patch env user id payload confirmationId fault =>
    unfold ScheduleTable.step
    dsimp only
    split
    · exact h
    · refine ScheduleTable.forall_write h ?_
      intro row hrow
      exact wellShaped_patch (ok_of_toOption hrow)
  | reconcile env args request removed id fault =>
    unfold ScheduleTable.step
    dsimp only
    split
    · exact h
    · refine ScheduleTable.forall_write h ?_
      intro row hrow
      refine wellShaped_reconcileRow hcall ?_ hrow
      intro old hold
      exact h old (List.mem_of_find?_eq_some hold)

end StoredShapeAux

/-- Stored schedule shape: after any sequence of creations, edits and module calls in which the module calls send the
shape of their type, every stored schedule has its shape. -/
theorem stored_schedules_wellShaped (rows : List ScheduleRow) (clock : Int) (es : List (Event WriteAct))
    (hrows : ∀ row ∈ rows, WellShaped row.toTiming) (hcalls : Along ScheduleTable.step CallsSendShape ⟨clock, rows⟩ es) :
    ∀ row ∈ (exec ScheduleTable.step ⟨clock, rows⟩ es).state, WellShaped row.toTiming :=
  exec_invariant (P := fun _ rows => ∀ row ∈ rows, WellShaped row.toTiming)
    (fun _ _ _ _ hcall h => StoredShapeAux.wellShaped_step hcall h) hrows hcalls

/-- A person creates a schedule for every last Friday, changes it to every day, and a module creates one of its own. -/
def sampleWrites : List (Event WriteAct) :=
  [⟨0, .post sampleEnv ⟨1, "alice"⟩
      { name := some (.text "Month end"), actionId := some (.text "backup.run"), scheduleType := some (.text "monthly"),
        runTime := some (.text "03:00"), monthWeek := some (.int (-1)), monthWeekday := some (.int 4) } none "s1" none⟩,
    ⟨60, .patch sampleEnv ⟨1, "alice"⟩ "s1" { scheduleType := some (.text "daily") } none none⟩,
    ⟨60, .reconcile sampleEnv sampleCall none false "s2" none⟩]

theorem stored_schedules_wellShaped_sample :
    (exec ScheduleTable.step ⟨0, []⟩ sampleWrites).state.length = 2 ∧
      ∀ row ∈ (exec ScheduleTable.step ⟨0, []⟩ sampleWrites).state, WellShaped row.toTiming := by
  refine ⟨by decide +kernel, stored_schedules_wellShaped [] 0 sampleWrites ?_ ?_⟩
  · simp
  · refine ⟨trivial, trivial, ⟨?_, ?_⟩, trivial⟩
    · intro _
      decide
    · intro h
      simp [sampleCall, Value.text] at h

/-- A module call for a daily schedule that also sends a day of the month stores both. -/
theorem module_call_stores_daily_with_day :
    ¬ ∀ row ∈ (exec ScheduleTable.step ⟨0, []⟩
      [⟨0, .reconcile sampleEnv { sampleCall with dayOfMonth := .int 5 } none false "s1" none⟩]).state,
      WellShaped row.toTiming := by
  intro h
  obtain ⟨row, hrow, htype, hday⟩ : ∃ row ∈ (exec ScheduleTable.step ⟨0, []⟩
      [⟨0, .reconcile sampleEnv { sampleCall with dayOfMonth := .int 5 } none false "s1" none⟩]).state,
      row.scheduleType = .daily ∧ row.dayOfMonth = some 5 := by decide +kernel
  have hnone := ((h row hrow).notMonthly (by rw [htype]; decide)).1
  rw [hday] at hnone
  cases hnone

end TecTac
