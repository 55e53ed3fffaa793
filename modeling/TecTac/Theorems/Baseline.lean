import TecTac.Lemmas.World

/-!
# What moves the revision baseline

An occurrence from before the last create or edit is consumed without a run. The tick reads that moment off
`updated_at`, and while `last_due_key` is blank any save that writes `updated_at` moves it: the canonicalisation of the
targets by a tick or by Run now, the end of a run, a `reconcile_schedule` call without a stored creator. An occurrence
between the edit and such a save is lost. In every run in which no occurrence lies there (`NoOccurrenceBeforeSave`),
only occurrences from before the last create or edit are consumed without a run.
-/

namespace TecTac

open Timeline

/-- Every occurrence a tick consumed without a run is from before the last create or edit. -/
def BaselineRespected (w : World) : Prop :=
  ∀ e ∈ w.ticks, ∀ occurrence, e.baseline = some occurrence → occurrence < e.revisedAt

/-- Every tick reads the same time zone database. -/
def SameZones (zoneinfo : String → Option Zone) (_ : Int) (a : WorldAct) (w : World) : Prop :=
  ∀ h, a = .tickWrite → w.tick = some h → h.env.zoneinfo = zoneinfo

/-- When a step that is no edit saves `updated_at` of an enabled schedule whose `last_due_key` is blank, no occurrence
of the schedule lies between the last create or edit and that save. -/
def NoOccurrenceBeforeSave (timeouts : String → Option Nat) (zoneinfo : String → Option Zone) (clock : Int) (a : WorldAct)
    (w : World) : Prop :=
  ∀ s, w.schedule = some s → s.enabled = true → s.lastDueKey = none → SavesRevision timeouts clock a w s →
    ∀ z, zoneinfo s.timezone = some z → ∀ now occurrence, latestOccurrence z s.toTiming now = some occurrence →
      ¬(w.revisedAt ≤ occurrence ∧ occurrence < clock)

/-- While `last_due_key` is blank, `updated_at` stands for the last create or edit: an occurrence before the one is
before the other. -/
def StandsForRevision (zoneinfo : String → Option Zone) (revisedAt : Int) (s : Schedule) : Prop :=
  s.enabled = true → s.lastDueKey = none → ∀ z, zoneinfo s.timezone = some z → ∀ now occurrence,
    latestOccurrence z s.toTiming now = some occurrence → occurrence < s.updatedAt → occurrence < revisedAt

/-- The invariant. -/
structure BaselineHeld (zoneinfo : String → Option Zone) (w : World) : Prop where
  respected : BaselineRespected w
  stands : ∀ s, w.schedule = some s → StandsForRevision zoneinfo w.revisedAt s

namespace BaselineAux

variable {timeouts : String → Option Nat} {zoneinfo : String → Option Zone} {clock : Int} {a : WorldAct} {w w' : World}

/-- A row with the same timing whose `updated_at` is the old one, or the moment of a save that no occurrence precedes,
still stands for the revision. -/
theorem stands_of_updatedAt {s s' : Schedule} (h : StandsForRevision zoneinfo w.revisedAt s) (hs : w.schedule = some s)
    (hcond : NoOccurrenceBeforeSave timeouts zoneinfo clock a w) (htiming : s'.toTiming = s.toTiming)
    (hkey : s'.lastDueKey = s.lastDueKey) (hen : s'.enabled = true → s.enabled = true)
    (hupd : s'.enabled = true → s'.updatedAt = s.updatedAt ∨ (s'.updatedAt = clock ∧ SavesRevision timeouts clock a w s)) :
    StandsForRevision zoneinfo w.revisedAt s' := by
  intro hen' hnone z hz now occurrence hocc hlt
  rw [hkey] at hnone
  rw [congrArg Timing.timezone htiming] at hz
  rw [htiming] at hocc
  rcases hupd hen' with heq | ⟨heq, hsaves⟩
  · exact h (hen hen') hnone z hz now occurrence hocc (heq ▸ hlt)
  · have := hcond s hs (hen hen') hnone hsaves z hz now occurrence hocc
    omega

theorem stands_of_kept {s s' : Schedule} (h : StandsForRevision zoneinfo w.revisedAt s) (hs : w.schedule = some s)
    (hcond : NoOccurrenceBeforeSave timeouts zoneinfo clock a w) (hkept : Kept timeouts clock a w s s') :
    StandsForRevision zoneinfo w.revisedAt s' :=
  stands_of_updatedAt h hs hcond hkept.timing hkept.lastDueKey hkept.enabled hkept.updatedAt

/-- The row a tick goes on with stands for the revision too. -/
theorem stands_of_ready {hold : TickHold} {s s' : Schedule} {z : Zone} (h : StandsForRevision zoneinfo w.revisedAt s)
    (htick : w.tick = some hold) (hs : w.schedule = some s)
    (hcond : NoOccurrenceBeforeSave timeouts zoneinfo clock .tickWrite w)
    (hready : Ready clock hold.env s z s') : StandsForRevision zoneinfo w.revisedAt s' := by
  obtain ⟨canonical, hcanon, hupd⟩ := hready.canonical
  refine stands_of_updatedAt h hs hcond hready.same.timing hready.same.lastDueKey (fun _ => hready.enabled) ?_
  intro _
  by_cases hne : canonical ≠ s.targets
  · rw [if_pos hne] at hupd
    exact Or.inr ⟨hupd, hold, canonical, htick, hready.unpaused, hcanon, hne⟩
  · rw [if_neg hne] at hupd
    exact Or.inl hupd

/-- A schedule with a key, or switched off, has nothing to stand for. -/
theorem stands_of_some {revisedAt key : Int} {s : Schedule} (h : s.lastDueKey = some key) :
    StandsForRevision zoneinfo revisedAt s :=
  fun _ hnone => by cases h.symm.trans hnone

theorem stands_of_off {revisedAt : Int} {s : Schedule} (h : s.enabled = false) : StandsForRevision zoneinfo revisedAt s :=
  fun hen => by cases h.symm.trans hen

/-- A tick whose record and row respect the baseline keeps the invariant. -/
theorem held_of_write {hold : TickHold} {s : Schedule} (h : BaselineHeld zoneinfo w)
    (hbase : ∀ occurrence, (dispatchSchedule clock hold.env hold.active s).baseline = some occurrence →
      occurrence < w.revisedAt)
    (hstands : StandsForRevision zoneinfo w.revisedAt (dispatchSchedule clock hold.env hold.active s).schedule) :
    BaselineHeld zoneinfo (w.write clock hold s) := by
  refine ⟨?_, ?_⟩
  · intro e he occurrence hocc
    rcases List.mem_append.mp he with he | he
    · exact h.respected e he occurrence hocc
    · obtain rfl := List.mem_singleton.mp he
      exact hbase occurrence hocc
  · intro s' hs'
    obtain rfl := Option.some.inj hs'
    exact hstands

/-- The step lemma for the write of a tick. -/
theorem held_write {hold : TickHold} {s : Schedule} (h : BaselineHeld zoneinfo w) (htick : w.tick = some hold)
    (hs : w.schedule = some s) (hzones : hold.env.zoneinfo = zoneinfo)
    (hcond : NoOccurrenceBeforeSave timeouts zoneinfo clock .tickWrite w) : BaselineHeld zoneinfo (w.write clock hold s) := by
  have hdisp := dispatched clock hold.env hold.active s
  refine held_of_write h ?_ ?_
  · intro occurrence hocc
    generalize dispatchSchedule clock hold.env hold.active s = r at hdisp hocc
    cases hdisp with
    | waits | invalid | nothingNew | created => cases hocc
    | baseline z s' s'' occurrence' hready hlatest hnone hlt =>
      obtain rfl := Option.some.inj hocc
      have hstands := stands_of_ready (h.stands s hs) htick hs hcond hready
      refine hstands (hready.same.enabled.trans hready.enabled)
        (hready.same.lastDueKey.trans hnone) z ?_ hold.env.now occurrence' ?_ hlt
      · rw [congrArg Timing.timezone hready.same.timing, ← hzones]
        exact hready.zone
      · rw [hready.same.timing]
        exact hlatest
  · generalize dispatchSchedule clock hold.env hold.active s = r at hdisp ⊢
    cases hdisp with
    | waits s' _ hsame hupd =>
      exact stands_of_updatedAt (h.stands s hs) hs hcond hsame.timing hsame.lastDueKey (fun hen => hsame.enabled ▸ hen)
        (fun _ => Or.inl hupd)
    | invalid s' text row _ _ _ hoff => exact stands_of_off hoff
    | nothingNew z s' hready => exact stands_of_ready (h.stands s hs) htick hs hcond hready
    | baseline z s' s'' occurrence _ _ _ _ hconsumed => exact stands_of_some hconsumed.lastDueKey
    | created z s' s'' occurrence row _ _ _ hconsumed => exact stands_of_some hconsumed.lastDueKey

/-- A step that writes no tick and keeps the moment of the revision. -/
theorem held_of_saved (h : BaselineHeld zoneinfo w) (hcond : NoOccurrenceBeforeSave timeouts zoneinfo clock a w)
    (hsaved : Saved timeouts clock a w w') (hrevised : w'.revisedAt = w.revisedAt) (hticks : w'.ticks = w.ticks) :
    BaselineHeld zoneinfo w' := by
  refine ⟨fun e he => h.respected e (hticks ▸ he), ?_⟩
  intro s' hs'
  obtain ⟨s, hs, hkept⟩ := hsaved s' hs'
  rw [hrevised]
  exact stands_of_kept (h.stands s hs) hs hcond hkept

/-- Every step keeps the invariant. -/
theorem held_of_move (hmove : WorldMove timeouts clock a w w') (hzones : SameZones zoneinfo clock a w)
    (hcond : NoOccurrenceBeforeSave timeouts zoneinfo clock a w) (h : BaselineHeld zoneinfo w) :
      BaselineHeld zoneinfo w' := by
  cases hmove with
  | read env => exact ⟨h.respected, h.stands⟩
  | wrote hold s ha htick hs =>
    subst ha
    exact held_write h htick hs (hzones hold rfl htick) hcond
  | saved _ hsaved _ _ hrevised hticks => exact held_of_saved h hcond hsaved hrevised hticks
  | edited _ new s keepKey _ _ hs' _ _ hrevised hticks =>
    refine ⟨fun e he => h.respected e (hticks ▸ he), ?_⟩
    intro s' h' _ _ z _ now occurrence _ hlt
    obtain rfl := Option.some.inj (hs'.symm.trans h')
    rw [hrevised]
    exact hlt
  | started _ row hsaved _ _ _ _ _ hrevised hticks => exact held_of_saved h hcond hsaved hrevised hticks
  | ran _ i r b hsaved _ _ _ hrevised hticks => exact held_of_saved h hcond hsaved hrevised hticks
  | deleted _ _ hnone _ _ _ hticks =>
    exact ⟨fun e he => h.respected e (hticks ▸ he), fun s' hs' => by cases hnone.symm.trans hs'⟩

end BaselineAux

/-- In every interleaving, from the creation of a schedule on, in which no occurrence lies between the last create or
edit and a later save of `updated_at` while `last_due_key` is blank: an occurrence at or after the last create or edit
is never consumed without a run. -/
theorem baseline_respected (timeouts : String → Option Nat) (zoneinfo : String → Option Zone) (clock : Int) (s : Schedule)
    (es : List (Event WorldAct)) (hzones : Along (World.step timeouts) (SameZones zoneinfo) ⟨clock, World.created clock s⟩ es)
    (h : Along (World.step timeouts) (NoOccurrenceBeforeSave timeouts zoneinfo) ⟨clock, World.created clock s⟩ es) :
    BaselineRespected (exec (World.step timeouts) ⟨clock, World.created clock s⟩ es).state := by
  have hstart : BaselineHeld zoneinfo (World.created clock s) := by
    refine ⟨fun e he => (by cases he), ?_⟩
    intro s' hs' _ _ z _ now occurrence _ hlt
    obtain rfl := Option.some.inj hs'
    exact hlt
  exact (exec_invariant (P := fun _ w => BaselineHeld zoneinfo w)
    (fun c n a w hc hw => BaselineAux.held_of_move (w.step_move timeouts (c + n) a) hc.1 hc.2 hw) hstart
    (hzones.and h)).respected

/-! ## A run that ends before the tick -/

/-- A tick just after 13:00 of 1 January 1970, the moment the schedule is created at. -/
def afterCreation : List (Event WorldAct) := tickAfter utcOnly 60 46860

/-- Noon of that day is consumed without a run, and it is from before the creation. -/
theorem afterCreation_respected :
    ((exec (World.step fun _ => none) ⟨46800000000, World.created 46800000000 (dailyNoon "UTC")⟩ afterCreation).state.ticks.map
        (·.baseline)) = [some 43200000000] ∧
      BaselineRespected (exec (World.step fun _ => none) ⟨46800000000, World.created 46800000000 (dailyNoon "UTC")⟩ afterCreation).state := by
  refine ⟨by decide, baseline_respected (fun _ => none) utcOnly 46800000000 (dailyNoon "UTC") afterCreation ?_ ?_⟩
  · simp only [afterCreation, tickAfter, along_cons, along_nil, and_true]
    refine ⟨fun _ ha => (by cases ha), ?_⟩
    intro h _ htick
    obtain rfl := Option.some.inj htick
    rfl
  · simp only [afterCreation, tickAfter, along_cons, along_nil, and_true]
    refine ⟨fun s _ _ _ hsaves => hsaves.elim, ?_⟩
    intro s _ _ _ hsaves
    obtain ⟨h, canonical, htick, -, hcanon, hne⟩ := hsaves
    obtain rfl := Option.some.inj htick
    exact absurd (Except.ok.inj hcanon).symm hne

/-- A manual run is started a minute before noon and ends ten seconds after it. The next tick is twenty seconds later.
-/
def manualRunOverNoon : List (Event WorldAct) :=
  [⟨43140 * 1000000, .runNow { runId := "r1" }⟩, ⟨1, .run 0 .accept⟩, ⟨1, .run 0 (.deliver 0 {})⟩, ⟨1, .run 0 (.invoke 0)⟩,
    ⟨70 * 1000000, .run 0 (.finishResult 0 .empty)⟩] ++ tickAfter utcOnly 20 43230

/-- The end of the manual run moves the baseline past noon, and the tick drops the run of that day. -/
theorem manualRunOverNoon_loses_run :
    ¬∀ es : List (Event WorldAct),
      Along (World.step fun _ => none) (SameZones utcOnly) ⟨0, World.created 0 (dailyNoon "UTC")⟩ es →
      BaselineRespected (exec (World.step fun _ => none) ⟨0, World.created 0 (dailyNoon "UTC")⟩ es).state := by
  intro h
  have hzones : Along (World.step fun _ => none)
    (SameZones utcOnly) ⟨0, World.created 0 (dailyNoon "UTC")⟩ manualRunOverNoon := by
    simp only [manualRunOverNoon, tickAfter, List.cons_append, List.nil_append, along_cons, along_nil, and_true]
    refine ⟨fun _ ha => (by cases ha), fun _ ha => (by cases ha), fun _ ha => (by cases ha), fun _ ha => (by cases ha),
      fun _ ha => (by cases ha), fun _ ha => (by cases ha), ?_⟩
    intro h _ htick
    obtain rfl := Option.some.inj htick
    rfl
  have hticks : (exec (World.step fun _ => none) ⟨0, World.created 0 (dailyNoon "UTC")⟩ manualRunOverNoon).state.ticks =
      [⟨43230000000, none, some 43200000000, 0⟩] := by decide
  have hlt := h manualRunOverNoon hzones _ (by rw [hticks]; exact List.mem_singleton.mpr rfl) 43200000000 rfl
  revert hlt
  decide

end TecTac
