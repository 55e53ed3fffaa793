import TecTac.Dispatch

/-!
# What a tick can do to a schedule

`dispatchSchedule` is taken apart once, in `dispatched`: the tick stops before it looks for an occurrence, or switches
the schedule off, or finds nothing new, or consumes an occurrence without a run, or creates a run for it. The theorems
about ticks go by these cases and never unfold the tick again.
-/

namespace TecTac

/-- A run row as it is created: queued or skipped, with no attempt made and nothing pending. -/
structure RunRow.Born (row : RunRow) : Prop where
  status : row.status = .queued ∨ row.status = .skipped
  attempt : row.attempt = 0
  completionState : row.completionState = .blank
  completionRef : row.completionRef = none
  startedAt : row.startedAt = none
  lastQueuedAt : row.lastQueuedAt = some row.createdAt

/-- A new row is born queued. -/
theorem runKwargs_born (s : Schedule) (id : String) (clock at_ : Int) : (runKwargs s id clock at_).Born :=
  ⟨Or.inl rfl, rfl, rfl, rfl, rfl, rfl⟩

/-- A row that is skipped when it is created is born too. -/
theorem skippedRun_born (clock now : Int) (id : String) (s : Schedule) (at_ : Int) (ty text : String) :
    (skippedRun clock now id s at_ ty text).Born :=
  ⟨Or.inr rfl, rfl, rfl, rfl, rfl, rfl⟩

/-! ## Consumed occurrences -/

@[simp] theorem switchOffOnce_toTiming (s : Schedule) : (switchOffOnce s).toTiming = s.toTiming := by
  unfold switchOffOnce
  split <;> rfl

@[simp] theorem switchOffOnce_lastDueKey (s : Schedule) : (switchOffOnce s).lastDueKey = s.lastDueKey := by
  unfold switchOffOnce
  split <;> rfl

@[simp] theorem switchOffOnce_concurrencyPolicy (s : Schedule) :
    (switchOffOnce s).concurrencyPolicy = s.concurrencyPolicy := by
  unfold switchOffOnce
  split <;> rfl

/-- What a tick leaves of a schedule when it consumes an occurrence: the key is the new one, whether or not a one-time
schedule is switched off with it. -/
def Consumed (clock key : Int) (s s' : Schedule) : Prop :=
  s' = markConsumed clock key s ∨ s' = switchOffOnce (markConsumed clock key s)

namespace Consumed

variable {clock key : Int} {s s' : Schedule}

theorem toTiming (h : Consumed clock key s s') : s'.toTiming = s.toTiming := by
  rcases h with rfl | rfl
  · rfl
  · exact switchOffOnce_toTiming _

theorem lastDueKey (h : Consumed clock key s s') : s'.lastDueKey = some key := by
  rcases h with rfl | rfl
  · rfl
  · exact switchOffOnce_lastDueKey _

theorem concurrencyPolicy (h : Consumed clock key s s') : s'.concurrencyPolicy = s.concurrencyPolicy := by
  rcases h with rfl | rfl
  · rfl
  · exact switchOffOnce_concurrencyPolicy _

end Consumed

/-! ## The saves before the occurrence -/

/-- The columns that decide which occurrence is due, and whether it was consumed, are the same in both rows. -/
structure SameDue (s s' : Schedule) : Prop where
  timing : s'.toTiming = s.toTiming
  enabled : s'.enabled = s.enabled
  lastDueKey : s'.lastDueKey = s.lastDueKey
  concurrencyPolicy : s'.concurrencyPolicy = s.concurrencyPolicy

theorem SameDue.refl (s : Schedule) : SameDue s s := ⟨rfl, rfl, rfl, rfl⟩

theorem SameDue.trans {s s' s'' : Schedule} (h : SameDue s s') (h' : SameDue s' s'') : SameDue s s'' :=
  ⟨h'.timing.trans h.timing, h'.enabled.trans h.enabled, h'.lastDueKey.trans h.lastDueKey,
    h'.concurrencyPolicy.trans h.concurrencyPolicy⟩

/-- The pause writes nothing but its reason. -/
theorem applyModulePause_eq (v : ScheduleVisibility) (s : Schedule) :
    ∃ reason, (applyModulePause v s).2 = { s with pausedReason := reason } := by
  unfold applyModulePause
  cases v.kind s with
  | orphaned => exact ⟨pausedOwnerNotInstalled, rfl⟩
  | disabled =>
    by_cases hu : v.unreadable = true
    · exact ⟨s.pausedReason, by simp only [hu, if_true]⟩
    · exact ⟨pausedModuleDisabled, by simp only [hu, Bool.false_eq_true, if_false]⟩
  | ordinary =>
    by_cases hc : s.pausedReason ∈ coreReasons
    · exact ⟨"", by simp only [hc, if_true]⟩
    · exact ⟨s.pausedReason, by simp only [hc, if_false]⟩

theorem sameDue_applyModulePause (v : ScheduleVisibility) (s : Schedule) : SameDue s (applyModulePause v s).2 := by
  obtain ⟨reason, h⟩ := applyModulePause_eq v s
  rw [h]
  exact ⟨rfl, rfl, rfl, rfl⟩

theorem updatedAt_applyModulePause (v : ScheduleVisibility) (s : Schedule) :
    (applyModulePause v s).2.updatedAt = s.updatedAt := by
  obtain ⟨reason, h⟩ := applyModulePause_eq v s
  rw [h]

theorem targets_applyModulePause (v : ScheduleVisibility) (s : Schedule) : (applyModulePause v s).2.targets = s.targets := by
  obtain ⟨reason, h⟩ := applyModulePause_eq v s
  rw [h]

theorem sameDue_saveCanonicalTargets (clock : Int) (canonical : Json) (s : Schedule) :
    SameDue s (saveCanonicalTargets clock canonical s) := by
  unfold saveCanonicalTargets
  split
  · exact ⟨rfl, rfl, rfl, rfl⟩
  · exact SameDue.refl s

/-- The save of canonicalised targets moves `updated_at` exactly when the targets changed. -/
theorem updatedAt_saveCanonicalTargets (clock : Int) (canonical : Json) (s : Schedule) :
    (saveCanonicalTargets clock canonical s).updatedAt = if canonical ≠ s.targets then clock else s.updatedAt := by
  unfold saveCanonicalTargets
  split <;> rfl

/-- The tick goes on to look for an occurrence, in zone `z` and with the row `s'`: the schedule is enabled and not
paused, its targets have a valid shape, and its time zone is known. -/
structure Ready (clock : Int) (env : TickEnv) (s : Schedule) (z : Zone) (s' : Schedule) : Prop where
  enabled : s.enabled = true
  unpaused : (applyModulePause env.visibility s).1 = false
  zone : env.zoneinfo s.timezone = some z
  canonical : ∃ canonical, env.canonicalTargets s.targets = .ok canonical ∧
    s'.updatedAt = if canonical ≠ s.targets then clock else s.updatedAt
  same : SameDue s s'

/-! ## The cases of a tick -/

/-- What a tick of `s` at `clock` can come to. -/
inductive Dispatched (clock : Int) (env : TickEnv) (active : Bool) (s : Schedule) : TickResult → Prop where
  /-- The schedule is off or paused, or its time zone is unknown. -/
  | waits (s' : Schedule) :
      (s.enabled = true → (applyModulePause env.visibility s).1 = false →
        (∃ canonical, env.canonicalTargets s.targets = .ok canonical) ∧ env.zoneinfo s.timezone = none) →
      SameDue s s' → s'.updatedAt = s.updatedAt → Dispatched clock env active s { schedule := s' }
  /-- The targets have no valid shape. -/
  | invalid (s' : Schedule) (text : String) (row : RunRow) :
      s.enabled = true → (applyModulePause env.visibility s).1 = false → env.canonicalTargets s.targets = .error text →
      s'.enabled = false → s'.toTiming = s.toTiming → s'.lastDueKey = s.lastDueKey → s'.updatedAt = clock →
      s'.concurrencyPolicy = s.concurrencyPolicy → row.Born → row.manual = false → row.status = .skipped →
      row.errorType = "InvalidTargetShape" → Dispatched clock env active s { schedule := s', created := some row }
  /-- There is no occurrence, or it was consumed before. -/
  | nothingNew (z : Zone) (s' : Schedule) :
      Ready clock env s z s' →
      (∀ occurrence, latestOccurrence z s.toTiming env.now = some occurrence →
        s.lastDueKey = some (dueKey s.toTiming occurrence)) →
      Dispatched clock env active s { schedule := s' }
  /-- The occurrence is from before the last revision. -/
  | baseline (z : Zone) (s' s'' : Schedule) (occurrence : Int) :
      Ready clock env s z s' → latestOccurrence z s.toTiming env.now = some occurrence → s.lastDueKey = none →
      occurrence < s'.updatedAt → Consumed clock (dueKey s.toTiming occurrence) s' s'' →
      Dispatched clock env active s { schedule := s'', baseline := some occurrence }
  /-- The occurrence gets a run, queued or skipped. -/
  | created (z : Zone) (s' s'' : Schedule) (occurrence : Int) (row : RunRow) :
      Ready clock env s z s' → latestOccurrence z s.toTiming env.now = some occurrence →
      s.lastDueKey ≠ some (dueKey s.toTiming occurrence) →
      Consumed clock (dueKey s.toTiming occurrence) s' s'' → row.Born → row.manual = false →
        row.scheduledFor = occurrence → row.errorType ≠ "InvalidTargetShape" →
      (row.status = .queued → active = true → s.concurrencyPolicy ≠ .skip) →
      Dispatched clock env active s { schedule := s'', created := some row }

/-- The first half of both branches: either the tick ends there, in one of two of the cases, or it goes on with an
occurrence that is new. -/
theorem dispatched_withOccurrence {clock : Int} {env : TickEnv} {active : Bool} {s s' : Schedule} {z : Zone}
    {go : Int → Int → TickResult} (hready : Ready clock env s z s')
    (hgo : ∀ occurrence, latestOccurrence z s.toTiming env.now = some occurrence →
      s.lastDueKey ≠ some (dueKey s.toTiming occurrence) →
      Dispatched clock env active s (go occurrence (dueKey s.toTiming occurrence))) :
    Dispatched clock env active s (withOccurrence clock z s' env.now go) := by
  unfold withOccurrence
  rw [hready.same.timing]
  cases hocc : latestOccurrence z s.toTiming env.now with
  | none => exact .nothingNew z s' hready (fun occurrence h => by cases hocc.symm.trans h)
  | some occurrence =>
    simp only [hready.same.lastDueKey]
    split
    · rename_i hkey
      refine .nothingNew z s' hready ?_
      intro occurrence' h
      obtain rfl := Option.some.inj (hocc.symm.trans h)
      exact hkey
    · rename_i hkey
      unfold consumeRevisionBaseline occurrencePredatesScheduleRevision
      by_cases hpre : (s'.lastDueKey.isNone && decide (occurrence < s'.updatedAt)) = true
      · rw [if_pos hpre]
        rw [Bool.and_eq_true, Option.isNone_iff_eq_none, decide_eq_true_eq, hready.same.lastDueKey] at hpre
        exact .baseline z s' _ occurrence hready hocc hpre.1 hpre.2 (Or.inr rfl)
      · rw [if_neg hpre]
        exact hgo occurrence hocc hkey

/-- The branch of a schedule whose owner is no longer authorized. -/
theorem dispatched_dispatchRevoked {clock : Int} {env : TickEnv} {active : Bool} {s s' : Schedule} {z : Zone} {text : String}
    (hready : Ready clock env s z s') : Dispatched clock env active s (dispatchRevoked clock env z text s') := by
  refine dispatched_withOccurrence hready ?_
  intro occurrence hocc hkey
  exact .created z s' _ occurrence _ hready hocc hkey (Or.inl rfl) (skippedRun_born _ _ _ _ _ _ _) rfl rfl
    (by decide : "AuthorizationRevoked" ≠ "InvalidTargetShape") (fun h => by cases h)

theorem missedErrorType_ne (p : MissedPolicy) : missedErrorType p ≠ "InvalidTargetShape" := by
  cases p <;> decide

/-- The branch of an authorized schedule. -/
theorem dispatched_dispatchAuthorized {clock : Int} {env : TickEnv} {active : Bool} {s s' : Schedule} {z : Zone}
    (hready : Ready clock env s z s') : Dispatched clock env active s (dispatchAuthorized clock env z active s') := by
  refine dispatched_withOccurrence hready ?_
  intro occurrence hocc hkey
  split
  · exact .created z s' _ occurrence _ hready hocc hkey (Or.inr rfl) (skippedRun_born _ _ _ _ _ _ _) rfl rfl
      (missedErrorType_ne s'.missedPolicy) (fun h => by cases h)
  · split
    · exact .created z s' _ occurrence _ hready hocc hkey (Or.inr rfl) (skippedRun_born _ _ _ _ _ _ _) rfl rfl
        (by decide : "ActionUnavailable" ≠ "InvalidTargetShape") (fun h => by cases h)
    · split
      · exact .created z s' _ occurrence _ hready hocc hkey (Or.inl rfl) (skippedRun_born _ _ _ _ _ _ _) rfl rfl
          (by decide : "ConcurrencySkip" ≠ "InvalidTargetShape") (fun h => by cases h)
      · rename_i hskip
        refine .created z s' _ occurrence _ hready hocc hkey (Or.inr rfl) (runKwargs_born _ _ _ _) rfl rfl
          (by decide : "" ≠ "InvalidTargetShape") (fun _ hactive hpolicy => hskip ?_)
        rw [hactive, hready.same.concurrencyPolicy, hpolicy]
        rfl

/-- Every tick is one of the cases. -/
theorem dispatched (clock : Int) (env : TickEnv) (active : Bool) (s : Schedule) :
    Dispatched clock env active s (dispatchSchedule clock env active s) := by
  unfold dispatchSchedule
  by_cases hen : s.enabled = true
  · rw [if_neg (by simp [hen])]
    simp only
    have htargets := targets_applyModulePause env.visibility s
    have hsame := sameDue_applyModulePause env.visibility s
    have hupd := updatedAt_applyModulePause env.visibility s
    by_cases hpause : (applyModulePause env.visibility s).1 = true
    · rw [if_pos hpause]
      exact .waits _ (fun _ h => absurd hpause (by simp [h])) hsame hupd
    · rw [if_neg hpause, htargets]
      have hpause : (applyModulePause env.visibility s).1 = false := by simpa using hpause
      cases hcanon : env.canonicalTargets s.targets with
      | error text =>
        exact .invalid _ text _ hen hpause hcanon rfl hsame.timing hsame.lastDueKey rfl hsame.concurrencyPolicy
          (skippedRun_born _ _ _ _ _ _ _) rfl rfl rfl
      | ok canonical =>
        simp only
        have hsame' := hsame.trans (sameDue_saveCanonicalTargets clock canonical (applyModulePause env.visibility s).2)
        rw [congrArg Timing.timezone hsame'.timing]
        cases hzone : env.zoneinfo s.timezone with
        | none => exact .waits s (fun _ _ => ⟨⟨canonical, hcanon⟩, hzone⟩) (SameDue.refl s) rfl
        | some z =>
          have hready : Ready clock env s z (saveCanonicalTargets clock canonical (applyModulePause env.visibility s).2) := by
            refine ⟨hen, hpause, hzone, ⟨canonical, hcanon, ?_⟩, hsame'⟩
            rw [updatedAt_saveCanonicalTargets, htargets, hupd]
          simp only
          split
          · exact dispatched_dispatchRevoked hready
          · exact dispatched_dispatchAuthorized hready
  · rw [if_pos (by simp [hen])]
    exact .waits s (fun h => absurd h hen) (SameDue.refl s) rfl

/-- The run a tick creates is a new row, and not a manual one. -/
theorem created_of_dispatched {clock : Int} {env : TickEnv} {active : Bool} {s : Schedule} {r : TickResult}
    (h : Dispatched clock env active s r) {row : RunRow} (hrow : r.created = some row) : row.Born ∧ row.manual = false := by
  cases h with
  | waits | nothingNew | baseline => cases hrow
  | invalid s' text row' _ _ _ _ _ _ _ _ hborn hmanual =>
    obtain rfl := Option.some.inj hrow
    exact ⟨hborn, hmanual⟩
  | created z s' s'' occurrence row' _ _ _ _ hborn hmanual =>
    obtain rfl := Option.some.inj hrow
    exact ⟨hborn, hmanual⟩

end TecTac
