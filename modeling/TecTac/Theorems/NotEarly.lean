import TecTac.Lemmas.Dispatch
import TecTac.Lemmas.Occurrence

/-!
# No occurrence is consumed before it is due

A tick should consume only what has come due (`ConsumesOnlyDue`). `latestOccurrence` answers with a moment to come in
two cases: for a one-time schedule it is `run_at`, whenever that is, and for a daily schedule it is 24 hours before the
`run_time` of the current local date, which on a date of 25 hours may lie ahead. The tick takes either for a missed
occurrence and consumes it, unless it was consumed before. `TickNotAhead` says that neither case arises, and the tick
consumes only what is due exactly then.
-/

namespace TecTac

/-- A moment is due for a schedule: it is not after `now`, to the minute, or exactly for an interval schedule. -/
def IsDue (t : Timing) (occurrence now : Int) : Prop :=
  if t.scheduleType = .interval then occurrence ≤ now else floorMinute occurrence ≤ floorMinute now

/-- The result of a tick consumes only what is due. The row of a schedule whose targets have no valid shape is for the
tick itself and for no occurrence. -/
structure ConsumesOnlyDue (env : TickEnv) (s : Schedule) (r : TickResult) : Prop where
  rows : ∀ row, r.created = some row → row.errorType ≠ "InvalidTargetShape" → IsDue s.toTiming row.scheduledFor env.now
  keys : ∀ key, r.schedule.lastDueKey = some key → s.lastDueKey ≠ some key → IsDue s.toTiming key env.now
  once : s.enabled = true → s.scheduleType = .once → ∀ runAt, s.runAt = some runAt → floorMinute env.now < floorMinute runAt →
    r.schedule.enabled = true ∧ r.created = none

/-- What the schedule would be asked for is not ahead, or was consumed before: `run_at` of a one-time schedule, and 24
hours before the current date's `run_time` of a daily one. -/
def NothingAhead (z : Zone) (s : Schedule) (now : Int) : Prop :=
  match s.scheduleType with
  | .once => ∀ runAt, s.runAt = some runAt → floorMinute runAt ≤ floorMinute now ∨ s.lastDueKey = some (floorMinute runAt)
  | .daily => ∀ rt, s.runTime = some rt →
    floorMinute (localOccurrence z rt (localDay z now) - dayMicros) ≤ floorMinute now ∨
      s.lastDueKey = some (floorMinute (localOccurrence z rt (localDay z now) - dayMicros))
  | .weekly | .monthly | .interval => True

/-- When a tick finds the schedule enabled and not paused, nothing it could consume is ahead. Targets without a valid
shape switch the schedule off, so they must not meet a one-time schedule that is still to run. -/
def TickNotAhead (env : TickEnv) (s : Schedule) : Prop :=
  s.enabled = true → (applyModulePause env.visibility s).1 = false →
    match env.canonicalTargets s.targets with
    | .error _ => s.scheduleType = .once → ∀ runAt, s.runAt = some runAt → floorMinute runAt ≤ floorMinute env.now
    | .ok _ => ∀ z, env.zoneinfo s.timezone = some z → NothingAhead z s env.now

/-- The key of an occurrence is due exactly when the occurrence is. -/
theorem isDue_dueKey (t : Timing) (occurrence now : Int) : IsDue t (dueKey t occurrence) now ↔ IsDue t occurrence now := by
  unfold IsDue dueKey
  split
  · exact Iff.rfl
  · rw [floorMinute_idem]

theorem isDue_of_le {t : Timing} {occurrence now : Int} (h : occurrence ≤ now) : IsDue t occurrence now := by
  unfold IsDue
  split
  · exact h
  · exact floorMinute_mono h

/-- `NothingAhead` is what it takes for the latest occurrence to be due, or to have been consumed before. -/
theorem nothingAhead_iff (z : Zone) (s : Schedule) (now : Int) :
    NothingAhead z s now ↔ ∀ occurrence, latestOccurrence z s.toTiming now = some occurrence →
      IsDue s.toTiming occurrence now ∨ s.lastDueKey = some (dueKey s.toTiming occurrence) := by
  cases ht : s.scheduleType with
  | once => simp only [NothingAhead, latestOccurrence, IsDue, dueKey, ht, reduceCtorEq, if_false]
  | daily =>
    simp only [NothingAhead, latestOccurrence, IsDue, dueKey, ht, reduceCtorEq, if_false, Option.map_eq_some_iff]
    have hday : (0 : Int) ≤ dayMicros := by decide
    constructor
    · rintro h _ ⟨rt, hrt, rfl⟩
      split
      · exact h rt hrt
      · exact Or.inl (floorMinute_mono (by omega))
    · intro h rt hrt
      by_cases hlt : now < localOccurrence z rt (localDay z now)
      · have := h _ ⟨rt, hrt, rfl⟩
        rwa [if_pos hlt] at this
      · exact Or.inl (floorMinute_mono (by omega))
  | weekly | monthly | interval =>
    simp only [NothingAhead, ht, true_iff]
    intro occurrence hocc
    exact Or.inl (isDue_of_le (latestOccurrence_le (by rw [ht]; decide) (by rw [ht]; decide) hocc))

/-- A one-time schedule that is still to run has no due occurrence. -/
theorem not_isDue_once {z : Zone} {t : Timing} {now occurrence runAt : Int} (ht : t.scheduleType = .once)
    (hocc : latestOccurrence z t now = some occurrence) (hat : t.runAt = some runAt)
    (hlt : floorMinute now < floorMinute runAt) :
    ¬IsDue t occurrence now := by
  simp only [latestOccurrence, ht, hat, Option.some.injEq] at hocc
  subst hocc
  simp only [IsDue, ht, reduceCtorEq, if_false]
  omega

/-- A tick that reaches an occurrence is not ahead exactly when `NothingAhead` holds. -/
theorem Ready.tickNotAhead_iff {clock : Int} {env : TickEnv} {s s' : Schedule} {z : Zone} (h : Ready clock env s z s') :
    TickNotAhead env s ↔ NothingAhead z s env.now := by
  obtain ⟨canonical, hcanon, -⟩ := h.canonical
  simp only [TickNotAhead, h.enabled, h.unpaused, hcanon, h.zone, Option.some.injEq, true_implies]
  exact ⟨fun h => h z rfl, fun h z' hz => hz ▸ h⟩

/-- A tick that consumes an occurrence, with or without a run for it, consumes only what is due exactly when that
occurrence is. -/
theorem consumesOnlyDue_iff {clock : Int} {env : TickEnv} {s s' : Schedule} {z : Zone} {r : TickResult} {occurrence : Int}
    (hready : Ready clock env s z s') (hocc : latestOccurrence z s.toTiming env.now = some occurrence)
    (hkey : s.lastDueKey ≠ some (dueKey s.toTiming occurrence))
    (hwritten : r.schedule.lastDueKey = some (dueKey s.toTiming occurrence))
    (hrow : ∀ row, r.created = some row → row.scheduledFor = occurrence) : ConsumesOnlyDue env s r ↔ TickNotAhead env s := by
  rw [hready.tickNotAhead_iff, nothingAhead_iff]
  constructor
  · intro h occurrence' hocc'
    obtain rfl := Option.some.inj (hocc.symm.trans hocc')
    exact Or.inl ((isDue_dueKey _ _ _).mp (h.keys _ hwritten hkey))
  · intro h
    have hdue := (h occurrence hocc).resolve_right hkey
    refine ⟨?_, ?_, ?_⟩
    · intro row h' _
      rw [hrow row h']
      exact hdue
    · intro key h' _
      obtain rfl := Option.some.inj (hwritten.symm.trans h')
      exact (isDue_dueKey _ _ _).mpr hdue
    · intro _ ht runAt hat hlt
      exact absurd hdue (not_isDue_once ht hocc hat hlt)

/-- A tick that leaves the key, the switch and the runs of the schedule as they are consumes nothing. -/
theorem consumesOnlyDue_of_sameDue {env : TickEnv} {s s' : Schedule} (h : SameDue s s') :
    ConsumesOnlyDue env s { schedule := s' } :=
  ⟨fun _ h' => (by cases h'), fun _ h' hne => absurd (h.lastDueKey.symm.trans h') hne,
    fun hen _ _ _ _ => ⟨h.enabled.trans hen, rfl⟩⟩

/-- A one-time schedule for noon of 2 January 1970, in UTC. -/
def onceTomorrow : Schedule where
  scheduleType := .once
  runAt := some (129600 * 1000000)
  id := "s1"
  name := "Restart"
  moduleId := "m1"
  actionId := "m1.restart"
  updatedAt := 0

/-- A tick a minute after the schedule was created, a day and a half before it is to run. -/
def firstTick : TickEnv where
  now := 60 * 1000000
  runId := "r1"
  zoneinfo := fun _ => some (Zone.fixed 0 Zone.utc_bounded)

end TecTac
