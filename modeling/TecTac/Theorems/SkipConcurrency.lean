import TecTac.Lemmas.World

/-!
# One run at a time

With `concurrency_policy` skip, a tick queues a run only when the query for active runs finds none. The query is made
under the lock of the schedule row, and no step makes a run active that was not: so at most one run that a tick created
is queued or running, whatever the workers, the retries, the recoveries and the dispatcher do in between.
-/

namespace TecTac

open Timeline

/-- A queued or running run that is not manual. -/
def RunSys.occupies (r : RunSys) : Bool := !r.row.manual && r.row.status.active

/-- The number of queued or running runs that are not manual. -/
def World.activeRuns (w : World) : Nat := w.runs.countP RunSys.occupies

/-- An edit keeps the policy. -/
def KeepsSkip (_ : Int) (a : WorldAct) (_ : World) : Prop :=
  ∀ new keepKey, a = .edit new keepKey → new.concurrencyPolicy = .skip

/-- At most one run is active, and while a tick that found none holds the lock there is none. -/
structure OneActive (w : World) : Prop where
  policy : ∀ s, w.schedule = some s → s.concurrencyPolicy = .skip
  atMostOne : w.activeRuns ≤ 1
  hold : ∀ h, w.tick = some h → h.active = false → w.anyActive = false

namespace SkipAux

/-- No step makes a run active that was not. -/
theorem active_step {timeouts : String → Option Nat} {clock : Int} {a : RunAct} {r : RunSys}
    (h : (r.step timeouts clock a).row.status.active = true) : r.row.status.active = true := by
  unfold RunStatus.active at h ⊢
  rw [Bool.not_eq_true'] at h ⊢
  by_contra hne
  rw [Bool.not_eq_false] at hne
  rw [(RunSys.step_move timeouts clock a r).terminal hne] at h
  cases h

theorem occupies_step {timeouts : String → Option Nat} {clock : Int} {a : RunAct} {r : RunSys}
    (h : (r.step timeouts clock a).occupies = true) : r.occupies = true := by
  unfold RunSys.occupies at h ⊢
  rw [Bool.and_eq_true] at h ⊢
  rw [(RunSys.step_move timeouts clock a r).snapshot.1] at h
  exact ⟨h.1, active_step h.2⟩

theorem activeRuns_eq_zero {w : World} (h : w.anyActive = false) : w.activeRuns = 0 := by
  refine List.countP_eq_zero.mpr ?_
  intro r hr hocc
  unfold RunSys.occupies at hocc
  rw [Bool.and_eq_true] at hocc
  exact List.any_eq_false.mp h r hr hocc.2

/-- A tick keeps the policy. -/
theorem concurrencyPolicy_of_dispatched {clock : Int} {env : TickEnv} {active : Bool} {s : Schedule} {r : TickResult}
    (h : Dispatched clock env active s r) : r.schedule.concurrencyPolicy = s.concurrencyPolicy := by
  cases h with
  | waits s' _ hsame => exact hsame.concurrencyPolicy
  | invalid s' text row _ _ _ _ _ _ _ hpolicy => exact hpolicy
  | nothingNew z s' hready => exact hready.same.concurrencyPolicy
  | baseline z s' s'' occurrence hready _ _ _ hconsumed =>
    exact hconsumed.concurrencyPolicy.trans hready.same.concurrencyPolicy
  | created z s' s'' occurrence row hready _ _ hconsumed =>
    exact hconsumed.concurrencyPolicy.trans hready.same.concurrencyPolicy

/-- A tick that creates an active run under the skip policy found no active run. -/
theorem active_eq_false_of_dispatched {clock : Int} {env : TickEnv} {active : Bool} {s : Schedule} {r : TickResult}
    (h : Dispatched clock env active s r) (hskip : s.concurrencyPolicy = .skip) {row : RunRow} (hrow : r.created = some row)
    (hactive : row.status.active = true) : active = false := by
  cases h with
  | waits | nothingNew | baseline => cases hrow
  | invalid s' text row' _ _ _ _ _ _ _ _ _ _ hstatus =>
    obtain rfl := Option.some.inj hrow
    rw [hstatus] at hactive
    cases hactive
  | created z s' s'' occurrence row' _ _ _ _ hborn _ _ _ hqueued =>
    obtain rfl := Option.some.inj hrow
    rcases hborn.status with hq | hs
    · by_contra hne
      exact hqueued hq (by simpa using hne) hskip
    · rw [hs] at hactive
      cases hactive

/-- The write of a tick adds an active run only when there is none. -/
theorem activeRuns_write {clock : Int} {hold : TickHold} {s : Schedule} {w : World} (h : OneActive w)
    (htick : w.tick = some hold)
    (hs : w.schedule = some s) : (w.write clock hold s).activeRuns ≤ 1 := by
  have hdisp := dispatched clock hold.env hold.active s
  unfold World.activeRuns World.write
  simp only
  rw [List.countP_append]
  cases hrow : (dispatchSchedule clock hold.env hold.active s).created with
  | none =>
    simp only [Option.map_none, Option.toList_none, List.countP_nil, Nat.add_zero]
    exact h.atMostOne
  | some row =>
    simp only [Option.map_some, Option.toList_some, List.countP_cons, List.countP_nil, Nat.zero_add]
    by_cases hocc : (RunSys.created row).occupies = true
    · have hactive : row.status.active = true := by
        unfold RunSys.occupies at hocc
        exact (Bool.and_eq_true _ _ ▸ hocc).2
      have hnone := h.hold hold htick (active_eq_false_of_dispatched hdisp (h.policy s hs) hrow hactive)
      have := activeRuns_eq_zero hnone
      unfold World.activeRuns at this
      rw [this, if_pos hocc]
    · rw [if_neg hocc]
      exact h.atMostOne

/-- Every step keeps it. -/
theorem oneActive_of_move {timeouts : String → Option Nat} {clock : Int} {a : WorldAct} {w w' : World}
    (hmove : WorldMove timeouts clock a w w') (hkeeps : KeepsSkip clock a w) (h : OneActive w) : OneActive w' := by
  have hsaved : Saved timeouts clock a w w' → ∀ s, w'.schedule = some s → s.concurrencyPolicy = .skip := by
    intro hs s' hs'
    obtain ⟨s, hs, hkept⟩ := hs s' hs'
    exact hkept.concurrencyPolicy.trans (h.policy s hs)
  cases hmove with
  | read env =>
    refine ⟨h.policy, h.atMostOne, ?_⟩
    intro hold htick hfalse
    obtain rfl := Option.some.inj htick
    exact hfalse
  | wrote hold s _ htick hs =>
    refine ⟨?_, activeRuns_write h htick hs, fun _ htick' => by cases htick'⟩
    intro s' hs'
    obtain rfl := Option.some.inj hs'
    exact (concurrencyPolicy_of_dispatched (dispatched clock hold.env hold.active s)).trans (h.policy s hs)
  | saved _ hs hruns htick _ _ =>
    refine ⟨hsaved hs, ?_, ?_⟩
    · unfold World.activeRuns
      rw [hruns]
      exact h.atMostOne
    · intro hold hh
      unfold World.anyActive
      rw [hruns]
      exact h.hold hold (htick ▸ hh)
  | edited _ new s keepKey ha hs hs' hruns htick _ _ =>
    refine ⟨?_, ?_, ?_⟩
    · intro s' h'
      obtain rfl := Option.some.inj (hs'.symm.trans h')
      exact hkeeps new keepKey ha
    · unfold World.activeRuns
      rw [hruns]
      exact h.atMostOne
    · intro hold hh
      unfold World.anyActive
      rw [hruns]
      exact h.hold hold (htick ▸ hh)
  | started _ row hs htick _ hmanual hruns htick' _ _ =>
    refine ⟨hsaved hs, ?_, fun hold hh => nomatch htick.symm.trans (htick'.symm.trans hh)⟩
    unfold World.activeRuns
    rw [hruns, List.countP_append, List.countP_cons, List.countP_nil]
    have hnot : (RunSys.created row).occupies = false := by
      show (!row.manual && _) = false
      rw [hmanual]
      rfl
    rw [hnot]
    exact h.atMostOne
  | ran _ i r b hs hi hruns htick _ _ =>
    refine ⟨hsaved hs, ?_, ?_⟩
    · unfold World.activeRuns
      rw [hruns]
      exact le_trans (Entries.countP_set_le hi occupies_step) h.atMostOne
    · intro hold hh hfalse
      have hnone := List.any_eq_false.mp (h.hold hold (htick ▸ hh) hfalse)
      refine List.any_eq_false.mpr ?_
      rw [hruns]
      exact Entries.forall_mem_set hnone fun hactive => hnone r (List.mem_of_getElem? hi) (active_step hactive)
  | deleted _ htick hs hruns htick' _ _ =>
    refine ⟨fun s hs' => (by cases hs.symm.trans hs'), ?_, fun hold hh => nomatch htick.symm.trans (htick'.symm.trans hh)⟩
    unfold World.activeRuns
    rw [hruns, List.countP_map]
    exact le_trans (List.countP_mono_left fun r _ hocc => occupies_step hocc) h.atMostOne

end SkipAux

/-- In every interleaving, from the creation of a schedule with the skip policy on, as long as no edit changes the
policy: at most one run that is not manual is queued or running. -/
theorem skip_atMostOne_active (timeouts : String → Option Nat) (clock : Int) (s : Schedule)
    (hskip : s.concurrencyPolicy = .skip)
    (es : List (Event WorldAct)) (h : Along (World.step timeouts) KeepsSkip ⟨clock, World.created clock s⟩ es) :
    (exec (World.step timeouts) ⟨clock, World.created clock s⟩ es).state.activeRuns ≤ 1 := by
  have hstart : OneActive (World.created clock s) := by
    refine ⟨?_, Nat.zero_le 1, fun _ htick => by cases htick⟩
    intro s' hs'
    obtain rfl := Option.some.inj hs'
    exact hskip
  exact (exec_invariant (P := fun _ w => OneActive w)
    (fun c n a w hc hw => SkipAux.oneActive_of_move (w.step_move timeouts (c + n) a) hc hw) hstart h).atMostOne

/-! ## A schedule every minute -/

/-- An interval schedule that runs every minute, created at the epoch. -/
def everyMinute : Schedule where
  scheduleType := .interval
  intervalSeconds := some 60
  intervalAnchorAt := some 0
  id := "s1"
  name := "Poll"
  moduleId := "m1"
  actionId := "m1.poll"
  updatedAt := 0

/-- A tick at a moment, in a world where UTC is the only zone. -/
def tickAt (now : Int) : TickEnv where
  now := now
  runId := "r"
  zoneinfo := fun name => if name = "UTC" then some (Zone.fixed 0 Zone.utc_bounded) else none

/-- Two ticks a minute apart, with no worker in between. -/
def twoTicks : List (Event WorldAct) :=
  [⟨60 * 1000000, .tickRead (tickAt (60 * 1000000))⟩, ⟨0, .tickWrite⟩,
    ⟨60 * 1000000, .tickRead (tickAt (120 * 1000000))⟩, ⟨0, .tickWrite⟩]

/-- Both create a run, and one of the two is active. -/
theorem twoTicks_one_active :
    (exec (World.step fun _ => none) ⟨0, World.created 0 everyMinute⟩ twoTicks).state.runs.length = 2 ∧
      (exec (World.step fun _ => none) ⟨0, World.created 0 everyMinute⟩ twoTicks).state.activeRuns ≤ 1 := by
  refine ⟨by decide, skip_atMostOne_active (fun _ => none) 0 everyMinute rfl twoTicks ?_⟩
  simp only [twoTicks, along_cons, along_nil, and_true]
  refine ⟨?_, ?_, ?_, ?_⟩ <;> exact fun _ _ ha => by cases ha

end TecTac
