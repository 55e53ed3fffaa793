import TecTac.World
import TecTac.Lemmas.Run

/-!
# What a step can do to a schedule and its runs

`step_move` takes `World.step` apart once: a step reads for a tick, writes a tick, saves the schedule row, edits it,
starts a manual run, moves one run, or deletes everything. A save that is no edit keeps the columns that decide what is
due (`Kept`), and moves `updated_at` of a schedule that stays enabled only when `SavesRevision` says so. `exec_runs`
ties the two levels: each run of a schedule is a run of the run system.
-/

namespace TecTac

open Timeline

/-- The steps, other than an edit or the write of a consumed occurrence, that save `updated_at` of the schedule `s` and
leave it enabled: a tick or a Run now that canonicalises the targets, a `reconcile_schedule` call without a stored
creator, and the end of a run. -/
def SavesRevision (timeouts : String → Option Nat) (clock : Int) (a : WorldAct) (w : World) (s : Schedule) : Prop :=
  match a with
  | .tickWrite => ∃ h canonical, w.tick = some h ∧ (applyModulePause h.env.visibility s).1 = false ∧
      h.env.canonicalTargets s.targets = .ok canonical ∧ canonical ≠ s.targets
  | .runNow env => w.tick = none ∧ env.visibility.kind s = .ordinary ∧ s.pausedReason ∉ coreReasons ∧
    isOneOffSchedule s = false ∧
      env.permitted = true ∧ env.inScope = true ∧
      ∃ canonical, env.canonicalTargets s.targets = .ok canonical ∧ canonical ≠ s.targets
  | .reconcileUnchanged => w.tick = none ∧ s.createdBy = ""
  | .run i b => w.tick = none ∧ ∃ r, w.runs[i]? = some r ∧ (r.act timeouts clock b).2 = true
  | .tickRead _ | .syncModuleState _ | .switchOff | .edit _ _ | .forceDelete => False

/-- A save that is neither an edit nor the write of a tick: the schedule is not switched on by it, and `updated_at`
moves to the moment of the save, if at all. -/
structure Kept (timeouts : String → Option Nat) (clock : Int) (a : WorldAct) (w : World) (s s' : Schedule) : Prop where
  timing : s'.toTiming = s.toTiming
  lastDueKey : s'.lastDueKey = s.lastDueKey
  concurrencyPolicy : s'.concurrencyPolicy = s.concurrencyPolicy
  enabled : s'.enabled = true → s.enabled = true
  updatedAt : s'.enabled = true → s'.updatedAt = s.updatedAt ∨ (s'.updatedAt = clock ∧ SavesRevision timeouts clock a w s)

/-- The schedule of `w'` is the one of `w` after such a save. -/
def Saved (timeouts : String → Option Nat) (clock : Int) (a : WorldAct) (w w' : World) : Prop :=
  ∀ s', w'.schedule = some s' → ∃ s, w.schedule = some s ∧ Kept timeouts clock a w s s'

/-- What an action at `clock` can make of a schedule and its runs. -/
inductive WorldMove (timeouts : String → Option Nat) (clock : Int) (a : WorldAct) (w : World) : World → Prop where
  /-- A tick takes the lock and asks for active runs. -/
  | read (env : TickEnv) : w.tick = none → WorldMove timeouts clock a w { w with tick := some ⟨env, w.anyActive⟩ }
  /-- A tick writes. -/
  | wrote (h : TickHold) (s : Schedule) :
      a = .tickWrite → w.tick = some h → w.schedule = some s → WorldMove timeouts clock a w (w.write clock h s)
  /-- The schedule row is saved, or nothing happens. -/
  | saved (w' : World) :
      Saved timeouts clock a w w' → w'.runs = w.runs → w'.tick = w.tick → w'.revisedAt = w.revisedAt → w'.ticks = w.ticks →
      WorldMove timeouts clock a w w'
  /-- The schedule is edited. -/
  | edited (w' : World) (new s : Schedule) (keepKey : Bool) :
      a = .edit new keepKey → w.schedule = some s → w'.schedule = some (edited clock new keepKey s) → w'.runs = w.runs →
      w'.tick = w.tick → w'.revisedAt = clock → w'.ticks = w.ticks → WorldMove timeouts clock a w w'
  /-- A manual run is started. -/
  | started (w' : World) (row : RunRow) :
      Saved timeouts clock a w w' → w.tick = none → row.Born → row.manual = true → w'.runs = w.runs ++ [RunSys.created row] →
      w'.tick = w.tick → w'.revisedAt = w.revisedAt → w'.ticks = w.ticks → WorldMove timeouts clock a w w'
  /-- A run moves. -/
  | ran (w' : World) (i : Nat) (r : RunSys) (b : RunAct) :
      Saved timeouts clock a w w' → w.runs[i]? = some r → w'.runs = w.runs.set i (r.step timeouts clock b) →
        w'.tick = w.tick →
      w'.revisedAt = w.revisedAt → w'.ticks = w.ticks → WorldMove timeouts clock a w w'
  /-- The schedule and its active runs are deleted. -/
  | deleted (w' : World) :
      w.tick = none → w'.schedule = none → w'.runs = w.runs.map (RunSys.step timeouts clock .forceDelete) → w'.tick = w.tick →
      w'.revisedAt = w.revisedAt → w'.ticks = w.ticks → WorldMove timeouts clock a w w'

/-! ## The saves -/

namespace WorldAux

variable {timeouts : String → Option Nat} {clock : Int} {a : WorldAct} {w : World}

theorem kept_refl (s : Schedule) : Kept timeouts clock a w s s := ⟨rfl, rfl, rfl, id, fun _ => Or.inl rfl⟩

theorem saved_of_eq {w' : World} (h : w'.schedule = w.schedule) : Saved timeouts clock a w w' :=
  fun s' hs' => ⟨s', h ▸ hs', kept_refl s'⟩

/-- A step that does nothing. -/
theorem move_refl (w : World) : WorldMove timeouts clock a w w := .saved w (saved_of_eq rfl) rfl rfl rfl rfl

/-- A save waits for the tick, or keeps the row as `Kept` says. -/
theorem save_move {f : Schedule → Schedule}
    (hf : ∀ s, w.tick = none → w.schedule = some s → Kept timeouts clock a w s (f s)) :
    WorldMove timeouts clock a w (w.save f) := by
  unfold World.save
  by_cases htick : w.tick = none
  · rw [if_neg (by rw [htick]; decide)]
    refine .saved _ ?_ rfl rfl rfl rfl
    intro s' hs'
    obtain ⟨s, hs, rfl⟩ := Option.map_eq_some_iff.mp hs'
    exact ⟨s, hs, hf s htick hs⟩
  · rw [if_pos (Option.isSome_iff_ne_none.mpr htick)]
    exact move_refl w

theorem kept_of_pausedReason {s : Schedule} {reason : String} : Kept timeouts clock a w s { s with pausedReason := reason } :=
  ⟨rfl, rfl, rfl, id, fun _ => Or.inl rfl⟩

theorem kept_syncModuleScheduleState (v : ScheduleVisibility) (s : Schedule) :
    Kept timeouts clock a w s (syncModuleScheduleState v s) := by
  unfold syncModuleScheduleState
  simp only
  -- every branch returns the row, or the row with another reason
  repeat' split
  all_goals first
    | exact kept_refl s
    | exact kept_of_pausedReason

theorem kept_switchOff (s : Schedule) : Kept timeouts clock a w s (switchOff clock s) := by
  unfold switchOff
  split
  · exact ⟨rfl, rfl, rfl, fun h => (by cases h), fun h => by cases h⟩
  · exact kept_refl s

theorem kept_reconcileUnchanged (htick : w.tick = none) (s : Schedule) :
    Kept timeouts clock .reconcileUnchanged w s (reconcileUnchanged clock s) := by
  unfold reconcileUnchanged
  split
  · exact kept_refl s
  · rename_i hblank
    exact ⟨rfl, rfl, rfl, id, fun _ => Or.inr ⟨rfl, htick, not_not.mp hblank⟩⟩

/-- Run now keeps the row, and any run it starts is a manual one. -/
theorem kept_runNow (timeouts : String → Option Nat) (clock : Int) (htick : w.tick = none) (env : RunNowEnv) (s : Schedule) :
    Kept timeouts clock (.runNow env) w s (runNow clock env s).1 ∧
      ∀ row, (runNow clock env s).2 = some row → row.Born ∧ row.manual = true := by
  unfold runNow
  split
  · exact ⟨kept_refl s, fun row h => by cases h⟩
  · rename_i haccepted
    simp only [not_or, not_not, Bool.not_eq_true, Bool.not_eq_false'] at haccepted
    split
    · exact ⟨⟨rfl, rfl, rfl, fun h => (by cases h), fun h => by cases h⟩, fun row h => by cases h⟩
    · rename_i canonical hcanon
      split
      · exact ⟨kept_refl s, fun row h => by cases h⟩
      · rename_i hscope
        simp only
        have hsame := sameDue_saveCanonicalTargets clock canonical s
        refine ⟨⟨hsame.timing, hsame.lastDueKey, hsame.concurrencyPolicy, fun h => hsame.enabled ▸ h, ?_⟩, ?_⟩
        · intro _
          rw [updatedAt_saveCanonicalTargets]
          split
          · rename_i hne
            exact Or.inr ⟨rfl, htick, haccepted.1, haccepted.2.1, by simpa using haccepted.2.2.1, by simpa using haccepted.2.2.2,
              by simpa using hscope, canonical, hcanon, hne⟩
          · exact Or.inl rfl
        · intro row h
          obtain rfl := Option.some.inj h
          exact ⟨⟨Or.inl rfl, rfl, rfl, rfl, rfl, rfl⟩, rfl⟩

/-- A step of one run is that step of the run system. It saves the schedule when the run ends. -/
theorem runStep_move (i : Nat) (b : RunAct) : WorldMove timeouts clock (.run i b) w (w.runStep timeouts clock i b) := by
  unfold World.runStep
  cases hr : w.runs[i]? with
  | none => exact move_refl w
  | some r =>
    simp only
    by_cases hsave : (r.act timeouts clock b).2 = true
    · rw [if_pos hsave]
      by_cases htick : w.tick = none
      · rw [if_neg (by rw [htick]; decide)]
        refine .ran _ i r b ?_ hr rfl rfl rfl rfl
        intro s' hs'
        obtain ⟨s, hs, rfl⟩ := Option.map_eq_some_iff.mp hs'
        exact ⟨s, hs, rfl, rfl, rfl, id, fun _ => Or.inr ⟨rfl, htick, r, hr, hsave⟩⟩
      · rw [if_pos (Option.isSome_iff_ne_none.mpr htick)]
        exact move_refl w
    · rw [if_neg hsave]
      exact .ran _ i r b (saved_of_eq rfl) hr rfl rfl rfl rfl

end WorldAux

/-- Every step is one of the moves. -/
theorem World.step_move (timeouts : String → Option Nat) (clock : Int) (a : WorldAct) (w : World) :
    WorldMove timeouts clock a w (w.step timeouts clock a) := by
  cases a with
  | tickRead env =>
    simp only [World.step]
    split
    · exact WorldAux.move_refl w
    · rename_i h
      rw [not_or, Option.not_isSome_iff_eq_none] at h
      exact .read env h.1
  | tickWrite =>
    simp only [World.step]
    split
    · rename_i h s htick hs
      exact .wrote h s rfl htick hs
    · exact WorldAux.move_refl w
  | syncModuleState v => exact WorldAux.save_move fun s _ _ => WorldAux.kept_syncModuleScheduleState v s
  | runNow env =>
    simp only [World.step]
    split
    · rename_i s htick hs
      obtain ⟨hkept, hrow⟩ := WorldAux.kept_runNow timeouts clock htick env s
      have hsaved : ∀ runs, Saved timeouts clock (.runNow env) w
          { w with schedule := some (TecTac.runNow clock env s).1, runs := runs } := by
        intro runs s' hs'
        obtain rfl := Option.some.inj hs'
        exact ⟨s, hs, hkept⟩
      cases hnew : (TecTac.runNow clock env s).2 with
      | none => exact .saved _ (hsaved _) (List.append_nil _) rfl rfl rfl
      | some row => exact .started _ row (hsaved _) htick (hrow row hnew).1 (hrow row hnew).2 rfl rfl rfl rfl
    · exact WorldAux.move_refl w
  | reconcileUnchanged => exact WorldAux.save_move fun s htick _ => WorldAux.kept_reconcileUnchanged htick s
  | switchOff => exact WorldAux.save_move fun s _ _ => WorldAux.kept_switchOff s
  | edit new keepKey =>
    simp only [World.step]
    split
    · exact WorldAux.move_refl w
    · rename_i h
      rw [not_or, Option.not_isSome_iff_eq_none, Option.isNone_iff_eq_none, ← ne_eq, Option.ne_none_iff_exists'] at h
      obtain ⟨htick, s, hs⟩ := h
      have hsave : w.save (TecTac.edited clock new keepKey) =
          { w with schedule := some (TecTac.edited clock new keepKey s) } := by
        unfold World.save
        rw [if_neg (by rw [htick]; decide), hs]
        rfl
      rw [hsave]
      exact .edited _ new s keepKey rfl hs rfl rfl rfl rfl rfl
  | run i b =>
    cases b with
    | forceDelete => exact WorldAux.move_refl w
    | _ => exact WorldAux.runStep_move i _
  | forceDelete =>
    simp only [World.step]
    split
    · exact WorldAux.move_refl w
    · rename_i h
      rw [not_or, Option.not_isSome_iff_eq_none] at h
      exact .deleted _ h.1 rfl rfl rfl rfl rfl

/-! ## The runs of a schedule -/

/-- A run that the run system leads to, from a new row, by the moment `c`. -/
def RunOf (timeouts : String → Option Nat) (c : Int) (r : RunSys) : Prop :=
  ∃ row c₀ es, RunRow.Born row ∧ (exec (RunSys.step timeouts) ⟨c₀, RunSys.created row⟩ es).state = r ∧
    (exec (RunSys.step timeouts) ⟨c₀, RunSys.created row⟩ es).clock ≤ c

namespace RunOf

variable {timeouts : String → Option Nat}

theorem created {c : Int} {row : RunRow} (h : row.Born) : RunOf timeouts c (RunSys.created row) :=
  ⟨row, c, [], h, rfl, le_refl c⟩

theorem mono {c c' : Int} {r : RunSys} (h : RunOf timeouts c r) (hle : c ≤ c') : RunOf timeouts c' r := by
  obtain ⟨row, c₀, es, hborn, hstate, hclock⟩ := h
  exact ⟨row, c₀, es, hborn, hstate, le_trans hclock hle⟩

/-- One more step of the run is one more event. -/
theorem step {c : Int} {r : RunSys} (h : RunOf timeouts c r) (b : RunAct) : RunOf timeouts c (r.step timeouts c b) := by
  obtain ⟨row, c₀, es, hborn, hstate, hclock⟩ := h
  -- the event waits from the last step of this run to now
  let e : Event RunAct := ⟨(c - (exec (RunSys.step timeouts) ⟨c₀, RunSys.created row⟩ es).clock).toNat, b⟩
  have hnow : (exec (RunSys.step timeouts) ⟨c₀, RunSys.created row⟩ es).clock + (e.wait : Int) = c := by
    simp only [e]
    omega
  refine ⟨row, c₀, es ++ [e], hborn, ?_, ?_⟩
  · rw [exec_append, exec_cons, exec_nil, At.next, hnow, hstate]
  · rw [exec_append, exec_cons, exec_nil, At.next, hnow]

end RunOf

/-- Every step keeps every run a run of the run system. -/
theorem runOf_step {timeouts : String → Option Nat} {c : Int} {n : Nat} {a : WorldAct} {w : World}
    (h : ∀ r ∈ w.runs, RunOf timeouts c r) : ∀ r ∈ (w.step timeouts (c + n) a).runs, RunOf timeouts (c + n) r := by
  have hlater : ∀ r ∈ w.runs, RunOf timeouts (c + n) r := fun r hr => (h r hr).mono (by omega)
  have hmove := w.step_move timeouts (c + n) a
  generalize w.step timeouts (c + n) a = w' at hmove ⊢
  cases hmove with
  | read env => exact hlater
  | wrote hold s =>
    intro r hr
    rw [World.write, List.mem_append, Option.mem_toList, Option.map_eq_some_iff] at hr
    rcases hr with hr | ⟨row, hrow, rfl⟩
    · exact hlater r hr
    · exact RunOf.created (created_of_dispatched (dispatched (c + n) hold.env hold.active s) hrow).1
  | saved _ _ hruns => rwa [hruns]
  | edited _ new s keepKey _ _ _ hruns => rwa [hruns]
  | started _ row _ _ hborn _ hruns =>
    rw [hruns]
    exact Entries.forall_mem_concat hlater (RunOf.created hborn)
  | ran _ i r₀ b _ hi hruns =>
    rw [hruns]
    exact Entries.forall_mem_set hlater ((hlater r₀ (List.mem_of_getElem? hi)).step b)
  | deleted _ _ _ hruns =>
    intro r hr
    rw [hruns, List.mem_map] at hr
    obtain ⟨r₀, hr₀, rfl⟩ := hr
    exact (hlater r₀ hr₀).step .forceDelete

/-- Each run of a schedule, after any steps, is what the run system makes of a new row: what holds of every run of that
system holds of every run of every schedule. -/
theorem World.exec_runs (timeouts : String → Option Nat) (clock : Int) (s : Schedule) (es : List (Event WorldAct)) :
    ∀ r ∈ (exec (World.step timeouts) ⟨clock, World.created clock s⟩ es).state.runs,
      RunOf timeouts (exec (World.step timeouts) ⟨clock, World.created clock s⟩ es).clock r :=
  exec_invariant (P := fun c (w : World) => ∀ r ∈ w.runs, RunOf timeouts c r) (C := fun _ _ _ => True)
    (fun _ _ _ _ _ h => runOf_step h) (fun r (hr : r ∈ []) => by cases hr) (along_of_forall (fun _ _ _ => trivial) _ _)

/-! ## A sample schedule -/

/-- A daily schedule at noon, in a time zone. -/
def dailyNoon (timezone : String) : Schedule where
  scheduleType := .daily
  timezone := timezone
  runTime := some ⟨12, 0, by decide, RunTime.on_the_hour⟩
  id := "s1"
  name := "Report"
  moduleId := "m1"
  actionId := "m1.report"
  updatedAt := 0

/-- A tick at `now` that waits `wait` seconds after the step before it. -/
def tickAfter (zoneinfo : String → Option Zone) (wait : Nat) (now : Int) : List (Event WorldAct) :=
  [⟨wait * 1000000, .tickRead { now := now * 1000000, runId := "r", zoneinfo := zoneinfo }⟩, ⟨0, .tickWrite⟩]

/-- A time zone database with one offset for ever. -/
def utcOnly : String → Option Zone := fun _ => some (Zone.fixed 0 Zone.utc_bounded)

end TecTac
