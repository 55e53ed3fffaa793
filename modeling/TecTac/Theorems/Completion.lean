import TecTac.Lemmas.World

/-!
# The completion of a pending run

A run that waits for a result gets at most one. Whatever the order of the completions, the settling ticks, the
recoveries and the deletes, each completion is of one of three kinds: it is the first one for the kind and the job the
run waits for, and is applied; it repeats the one that was applied; or it is refused (`CompletionAgreement`). Only the
first changes the row.
-/

namespace TecTac

open Timeline

/-- Two completions report the same outcome of the same job. -/
def SameCompletion (c c' : OutcomeCall) : Prop :=
  c'.allowedKind = c.allowedKind ∧ c'.externalJobId = c.externalJobId ∧ c'.outcome = c.outcome

/-- The run waits for the completion: it is running and pending, and the kind and the job are the stored ones. -/
def RunRow.Awaits (row : RunRow) (c : OutcomeCall) : Prop :=
  row.status = .running ∧ row.completionState = .pending ∧
    ∃ ref, row.completionRef = some ref ∧ ref.kind = c.allowedKind ∧ ref.externalJobId = c.externalJobId

/-- What holds of the completions of a run: `offered` for an outcome that reaches the row, `answered` for a call of
`complete_pending_run`, which may be turned down before. -/
structure CompletionAgreement (r : RunSys) : Prop where
  atMostOne : r.outcomes.length ≤ 1
  offered : ∀ clock c,
    (r.row.Awaits c ∧ r.outcomes = [] ∧
      r.row.applyOutcome clock c = (.applied, r.row.applied clock c, r.row.schedule.isSome)) ∨
    ((∃ c₀ ∈ r.outcomes, SameCompletion c₀ c) ∧ r.row.applyOutcome clock c = (.duplicate, r.row, false)) ∨
    (¬r.row.Awaits c ∧ (∀ c₀ ∈ r.outcomes, ¬SameCompletion c₀ c) ∧
      ∃ code, code ≠ .applied ∧ code ≠ .duplicate ∧ r.row.applyOutcome clock c = (code, r.row, false))
  answered : ∀ clock call,
    (∃ c, call.admit r.row = .ok c ∧ r.row.Awaits c ∧
      r.row.completePendingRun clock call = (.applied, r.row.applied clock c, r.row.schedule.isSome)) ∨
    (∃ c, call.admit r.row = .ok c ∧ (∃ c₀ ∈ r.outcomes, SameCompletion c₀ c) ∧
      r.row.completePendingRun clock call = (.duplicate, r.row, false)) ∨
    ((∀ c, call.admit r.row = .ok c → ¬r.row.Awaits c ∧ ∀ c₀ ∈ r.outcomes, ¬SameCompletion c₀ c) ∧
      ((∃ reason, r.row.completePendingRun clock call = (.refused reason, r.row, false)) ∨
        ∃ text, r.row.completePendingRun clock call = (.invalid text, r.row, false)))

/-- A parked run that a step turns into a succeeded one got a `succeeded` outcome of the stored kind and job by that
step. -/
def SucceedsByOutcome (r r' : RunSys) : Prop :=
  r.row.completionState ≠ .blank → r.row.status ≠ .succeeded → r'.row.status = .succeeded →
    ∃ c, r'.outcomes = r.outcomes ++ [c] ∧ c.outcome = .succeeded ∧ r.row.Awaits c

/-! ## The codes of `_apply_outcome` -/

namespace RunRow

/-- A completion is applied exactly when the run waits for it. -/
theorem applyCode_eq_applied_iff (c : OutcomeCall) (row : RunRow) : row.applyCode c = .applied ↔ row.Awaits c := by
  constructor
  · intro h
    obtain ⟨hstatus, hstate, hkind, hjob⟩ := applyCode_eq_applied h
    obtain ⟨ref, href, hjob⟩ := Option.map_eq_some_iff.mp hjob
    rw [href] at hkind
    exact ⟨hstatus, hstate, ref, href, by simpa using hkind, hjob⟩
  · rintro ⟨hstatus, hstate, ref, href, hkind, hjob⟩
    simp [applyCode, hstatus, hstate, href, hkind, hjob]

/-- A completion is a repeat exactly when the run is completed with the same outcome of the same kind and job. -/
theorem applyCode_eq_duplicate_iff {c : OutcomeCall} {row : RunRow} {ref : CompletionRef}
    (href : row.completionRef = some ref) :
    row.applyCode c = .duplicate ↔
      row.completionState = .completed ∧ ref.kind = c.allowedKind ∧ ref.externalJobId = c.externalJobId ∧
        ref.outcome = some c.outcome := by
  unfold applyCode
  rw [href]
  simp only [Option.map_some, Option.any_some, Option.bind_some, Option.some.injEq, decide_eq_true_eq]
  by_cases hkind : ref.kind = c.allowedKind
  · rw [if_neg (not_not.mpr hkind)]
    by_cases hstate : row.completionState = .completed
    · rw [if_pos hstate]
      split
      · rename_i h
        exact iff_of_true rfl ⟨hstate, hkind, h⟩
      · rename_i h
        exact iff_of_false (fun h' => by cases h') (fun h' => h h'.2.2)
    · rw [if_neg hstate]
      refine iff_of_false ?_ (fun h => hstate h.1)
      intro h
      split at h
      · cases h
      · split at h
        · cases h
        · split at h
          · cases h
          · split at h <;> cases h
  · rw [if_pos hkind]
    exact iff_of_false (fun h => by cases h) (fun h => hkind h.2.1)

/-- A run that was never parked has nothing to repeat. -/
theorem applyCode_ne_duplicate {c : OutcomeCall} {row : RunRow} (h : row.completionState ≠ .completed) :
    row.applyCode c ≠ .duplicate := by
  intro hdup
  unfold applyCode at hdup
  rw [if_neg h] at hdup
  split at hdup
  · cases hdup
  · split at hdup
    · cases hdup
    · split at hdup
      · cases hdup
      · split at hdup
        · cases hdup
        · split at hdup <;> cases hdup

end RunRow

/-! ## The invariant -/

/-- What ties the completion state of a run to the outcomes applied to it. -/
structure Accounted (r : RunSys) : Prop where
  workers : OneWorker r
  waiting : r.row.completionState ≠ .completed → r.outcomes = []
  ended : r.row.completionState = .completed ∨ r.row.completionState = .expired → r.row.status.terminal = true
  completed : r.row.completionState = .completed → ∃ c ref, r.outcomes = [c] ∧ r.row.completionRef = some ref ∧
    ref.kind = c.allowedKind ∧ ref.externalJobId = c.externalJobId ∧ ref.outcome = some c.outcome

namespace Accounted

theorem created {row : RunRow} (h : row.Born) : Accounted (RunSys.created row) where
  workers := oneWorker_created h
  waiting := fun _ => rfl
  ended := fun hover => by
    change row.completionState = .completed ∨ row.completionState = .expired at hover
    rw [h.completionState] at hover
    rcases hover with hc | hc <;> cases hc
  completed := fun hc => by
    change row.completionState = .completed at hc
    rw [h.completionState] at hc
    cases hc

/-- A move that keeps the completion and the outcomes, and does not take a run that is over back, keeps the invariant.
-/
theorem of_same {r r' : RunSys} (h : Accounted r) (hone : OneWorker r')
    (hstate : r'.row.completionState = r.row.completionState)
    (href : r'.row.completionRef = r.row.completionRef) (houtcomes : r'.outcomes = r.outcomes)
    (hterm : r.row.status.terminal = true → r'.row.status.terminal = true) : Accounted r' where
  workers := hone
  waiting := fun hne => houtcomes.trans (h.waiting (hstate ▸ hne))
  ended := fun hover => hterm (h.ended (hstate ▸ hover))
  completed := fun hc => by
    obtain ⟨c, ref, h1, h2, h3⟩ := h.completed (hstate ▸ hc)
    exact ⟨c, ref, houtcomes.trans h1, href.trans h2, h3⟩

/-- Every move keeps the invariant. -/
theorem of_move {clock : Int} {a : RunAct} {r r' : RunSys} (hmove : RunMove clock a r r') (h : Accounted r) :
    Accounted r' := by
  have hone := hmove.oneWorker h.workers
  have hterm := hmove.terminal
  cases hmove with
  | quiet hsame _ _ houtcomes =>
    obtain ⟨taskId, schedule, hrow⟩ := hsame
    exact h.of_same hone (by rw [hrow]) (by rw [hrow]) houtcomes hterm
  | claimed message retries v _ _ _ hrow _ _ houtcomes =>
    exact h.of_same hone (by rw [hrow]; rfl) (by rw [hrow]; rfl) houtcomes hterm
  | invoked i n _ hrow _ _ houtcomes => exact h.of_same hone (by rw [hrow]) (by rw [hrow]) houtcomes hterm
  | requeued i w e _ _ _ hrow _ _ houtcomes =>
    exact h.of_same hone (by rw [hrow]; rfl) (by rw [hrow]; rfl) houtcomes hterm
  | parked i w ref hw _ hrow _ _ houtcomes =>
    -- a worker is there, so the run was not parked before
    have hblank : r.row.completionState = .blank := by
      by_contra hne
      rw [(h.workers.parked hne).1] at hw
      cases hw
    have hstate : r'.row.completionState = .pending := by rw [hrow]; rfl
    refine ⟨hone, fun _ => houtcomes.trans (h.waiting (by rw [hblank]; decide)), ?_, ?_⟩
    · intro hover
      rw [hstate] at hover
      rcases hover with hc | hc <;> cases hc
    · intro hc
      cases hstate.symm.trans hc
  | ended hended _ _ _ houtcomes =>
    rcases hended.completionState with hstate | ⟨hpending, hexpired⟩
    · exact h.of_same hone hstate hended.completionRef houtcomes hterm
    · refine ⟨hone, fun _ => houtcomes.trans (h.waiting (by rw [hpending]; decide)), fun _ => hended.terminal, ?_⟩
      intro hc
      cases hexpired.symm.trans hc
  | applied c hcode hrow _ _ houtcomes =>
    obtain ⟨-, hpending, ref, href, hkind, hjob⟩ := (RunRow.applyCode_eq_applied_iff c r.row).mp hcode
    rw [h.waiting (by rw [hpending]; decide), List.nil_append] at houtcomes
    have hstate : r'.row.completionState = .completed := by rw [hrow]; rfl
    refine ⟨hone, fun hne => absurd hstate hne, fun _ => by rw [hrow]; exact RunRow.applied_terminal clock c r.row, ?_⟩
    intro _
    refine ⟨c, { ref with outcome := some c.outcome }, houtcomes, ?_, hkind, hjob, rfl⟩
    rw [hrow]
    simp only [RunRow.applied, href, Option.map_some]
  | dispatchFailed e _ _ hrow _ _ houtcomes =>
    exact h.of_same hone (by rw [hrow]; rfl) (by rw [hrow]; rfl) houtcomes hterm

/-- A completion repeats the applied one exactly when the row says so. -/
theorem duplicate_iff {r : RunSys} (h : Accounted r) (c : OutcomeCall) :
    r.row.applyCode c = .duplicate ↔ ∃ c₀ ∈ r.outcomes, SameCompletion c₀ c := by
  by_cases hstate : r.row.completionState = .completed
  · obtain ⟨c₀, ref, houtcomes, href, hkind, hjob, houtcome⟩ := h.completed hstate
    rw [RunRow.applyCode_eq_duplicate_iff href, houtcomes]
    simp only [List.mem_singleton, exists_eq_left, SameCompletion, hstate, true_and, hkind, hjob, houtcome, Option.some.injEq]
    exact ⟨fun ⟨h1, h2, h3⟩ => ⟨h1.symm, h2.symm, h3.symm⟩, fun ⟨h1, h2, h3⟩ => ⟨h1.symm, h2.symm, h3.symm⟩⟩
  · rw [h.waiting hstate]
    refine iff_of_false (RunRow.applyCode_ne_duplicate hstate) ?_
    rintro ⟨c₀, hmem, -⟩
    cases hmem

theorem atMostOne {r : RunSys} (h : Accounted r) : r.outcomes.length ≤ 1 := by
  by_cases hstate : r.row.completionState = .completed
  · obtain ⟨c, ref, houtcomes, -⟩ := h.completed hstate
    rw [houtcomes]
    exact Nat.le_refl 1
  · rw [h.waiting hstate]
    exact Nat.zero_le 1

/-- A run that waits for a completion got none yet. -/
theorem outcomes_eq_nil {r : RunSys} (h : Accounted r) {c : OutcomeCall} (hawaits : r.row.Awaits c) : r.outcomes = [] :=
  h.waiting (by rw [hawaits.2.1]; decide)

theorem offered {r : RunSys} (h : Accounted r) (clock : Int) (c : OutcomeCall) :
    (r.row.Awaits c ∧ r.outcomes = [] ∧
      r.row.applyOutcome clock c = (.applied, r.row.applied clock c, r.row.schedule.isSome)) ∨
    ((∃ c₀ ∈ r.outcomes, SameCompletion c₀ c) ∧ r.row.applyOutcome clock c = (.duplicate, r.row, false)) ∨
    (¬r.row.Awaits c ∧ (∀ c₀ ∈ r.outcomes, ¬SameCompletion c₀ c) ∧
      ∃ code, code ≠ .applied ∧ code ≠ .duplicate ∧ r.row.applyOutcome clock c = (code, r.row, false)) := by
  rcases RunRow.applyOutcome_cases clock c r.row with ⟨hcode, heq⟩ | ⟨hcode, heq⟩
  · have hawaits := (RunRow.applyCode_eq_applied_iff c r.row).mp hcode
    exact Or.inl ⟨hawaits, h.outcomes_eq_nil hawaits, heq⟩
  · by_cases hdup : r.row.applyCode c = .duplicate
    · rw [hdup] at heq
      exact Or.inr (Or.inl ⟨(h.duplicate_iff c).mp hdup, heq⟩)
    · refine Or.inr (Or.inr ⟨fun hawaits => hcode ((RunRow.applyCode_eq_applied_iff c r.row).mpr hawaits), ?_,
        r.row.applyCode c, hcode, hdup, heq⟩)
      intro c₀ hmem hsame
      exact hdup ((h.duplicate_iff c).mpr ⟨c₀, hmem, hsame⟩)

theorem agreement {r : RunSys} (h : Accounted r) : CompletionAgreement r := by
  refine ⟨h.atMostOne, h.offered, ?_⟩
  intro clock call
  unfold RunRow.completePendingRun
  cases haccepted : call.admit r.row with
  | error answer =>
    refine Or.inr (Or.inr ⟨fun c hc => (by cases hc), ?_⟩)
    cases answer with
    | refused reason => exact Or.inl ⟨reason, rfl⟩
    | invalid text => exact Or.inr ⟨text, rfl⟩
    | applied | duplicate =>
      unfold CompletionCall.admit at haccepted
      repeat' split at haccepted
      all_goals cases haccepted
  | ok c =>
    simp only
    rcases h.offered clock c with ⟨hawaits, -, heq⟩ | ⟨hsame, heq⟩ | ⟨hnot, hdiff, code, hne, hne', heq⟩
    · exact Or.inl ⟨c, rfl, hawaits, by rw [heq]⟩
    · exact Or.inr (Or.inl ⟨c, rfl, hsame, by rw [heq]⟩)
    · refine Or.inr (Or.inr ⟨?_, Or.inl ⟨code.reason, ?_⟩⟩)
      · intro c' hc'
        obtain rfl := Except.ok.inj hc'
        exact ⟨hnot, hdiff⟩
      · rw [heq]
        cases code <;> first | rfl | exact absurd rfl hne | exact absurd rfl hne'

/-- A parked run succeeds by no move but an applied outcome. -/
theorem succeedsByOutcome {clock : Int} {a : RunAct} {r r' : RunSys} (h : Accounted r) (hmove : RunMove clock a r r') :
    SucceedsByOutcome r r' := by
  intro hparked hnot hsucc
  have hworkers := (h.workers.parked hparked).1
  cases hmove with
  | quiet hsame _ _ _ =>
    obtain ⟨taskId, schedule, hrow⟩ := hsame
    rw [hrow] at hsucc
    exact absurd hsucc hnot
  | claimed message retries v _ _ _ hrow =>
    rw [hrow] at hsucc
    cases hsucc
  | invoked i n hw =>
    rw [hworkers] at hw
    cases hw
  | requeued i w e hw =>
    rw [hworkers] at hw
    cases hw
  | parked i w ref hw =>
    rw [hworkers] at hw
    cases hw
  | ended _ hworker => exact absurd hworkers (hworker hsucc)
  | applied c hcode hrow _ _ houtcomes =>
    refine ⟨c, houtcomes, ?_, (RunRow.applyCode_eq_applied_iff c r.row).mp hcode⟩
    rw [hrow] at hsucc
    simp only [RunRow.applied] at hsucc
    by_contra hne
    rw [if_neg hne] at hsucc
    cases hsucc
  | dispatchFailed e _ _ hrow =>
    rw [hrow] at hsucc
    cases hsucc

end Accounted

/-- A run that is over gets no outcome. -/
theorem RunMove.outcomes_of_terminal {clock : Int} {a : RunAct} {r r' : RunSys} (h : RunMove clock a r r')
    (hterm : r.row.status.terminal = true) : r'.outcomes = r.outcomes := by
  cases h with
  | quiet _ _ _ houtcomes => exact houtcomes
  | claimed _ _ _ _ _ _ _ _ _ houtcomes => exact houtcomes
  | invoked _ _ _ _ _ _ houtcomes => exact houtcomes
  | requeued _ _ _ _ _ _ _ _ _ houtcomes => exact houtcomes
  | parked _ _ _ _ _ _ _ _ houtcomes => exact houtcomes
  | ended _ _ _ _ houtcomes => exact houtcomes
  | dispatchFailed _ _ _ _ _ _ houtcomes => exact houtcomes
  | applied c hcode =>
    rw [(RunRow.applyCode_eq_applied hcode).1] at hterm
    cases hterm

/-- A forced delete leaves no run active. -/
theorem forceDelete_terminal (timeouts : String → Option Nat) (clock : Int) (r : RunSys) :
    (r.step timeouts clock .forceDelete).row.status.terminal = true := by
  show (r.row.forceDelete clock).status.terminal = true
  unfold RunRow.forceDelete
  split
  · rfl
  · rename_i hactive
    simpa [RunStatus.active] using hactive

namespace CompletionAux

variable {timeouts : String → Option Nat}

theorem accounted_exec {start : At RunSys} {es : List (Event RunAct)} (h : Accounted start.state) :
    Accounted (exec (RunSys.step timeouts) start es).state :=
  exec_invariant (P := fun _ r => Accounted r) (C := fun _ _ _ => True)
    (fun c w a r _ hr => Accounted.of_move (RunSys.step_move timeouts (c + w) a r) hr) h
    (along_of_forall (fun _ _ _ => trivial) _ _)

/-- From a run that is over on, the outcomes stay as they are. -/
theorem outcomes_exec {start : At RunSys} {es : List (Event RunAct)} (hterm : start.state.row.status.terminal = true) :
    (exec (RunSys.step timeouts) start es).state.outcomes = start.state.outcomes := by
  have hrun : Along (RunSys.step timeouts) (fun _ _ _ => True) start es := along_of_forall (fun _ _ _ => trivial) _ _
  have h := exec_invariant (P := fun _ r => r.row.status.terminal = true ∧ r.outcomes = start.state.outcomes)
    (fun c w a r _ ⟨h1, h2⟩ => ⟨(RunSys.step_move timeouts (c + w) a r).terminal h1,
      ((RunSys.step_move timeouts (c + w) a r).outcomes_of_terminal h1).trans h2⟩) ⟨hterm, rfl⟩ hrun
  exact h.2

/-- Once it was force-deleted, a run is over. -/
theorem terminal_of_forceDelete {start : At RunSys} {es : List (Event RunAct)} (h : ∃ e ∈ es, e.act = .forceDelete) :
    (exec (RunSys.step timeouts) start es).state.row.status.terminal = true := by
  obtain ⟨e, hmem, hact⟩ := h
  obtain ⟨es₁, es₂, rfl⟩ := List.append_of_mem hmem
  rw [exec_append, exec_cons]
  refine exec_invariant (P := fun _ r => r.row.status.terminal = true) (C := fun _ _ _ => True)
    (fun c w a r _ hr => (RunSys.step_move timeouts (c + w) a r).terminal hr) ?_
    (along_of_forall (fun _ _ _ => trivial) _ _)
  simp only [At.next, hact]
  exact forceDelete_terminal timeouts _ _

end CompletionAux

/-- In every interleaving, from the creation of the run on: its completions agree in every state, a parked run succeeds
only by an applied `succeeded` outcome of the stored kind and job, and once it expired or was force-deleted no outcome
is applied. -/
theorem completion_agreement (timeouts : String → Option Nat) (clock : Int) (row : RunRow) (hborn : row.Born)
    (es es' : List (Event RunAct)) :
    CompletionAgreement (exec (RunSys.step timeouts) ⟨clock, RunSys.created row⟩ es).state ∧
    Along (RunSys.step timeouts) (fun c a r => SucceedsByOutcome r (RunSys.step timeouts c a r)) ⟨clock, RunSys.created row⟩ es ∧
    ((exec (RunSys.step timeouts) ⟨clock, RunSys.created row⟩ es).state.row.completionState = .expired ∨
        (∃ e ∈ es, e.act = .forceDelete) →
      (∀ c, ¬(exec (RunSys.step timeouts) ⟨clock, RunSys.created row⟩ es).state.row.Awaits c) ∧
      (exec (RunSys.step timeouts) ⟨clock, RunSys.created row⟩ (es ++ es')).state.outcomes =
        (exec (RunSys.step timeouts) ⟨clock, RunSys.created row⟩ es).state.outcomes) := by
  have hstart : Accounted (RunSys.created row) := Accounted.created hborn
  have hinv : Accounted (exec (RunSys.step timeouts) ⟨clock, RunSys.created row⟩ es).state :=
    CompletionAux.accounted_exec hstart
  refine ⟨hinv.agreement, ?_, ?_⟩
  · refine Along.strengthen (P := fun _ r => Accounted r) (C := fun _ _ _ => True)
      (fun c w a r _ hr => Accounted.of_move (RunSys.step_move timeouts (c + w) a r) hr)
      (fun c w a r _ hr => hr.succeedsByOutcome (RunSys.step_move timeouts (c + w) a r)) hstart
      (along_of_forall (fun _ _ _ => trivial) _ _)
  · intro hover
    have hterm : (exec (RunSys.step timeouts) ⟨clock, RunSys.created row⟩ es).state.row.status.terminal = true := by
      rcases hover with hexpired | hdelete
      · exact hinv.ended (Or.inr hexpired)
      · exact CompletionAux.terminal_of_forceDelete hdelete
    refine ⟨?_, ?_⟩
    · intro c hawaits
      rw [hawaits.1] at hterm
      cases hterm
    · rw [exec_append]
      exact CompletionAux.outcomes_exec hterm

/-- The same for the runs of a schedule: in every interleaving of everything that acts on it, the completions of each of
its runs agree. -/
theorem schedule_runs_agree (timeouts : String → Option Nat) (clock : Int) (s : Schedule) (es : List (Event WorldAct)) :
    ∀ r ∈ (exec (World.step timeouts) ⟨clock, World.created clock s⟩ es).state.runs, CompletionAgreement r := by
  intro r hr
  obtain ⟨row, c₀, es', hborn, hstate, -⟩ := World.exec_runs timeouts clock s es r hr
  rw [← hstate]
  exact (CompletionAux.accounted_exec (Accounted.created hborn)).agreement

/-- A run of `m1.restart` that was parked for the job `job-1` and completed. -/
def completedRun : List (Event RunAct) :=
  [⟨1, .accept⟩, ⟨1, .deliver 0 {}⟩, ⟨1, .invoke 0⟩, ⟨1, .finishPending 0 { kind := .module, externalJobId := "job-1" } none⟩,
    ⟨1, .complete ⟨some "m1", some "m1", "job-1", .succeeded, .ok (.empty, "")⟩⟩]

/-- It got its outcome, and the agreement holds of it. -/
theorem completedRun_agreement :
    (exec (RunSys.step fun _ => none) (sampleRun 0) completedRun).state.outcomes.length = 1 ∧
      CompletionAgreement (exec (RunSys.step fun _ => none) (sampleRun 0) completedRun).state :=
  ⟨by decide, (completion_agreement (fun _ => none) 0 (sampleRow 0) (runKwargs_born _ _ _ _) completedRun []).1⟩

end TecTac
