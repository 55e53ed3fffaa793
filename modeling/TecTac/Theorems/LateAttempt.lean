import TecTac.Lemmas.EventJob

/-!
# Which attempt a finish speaks for

`_finish_success` and `_finish_failure` look at the status of the row and not at the attempt. When the tick has declared
an attempt lost and the row was claimed again, the row is running as before, and the worker of the old attempt ends the
new one. In every run in which the tick declares lost only the attempt it listed, and only once no worker of the row is
left (`LostIsGone`), every finish that changes a row is by the row's current attempt.
-/

namespace TecTac

open Timeline

/-- A finish that changes the row is by its current attempt: the one the worker claimed, or the one the tick listed. -/
structure FinishesOwn (clock : Int) (b : JobAct) (j : JobSys) : Prop where
  success : ∀ worker result wk, b = .finishSuccess worker result → j.workers[worker]? = some wk →
    (j.act clock b).row ≠ j.row →
    wk.attempt = j.row.attempt
  failure : ∀ worker e spec jitter wk, b = .finishFailure worker e spec jitter → j.workers[worker]? = some wk →
    (j.act clock b).row ≠ j.row → wk.attempt = j.row.attempt
  lost : ∀ listed jitter s, b = .recoverRunning listed jitter → j.suspects[listed]? = some s → (j.act clock b).row ≠ j.row →
    s.attempt = j.row.attempt

/-- The same for a step of the table. -/
def FinishesOwnAttempt (clock : Int) (a : EventAct) (w : EventJobs) : Prop :=
  ∀ i b j, a = .job i b → w.jobs[i]? = some j → FinishesOwn clock b j

/-- When the tick declares the attempt of a running row lost, it is the attempt the tick listed, and no worker of the
row is left. -/
def LostIsGone (_ : Int) (a : EventAct) (w : EventJobs) : Prop :=
  ∀ i listed jitter j s, a = .job i (.recoverRunning listed jitter) → w.jobs[i]? = some j → j.suspects[listed]? = some s →
    isStaleRunning s.now s.startedAt s.hardLimit = true → j.row.status = .running → s.attempt = j.row.attempt ∧ j.workers = []

/-- A row has at most one worker: none while it is pending, and that of its current attempt while it is running. -/
structure OwnWorkers (j : JobSys) : Prop where
  atMostOne : j.workers.length ≤ 1
  pending : j.row.status = .pending → j.workers = []
  running : j.row.status = .running → ∀ w ∈ j.workers, w.attempt = j.row.attempt

namespace LateAttemptAux

/-- A row that its success changes was running. -/
theorem running_of_finishSuccess {now : Int} {result : Json} {row : JobRow} (h : row.finishSuccess now result ≠ row) :
    row.status = .running := by
  by_contra hne
  exact h (if_pos hne)

/-- A row that its failure changes was running. -/
theorem running_of_finishFailure {now : Int} {e : JobExc} {spec : Option JobPolicy} {jitter : Nat} {row : JobRow}
    (h : (row.finishFailure now e spec jitter).1 ≠ row) : row.status = .running := by
  by_contra hne
  unfold JobRow.finishFailure at h
  rw [if_pos hne] at h
  exact h rfl

/-- A move of the row by no worker keeps the invariant, when a row is put back only without a worker. -/
theorem ownWorkers_of_row {j j' : JobSys} (h : OwnWorkers j) (hmove : RowMove j.row j'.row)
    (hworkers : j'.workers = j.workers)
    (hback : j.row.status = .running → j'.row.status = .pending → j.workers = []) : OwnWorkers j' := by
  refine ⟨hworkers ▸ h.atMostOne, ?_, ?_⟩
  · intro hpending
    rw [hworkers]
    cases hmove with
    | same _ hs => exact h.pending (hs ▸ hpending)
    | requeued _ hr => exact hback hr hpending
    | ended _ _ hf =>
      rw [hpending] at hf
      cases hf
  · intro hrunning
    rw [hworkers, hmove.attempt]
    cases hmove with
    | same _ hs => exact h.running (hs ▸ hrunning)
    | requeued _ _ hp => cases hp.symm.trans hrunning
    | ended _ _ hf =>
      rw [hrunning] at hf
      cases hf

/-- A row whose only worker has gone. -/
theorem ownWorkers_of_erase {j j' : JobSys} (h : OwnWorkers j) {i : Nat} {w : JobWorker} (hw : j.workers[i]? = some w)
    (hworkers : j'.workers = j.workers.eraseIdx i) : OwnWorkers j' := by
  have hnil : j'.workers = [] := hworkers.trans (Entries.eraseIdx_eq_nil h.atMostOne hw)
  refine ⟨by rw [hnil]; exact Nat.zero_le 1, fun _ => hnil, ?_⟩
  intro _ w' hw'
  rw [hnil] at hw'
  cases hw'

/-- Every move keeps the invariant, when an attempt is declared lost only without a worker. -/
theorem ownWorkers_of_move {b : JobAct} {j j' : JobSys} (hmove : JobMove b j j') (h : OwnWorkers j)
    (hgone : ∀ listed jitter s, b = .recoverRunning listed jitter → j.suspects[listed]? = some s →
      isStaleRunning s.now s.startedAt s.hardLimit = true → j.row.status = .running → j.workers = []) : OwnWorkers j' := by
  cases hmove with
  | row hrow hnot hworkers => exact ownWorkers_of_row h hrow hworkers fun hr hp => absurd hp (hnot hr)
  | declaredLost listed jitter s hb hs hstale hrow hworkers =>
    exact ownWorkers_of_row h hrow hworkers fun hr _ => hgone listed jitter s hb hs hstale hr
  | claimed hpending _ hrunning hattempt hworkers =>
    rw [h.pending hpending, List.nil_append] at hworkers
    refine ⟨by rw [hworkers]; exact Nat.le_refl 1, fun hp => (by cases hrunning.symm.trans hp), ?_⟩
    intro _ w hw
    rw [hworkers, List.mem_singleton] at hw
    rw [hw, hattempt]
  | invoked i n hw hrow hworkers =>
    have hmem : ({ attempt := n } : JobWorker) ∈ j.workers := List.mem_of_getElem? hw
    refine ⟨by rw [hworkers, List.length_set]; exact h.atMostOne, ?_, ?_⟩
    · intro hp
      rw [hrow] at hp
      rw [h.pending hp] at hmem
      cases hmem
    · intro hr w hw'
      rw [hrow] at hr ⊢
      rw [hworkers] at hw'
      rcases List.mem_or_eq_of_mem_set hw' with hold | rfl
      · exact h.running hr w hold
      · have hown : n = j.row.attempt := h.running hr { attempt := n } hmem
        exact hown
  | left i n hw _ hworkers => exact ownWorkers_of_erase h hw hworkers
  | lostEarly i n hw _ hworkers => exact ownWorkers_of_erase h hw hworkers

/-- Every step keeps the invariant on every row. -/
theorem ownWorkers_step {clock : Int} {a : EventAct} {w : EventJobs} (hgone : LostIsGone clock a w)
    (h : ∀ j ∈ w.jobs, OwnWorkers j) : ∀ j ∈ (w.step clock a).jobs, OwnWorkers j := by
  refine EventJobs.forall_step h ?_ ?_ ?_
  · intro spec key payload
    exact ⟨Nat.zero_le 1, fun _ => rfl, fun _ _ hw => by cases hw⟩
  · intro i b j ha hj hown
    refine ownWorkers_of_move (j.act_move clock b) hown ?_
    intro listed jitter s hb hs hstale hr
    subst hb
    exact (hgone i listed jitter j s ha hj hs hstale hr).2
  · intro j j' hrow hworkers _ _ _ hown
    refine ⟨by rw [hworkers]; exact hown.atMostOne, ?_, ?_⟩
    · rw [hrow, hworkers]
      exact hown.pending
    · rw [hrow, hworkers]
      exact hown.running

/-- The step lemma: a finish of a row with its own worker only is by its current attempt. -/
theorem finishesOwn_of_ownWorkers {clock : Int} {b : JobAct} {j : JobSys} (h : OwnWorkers j)
    (hlost : ∀ listed jitter s, b = .recoverRunning listed jitter → j.suspects[listed]? = some s →
      isStaleRunning s.now s.startedAt s.hardLimit = true → j.row.status = .running → s.attempt = j.row.attempt) :
    FinishesOwn clock b j := by
  refine ⟨?_, ?_, ?_⟩
  · rintro worker result ⟨n, handling⟩ rfl hw hne
    have hrunning : j.row.status = .running := by
      simp only [JobSys.act, hw] at hne
      cases handling with
      | true => exact running_of_finishSuccess hne
      | false => exact absurd rfl hne
    exact h.running hrunning _ (List.mem_of_getElem? hw)
  · rintro worker e spec jitter ⟨n, handling⟩ rfl hw hne
    have hrunning : j.row.status = .running := by
      simp only [JobSys.act, hw] at hne
      cases handling with
      | true => exact running_of_finishFailure hne
      | false => exact absurd rfl hne
    exact h.running hrunning _ (List.mem_of_getElem? hw)
  · rintro listed jitter s rfl hs hne
    simp only [JobSys.act, hs] at hne
    by_cases hstale : isStaleRunning s.now s.startedAt s.hardLimit = true
    · rw [if_pos hstale] at hne
      exact hlost listed jitter s rfl hs hstale (running_of_finishFailure hne)
    · rw [if_neg hstale] at hne
      exact absurd rfl hne

end LateAttemptAux

/-- In every interleaving in which the tick declares lost only the attempt it listed, and only once no worker of the row
is left, every finish that changes a row is by the row's current attempt. -/
theorem late_attempt_changes_nothing (clock : Int) (es : List (Event EventAct))
    (h : Along EventJobs.step LostIsGone ⟨clock, {}⟩ es) : Along EventJobs.step FinishesOwnAttempt ⟨clock, {}⟩ es := by
  refine h.strengthen (P := fun _ w => ∀ j ∈ w.jobs, OwnWorkers j)
    (fun c n a w hgone hw => LateAttemptAux.ownWorkers_step hgone hw)
    ?_ (fun j hj => by cases hj)
  intro c n a w hgone hw i b j ha hj
  refine LateAttemptAux.finishesOwn_of_ownWorkers (hw j (List.mem_of_getElem? hj)) ?_
  intro listed jitter s hb hs hstale hr
  subst hb
  exact (hgone i listed jitter j s ha hj hs hstale hr).1

/-! ## An attempt that ends after it was declared lost -/

/-- A job is published and its handler is called. -/
def calledJob : List (Event EventAct) :=
  [⟨1, .publish (EventJobSpec.withDefaults "m1.notify" "m1") "agent-1" .empty⟩, ⟨1, .job 0 (.send true)⟩,
    ⟨1, .job 0 (.deliver 0 "task-1" m1Registry)⟩, ⟨1, .job 0 (.invoke 0)⟩]

/-- Ten minutes later the tick declares the attempt lost, and the job is claimed again two minutes after that. -/
def claimedAgain : List (Event EventAct) :=
  [⟨600 * 1000000, .job 0 (.listRunning 0)⟩, ⟨1, .job 0 (.recoverRunning 0 0)⟩,
    ⟨120 * 1000000, .job 0 (.deliver 0 "task-2" m1Registry)⟩]

/-- The worker is lost before the tick comes, and the second attempt ends the row. -/
theorem lostWorker_finishes_own :
    Along EventJobs.step LostIsGone ⟨0, {}⟩
        (calledJob ++ ⟨1, .job 0 (.lose 0)⟩ :: claimedAgain ++ [⟨1, .job 0 (.invoke 0)⟩, ⟨1, .job 0 (.finishSuccess 0 .empty)⟩]) ∧
      Along EventJobs.step FinishesOwnAttempt ⟨0, {}⟩
        (calledJob ++ ⟨1, .job 0 (.lose 0)⟩ :: claimedAgain ++ [⟨1, .job 0 (.invoke 0)⟩, ⟨1, .job 0 (.finishSuccess 0 .empty)⟩]) := by
  have h : Along EventJobs.step LostIsGone ⟨0, {}⟩
      (calledJob ++ ⟨1, .job 0 (.lose 0)⟩ :: claimedAgain ++ [⟨1, .job 0 (.invoke 0)⟩, ⟨1, .job 0 (.finishSuccess 0 .empty)⟩]) := by
    simp only [calledJob, claimedAgain, List.cons_append, List.nil_append, along_cons, along_nil, and_true]
    refine ⟨?_, ?_, ?_, ?_, ?_, ?_, ?_, ?_, ?_, ?_⟩
    case refine_7 =>
      intro i listed jitter j s ha hj hs _ _
      cases ha
      obtain rfl := Option.some.inj hj
      obtain rfl := Option.some.inj hs
      exact ⟨rfl, rfl⟩
    all_goals exact fun _ _ _ _ _ ha => by cases ha
  exact ⟨h, late_attempt_changes_nothing 0 _ h⟩

/-- The worker of the first attempt was only slow: its success ends the second attempt, whose worker has not even called
the handler. -/
theorem slowWorker_ends_next_attempt :
    ¬∀ es : List (Event EventAct), Along EventJobs.step FinishesOwnAttempt ⟨0, {}⟩ es := by
  intro h
  have hstep := (along_append.1 (h (calledJob ++ claimedAgain ++ [⟨1, .job 0 (.finishSuccess 0 .empty)⟩]))).2.1
  have hown := (hstep 0 _ _ rfl rfl).success 0 .empty _ rfl rfl (by decide)
  revert hown
  decide

end TecTac
