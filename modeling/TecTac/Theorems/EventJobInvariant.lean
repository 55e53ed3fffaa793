import TecTac.Lemmas.EventJob

/-!
# What holds of every event-job row

At most one row of a job and key is pending or running, a finished row stays as it ended, and no row is claimed more
often than its `max_attempts`. `attempt` counts claims. A worker that is lost between its claim and the handler has used
up an attempt without a call, so the calls may be fewer: each attempt is exactly one of called for, lost before the
call, or about to be called for.
-/

namespace TecTac

open Timeline

/-- The attempts of the workers that have not called the handler yet. -/
def waitingAttempts (workers : List JobWorker) : List Nat := (workers.filter fun w => !w.handling).map (·.attempt)

/-- No two rows of one job and key are pending or running. -/
def UniqueActive (w : EventJobs) : Prop :=
  ∀ (i k : Nat) (j j' : JobSys), w.jobs[i]? = some j → w.jobs[k]? = some j' → j.row.status.active = true →
    j'.row.status.active = true →
    j.row.identity = j'.row.identity → i = k

/-- Each attempt of a row, from the first to the current one, is called for, was lost before the call, or is about to be
called for; and there are no more of them than `max_attempts`. -/
structure AttemptsAccounted (j : JobSys) : Prop where
  calls : (j.invoked ++ j.unreached ++ waitingAttempts j.workers).Perm (List.range' 1 j.row.attempt)
  bounded : j.row.attempt ≤ j.row.maxAttempts

/-- The invariant of a row: a pending row has an attempt left, and only a finished row is deleted. -/
structure JobSound (j : JobSys) : Prop where
  accounted : AttemptsAccounted j
  pending : j.row.status = .pending → j.row.attempt < j.row.maxAttempts
  deleted : j.deleted = true → j.row.status.finished = true

namespace EventJobAux

/-! ## The workers of a row -/

/-- A worker that has not called the handler is one of those that wait. -/
theorem waitingAttempts_perm_erase {workers : List JobWorker} {i n : Nat} (h : workers[i]? = some { attempt := n }) :
    (waitingAttempts workers).Perm (n :: waitingAttempts (workers.eraseIdx i)) := by
  obtain ⟨hsplit, -⟩ := Entries.split_at h
  rw [List.eraseIdx_eq_take_drop_succ]
  conv_lhs => rw [hsplit]
  simp only [waitingAttempts, List.filter_append, List.filter_cons, List.map_append, Bool.not_false, if_true, List.map_cons]
  exact List.perm_middle

/-- Once it calls the handler it no longer waits. -/
theorem waitingAttempts_set {workers : List JobWorker} {i n : Nat} (h : workers[i]? = some { attempt := n }) :
    waitingAttempts (workers.set i { attempt := n, handling := true }) = waitingAttempts (workers.eraseIdx i) := by
  obtain ⟨-, hi⟩ := Entries.split_at h
  rw [List.eraseIdx_eq_take_drop_succ, List.set_eq_take_append_cons_drop, if_pos hi]
  simp [waitingAttempts]

/-- A worker that has called the handler is none of those that wait. -/
theorem waitingAttempts_erase_handling {workers : List JobWorker} {i n : Nat}
    (h : workers[i]? = some { attempt := n, handling := true }) :
      waitingAttempts (workers.eraseIdx i) = waitingAttempts workers := by
  obtain ⟨hsplit, -⟩ := Entries.split_at h
  rw [List.eraseIdx_eq_take_drop_succ]
  conv_rhs => rw [hsplit]
  simp [waitingAttempts]

theorem waitingAttempts_append (workers : List JobWorker) (n : Nat) :
    waitingAttempts (workers ++ [{ attempt := n }]) = waitingAttempts workers ++ [n] := by
  simp [waitingAttempts]

/-! ## The step lemmas -/

/-- A move of the row alone keeps the invariant when the attempts of the workers stay accounted for. -/
theorem sound_of_rowMove {j j' : JobSys} (h : JobSound j) (hmove : RowMove j.row j'.row) (hdeleted : j'.deleted = j.deleted)
    (hcalls : (j'.invoked ++ j'.unreached ++ waitingAttempts j'.workers).Perm
      (j.invoked ++ j.unreached ++ waitingAttempts j.workers)) : JobSound j' := by
  refine ⟨⟨?_, ?_⟩, ?_, ?_⟩
  · rw [hmove.attempt]
    exact hcalls.trans h.accounted.calls
  · rw [hmove.attempt, hmove.sameJob.maxAttempts]
    exact h.accounted.bounded
  · intro hpending
    rw [hmove.attempt, hmove.sameJob.maxAttempts]
    cases hmove with
    | same _ hs => exact h.pending (hs ▸ hpending)
    | requeued _ _ _ _ hlt => exact hlt
    | ended _ _ hf =>
      rw [hpending] at hf
      cases hf
  · intro hdel
    have hfinished := h.deleted (hdeleted ▸ hdel)
    rw [hmove.status_of_finished hfinished]
    exact hfinished

/-- Every move keeps the invariant. -/
theorem sound_of_move {a : JobAct} {j j' : JobSys} (hmove : JobMove a j j') (h : JobSound j) : JobSound j' := by
  cases hmove with
  | row hrow _ hworkers hinvoked hunreached hdeleted =>
    refine sound_of_rowMove h hrow hdeleted ?_
    rw [hworkers, hinvoked, hunreached]
  | declaredLost listed jitter s _ _ _ hrow hworkers hinvoked hunreached hdeleted =>
    refine sound_of_rowMove h hrow hdeleted ?_
    rw [hworkers, hinvoked, hunreached]
  | claimed hpending hsame hrunning hattempt hworkers hinvoked hunreached hdeleted =>
    have hlt := h.pending hpending
    refine ⟨⟨?_, ?_⟩, ?_, ?_⟩
    · rw [hinvoked, hunreached, hworkers, hattempt, waitingAttempts_append, List.range'_1_concat, Nat.add_comm 1,
        ← List.append_assoc]
      exact h.accounted.calls.append_right _
    · rw [hattempt, hsame.maxAttempts]
      exact hlt
    · intro hp
      cases hrunning.symm.trans hp
    · intro hdel
      have hfinished := h.deleted (hdeleted ▸ hdel)
      rw [hpending] at hfinished
      cases hfinished
  | invoked i n hw hrow hworkers hinvoked hunreached hdeleted =>
    refine sound_of_rowMove h (hrow ▸ JobRow.rowMove_refl j.row) hdeleted ?_
    rw [hinvoked, hunreached, hworkers, waitingAttempts_set hw]
    -- the attempt moves from the workers that wait to the calls
    refine List.Perm.trans ?_ ((waitingAttempts_perm_erase hw).symm.append_left _)
    rw [List.append_assoc, List.append_assoc, List.append_assoc, List.singleton_append]
    exact List.Perm.append_left _ List.perm_middle.symm
  | left i n hw hrow hworkers hinvoked hunreached hdeleted =>
    refine sound_of_rowMove h hrow hdeleted ?_
    rw [hinvoked, hunreached, hworkers, waitingAttempts_erase_handling hw]
  | lostEarly i n hw hrow hworkers hinvoked hunreached hdeleted =>
    refine sound_of_rowMove h (hrow ▸ JobRow.rowMove_refl j.row) hdeleted ?_
    rw [hinvoked, hunreached, hworkers]
    refine List.Perm.trans ?_ ((waitingAttempts_perm_erase hw).symm.append_left _)
    rw [← List.append_assoc, List.append_assoc _ [n], List.singleton_append]

/-- A move leaves the identity of a row, makes no row active that was not, and leaves the status of a finished row. -/
theorem identity_of_move {a : JobAct} {j j' : JobSys} (hmove : JobMove a j j') :
    j'.row.identity = j.row.identity ∧ (j'.row.status.active = true → j.row.status.active = true) ∧
      (j.row.status.finished = true → j'.row.status = j.row.status) := by
  have hrowMove : RowMove j.row j'.row → j'.row.identity = j.row.identity ∧
    (j'.row.status.active = true → j.row.status.active = true) ∧
      (j.row.status.finished = true → j'.row.status = j.row.status) :=
    fun h => ⟨h.sameJob.identity, h.active, h.status_of_finished⟩
  cases hmove with
  | row hrow => exact hrowMove hrow
  | declaredLost _ _ _ _ _ _ hrow => exact hrowMove hrow
  | claimed hpending hsame =>
    refine ⟨hsame.identity, fun _ => JobRow.active_of_pending hpending, ?_⟩
    intro hf
    rw [hpending] at hf
    cases hf
  | invoked i n _ hrow => exact hrowMove (hrow ▸ JobRow.rowMove_refl j.row)
  | left i n _ hrow => exact hrowMove hrow
  | lostEarly i n _ hrow => exact hrowMove (hrow ▸ JobRow.rowMove_refl j.row)

/-! ## The table -/

/-- A new row is sound. -/
theorem sound_persisted (spec : EventJobSpec) (key : String) (payload : Json) (clock : Int) :
    JobSound { row := persistedRow spec key payload clock } := by
  refine ⟨⟨List.Perm.refl _, Nat.zero_le _⟩, ?_, fun h => by cases h⟩
  intro _
  have hlow : Limits.maxAttempts.low ≤ spec.maxAttempts := spec.attempts_within.1
  exact hlow

/-- What holds of the table after every step. -/
structure TableSound (w : EventJobs) : Prop where
  rows : ∀ j ∈ w.jobs, JobSound j
  unique : UniqueActive w

/-- A row that no active row stands in the way of keeps the active rows unique. -/
theorem unique_append {w : EventJobs} (h : TableSound w) {new : JobSys} (hfree : w.activeExists new.row.identity = false) :
    UniqueActive { jobs := w.jobs ++ [new] } := by
  -- an active row is not deleted, so the constraint sees it
  have hother : ∀ x ∈ w.jobs, x.row.status.active = true → x.row.identity ≠ new.row.identity := by
    intro x hmem hactive hid
    have hlive : x.live = true := by
      by_contra hdel
      have hfinished := (h.rows x hmem).deleted (by simpa [JobSys.live] using hdel)
      rw [JobStatus.active, hfinished] at hactive
      cases hactive
    refine List.any_eq_false.mp hfree x hmem ?_
    simp only [hlive, hid, hactive, beq_self_eq_true, Bool.and_self]
  exact Entries.UniqueOn.concat h.unique hother

/-- A mark leaves all that the invariant speaks of. -/
theorem sound_of_mark {j j' : JobSys} (hrow : j'.row = j.row) (hworkers : j'.workers = j.workers)
    (hinvoked : j'.invoked = j.invoked)
    (hunreached : j'.unreached = j.unreached) (hdeleted : j'.deleted = j.deleted ∨ j.row.status.finished = true)
    (h : JobSound j) :
    JobSound j' := by
  refine ⟨⟨?_, by rw [hrow]; exact h.accounted.bounded⟩, by rw [hrow]; exact h.pending, ?_⟩
  · rw [hrow, hworkers, hinvoked, hunreached]
    exact h.accounted.calls
  · intro hdel
    rw [hrow]
    rcases hdeleted with heq | hfinished
    · exact h.deleted (heq ▸ hdel)
    · exact hfinished

/-- Every step keeps the active rows unique. -/
theorem unique_step {clock : Int} {a : EventAct} {w : EventJobs} (h : TableSound w) : UniqueActive (w.step clock a) := by
  have hunique : Entries.UniqueOn (fun j : JobSys => j.row.status.active = true) (fun j => j.row.identity) w.jobs := h.unique
  have hmove := w.step_move clock a
  generalize w.step clock a = w' at hmove ⊢
  cases hmove with
  | same => exact h.unique
  | published spec key payload hfree => exact unique_append h hfree
  | moved i b j _ hj =>
    have hact := j.act_move clock b
    exact hunique.set hj (identity_of_move hact).1 (identity_of_move hact).2.1
  | marked i j j' hj hrow _ _ _ _ => exact hunique.set hj (by rw [hrow]) (by rw [hrow]; exact id)

/-- Every step keeps the table sound. -/
theorem tableSound_step {clock : Int} {a : EventAct} {w : EventJobs} (h : TableSound w) : TableSound (w.step clock a) := by
  refine ⟨EventJobs.forall_step h.rows ?_ ?_ ?_, unique_step h⟩
  · intro spec key payload
    exact sound_persisted spec key payload clock
  · intro i b j _ _ hj
    exact sound_of_move (j.act_move clock b) hj
  · intro j j' hrow hworkers hinvoked hunreached hdeleted hj
    exact sound_of_mark hrow hworkers hinvoked hunreached hdeleted hj

/-- Every step keeps the status of a finished row. -/
theorem finished_step {clock : Int} {a : EventAct} {w : EventJobs} {i : Nat} {j : JobSys} (hj : w.jobs[i]? = some j)
    (hfinished : j.row.status.finished = true) : ∃ j', (w.step clock a).jobs[i]? = some j' ∧
      j'.row.status = j.row.status := by
  have hmove := w.step_move clock a
  generalize w.step clock a = w' at hmove ⊢
  have hi := (List.getElem?_eq_some_iff.mp hj).1
  cases hmove with
  | same => exact ⟨j, hj, rfl⟩
  | published spec key payload _ => exact ⟨j, (List.getElem?_append_left hi).trans hj, rfl⟩
  | moved k b x _ hx =>
    by_cases hki : k = i
    · subst hki
      obtain rfl := Option.some.inj (hj.symm.trans hx)
      exact ⟨_, List.getElem?_set_self hi, (identity_of_move (j.act_move clock b)).2.2 hfinished⟩
    · exact ⟨j, (List.getElem?_set_ne hki).trans hj, rfl⟩
  | marked k x x' hx hrow _ _ _ _ =>
    by_cases hki : k = i
    · subst hki
      obtain rfl := Option.some.inj (hj.symm.trans hx)
      exact ⟨x', List.getElem?_set_self hi, by rw [hrow]⟩
    · exact ⟨j, (List.getElem?_set_ne hki).trans hj, rfl⟩

/-- Every run keeps the status of a finished row. -/
theorem finished_exec {start : At EventJobs} {es : List (Event EventAct)} {i : Nat} {j : JobSys}
    (hj : start.state.jobs[i]? = some j)
    (hfinished : j.row.status.finished = true) :
    ∃ j', (exec EventJobs.step start es).state.jobs[i]? = some j' ∧ j'.row.status = j.row.status := by
  have hrun : Along EventJobs.step (fun _ _ _ => True) start es := along_of_forall (fun _ _ _ => trivial) _ _
  refine exec_invariant (P := fun _ (w : EventJobs) => ∃ j', w.jobs[i]? = some j' ∧ j'.row.status = j.row.status)
    ?_ ⟨j, hj, rfl⟩ hrun
  intro c n a w _ hw
  obtain ⟨j', hj', hstatus⟩ := hw
  have hkept : ∃ j'', (w.step (c + n) a).jobs[i]? = some j'' ∧ j''.row.status = j'.row.status :=
    finished_step hj' (hstatus ▸ hfinished)
  obtain ⟨j'', hj'', hstatus'⟩ := hkept
  exact ⟨j'', hj'', hstatus'.trans hstatus⟩

end EventJobAux

/-- In every interleaving of publishes, deliveries, handlers, worker losses and tick steps: no two rows of one job and
key are active; on every row each attempt is called for once, lost before its call or about to be called for, so that
the handler is called at most `attempt` times, and exactly so often when no worker was lost before its call and none is
about to call; `attempt` is at most `max_attempts`; and a finished row never changes its status. -/
theorem event_job_rows (clock : Int) (es es' : List (Event EventAct)) :
    UniqueActive (exec EventJobs.step ⟨clock, {}⟩ es).state ∧
    (∀ j ∈ (exec EventJobs.step ⟨clock, {}⟩ es).state.jobs,
      AttemptsAccounted j ∧ j.invoked.Nodup ∧ j.invoked.length ≤ j.row.attempt ∧
        (j.unreached = [] → waitingAttempts j.workers = [] → j.invoked.length = j.row.attempt)) ∧
    (∀ (i : Nat) (j : JobSys), (exec EventJobs.step ⟨clock, {}⟩ es).state.jobs[i]? = some j → j.row.status.finished = true →
      ∃ j', (exec EventJobs.step ⟨clock, {}⟩ (es ++ es')).state.jobs[i]? = some j' ∧ j'.row.status = j.row.status) := by
  have hrun : Along EventJobs.step (fun _ _ _ => True) ⟨clock, {}⟩ es := along_of_forall (fun _ _ _ => trivial) _ _
  have hsound : EventJobAux.TableSound (exec EventJobs.step ⟨clock, {}⟩ es).state := by
    refine exec_invariant (P := fun _ w => EventJobAux.TableSound w)
      (fun c n a w _ hw => EventJobAux.tableSound_step hw) ?_ hrun
    exact ⟨fun j hj => (by cases hj), fun i k j j' hj => by cases hj⟩
  refine ⟨hsound.unique, ?_, ?_⟩
  · intro j hj
    have haccounted := (hsound.rows j hj).accounted
    have hlength := haccounted.calls.length_eq
    rw [List.length_append, List.length_append, List.length_range'] at hlength
    refine ⟨haccounted, ?_, by omega, ?_⟩
    · have hnodup := haccounted.calls.nodup_iff.mpr List.nodup_range'
      exact (List.nodup_append.mp (List.nodup_append.mp hnodup).1).1
    · intro hunreached hwaiting
      rw [hunreached, hwaiting] at hlength
      exact hlength
  · intro i j hj hfinished
    rw [exec_append]
    exact EventJobAux.finished_exec hj hfinished

/-! ## A worker lost before the call -/

/-- A job is published and delivered, and its worker is stopped between the claim and the handler. -/
def stoppedWorker : List (Event EventAct) :=
  [⟨1, .publish (EventJobSpec.withDefaults "m1.notify" "m1") "agent-1" .empty⟩, ⟨1, .job 0 (.send true)⟩,
    ⟨1, .job 0 (.deliver 0 "task-1" m1Registry)⟩, ⟨1, .job 0 (.lose 0)⟩]

/-- The row stands at attempt 1, and the handler was never called. -/
theorem stoppedWorker_uncalled :
    ¬∀ es : List (Event EventAct), ∀ j ∈ (exec EventJobs.step ⟨0, {}⟩ es).state.jobs, j.invoked.length = j.row.attempt := by
  intro h
  have hcalls : (exec EventJobs.step ⟨0, {}⟩ stoppedWorker).state.jobs.all
      (fun j => j.invoked.length == j.row.attempt) = true :=
    List.all_eq_true.mpr fun j hj => beq_iff_eq.mpr (h stoppedWorker j hj)
  revert hcalls
  decide

end TecTac
