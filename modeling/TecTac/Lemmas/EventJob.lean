import TecTac.Lib.Entries
import TecTac.EventJobSystem

/-!
# What a step can do to an event job

`RowMove` says what a writer can make of a row: it leaves all that matters, it puts a running row back to pending, which
it does only below the number of attempts, or it ends an active row. `JobMove` adds the workers, and `step_move` the
table: a step publishes a row that no active row stands in the way of, or moves one row.
-/

namespace TecTac

/-- The columns no step changes. -/
structure JobRow.SameJob (row row' : JobRow) : Prop where
  identity : row'.identity = row.identity
  maxAttempts : row'.maxAttempts = row.maxAttempts

/-- What a writer that is not the claim can make of a row. -/
inductive RowMove (row row' : JobRow) : Prop where
  /-- Nothing but the moments of the next attempt and of the last message. -/
  | same : row.SameJob row' → row'.status = row.status → row'.attempt = row.attempt → RowMove row row'
  /-- A running row is pending again. -/
  | requeued : row.SameJob row' → row.status = .running → row'.status = .pending → row'.attempt = row.attempt →
      row.attempt < row.maxAttempts → RowMove row row'
  /-- An active row is finished. -/
  | ended : row.SameJob row' → row.status.active = true → row'.status.finished = true → row'.attempt = row.attempt →
    RowMove row row'

namespace JobRow

theorem rowMove_refl (row : JobRow) : RowMove row row := .same ⟨rfl, rfl⟩ rfl rfl

theorem active_of_pending {row : JobRow} (h : row.status = .pending) : row.status.active = true := by
  rw [h]
  rfl

theorem active_of_running {row : JobRow} (h : row.status = .running) : row.status.active = true := by
  rw [h]
  rfl

/-- The claim leaves a row that is not pending or not due, defers it, ends it, or starts the next attempt. -/
theorem claim_cases (now : Int) (taskId : String) (reg : JobRegistry) (row : JobRow) :
    ((row.claim now taskId reg).1 ≠ .claimed ∧ RowMove row (row.claim now taskId reg).2) ∨
    ((row.claim now taskId reg).1 = .claimed ∧ row.status = .pending ∧ row.SameJob (row.claim now taskId reg).2 ∧
      (row.claim now taskId reg).2.status = .running ∧ (row.claim now taskId reg).2.attempt = row.attempt + 1) := by
  unfold claim
  split
  · exact Or.inl ⟨fun h => (by cases h), rowMove_refl row⟩
  · rename_i hpending
    have hpending := not_not.mp hpending
    split
    · exact Or.inl ⟨fun h => (by cases h), rowMove_refl row⟩
    · split
      · exact Or.inl ⟨fun h => (by cases h), .ended ⟨rfl, rfl⟩ (active_of_pending hpending) rfl rfl⟩
      · split
        · exact Or.inl ⟨fun h => (by cases h), .same ⟨rfl, rfl⟩ rfl rfl⟩
        · exact Or.inl ⟨fun h => (by cases h), .ended ⟨rfl, rfl⟩ (active_of_pending hpending) rfl rfl⟩
        · split
          · exact Or.inl ⟨fun h => (by cases h), .ended ⟨rfl, rfl⟩ (active_of_pending hpending) rfl rfl⟩
          · exact Or.inr ⟨rfl, hpending, ⟨rfl, rfl⟩, rfl, rfl⟩

theorem finishSuccess_move (now : Int) (result : Json) (row : JobRow) : RowMove row (row.finishSuccess now result) := by
  unfold finishSuccess
  split
  · exact rowMove_refl row
  · rename_i hr
    exact .ended ⟨rfl, rfl⟩ (active_of_running (not_not.mp hr)) rfl rfl

theorem finishFailure_move (now : Int) (e : JobExc) (spec : Option JobPolicy) (jitter : Nat) (row : JobRow) :
    RowMove row (row.finishFailure now e spec jitter).1 := by
  unfold finishFailure
  split
  · exact rowMove_refl row
  · rename_i hr
    have hr := not_not.mp hr
    simp only
    split
    · exact .ended ⟨rfl, rfl⟩ (active_of_running hr) rfl rfl
    · rename_i hretry
      rw [not_or] at hretry
      refine .requeued ⟨rfl, rfl⟩ hr rfl rfl ?_
      by_contra hge
      exact hretry.1 (if_pos (Or.inr (Nat.le_of_not_lt hge)))

theorem expire_move (now : Int) (cause : ExpireCause) (row : JobRow) : RowMove row (row.expire now cause) := by
  unfold expire
  split
  · exact rowMove_refl row
  · rename_i hp
    exact .ended ⟨rfl, rfl⟩ (active_of_pending (not_not.mp hp)) rfl rfl

theorem markNotEnqueued_move (row : JobRow) : RowMove row row.markNotEnqueued := by
  unfold markNotEnqueued
  split
  · exact .same ⟨rfl, rfl⟩ rfl rfl
  · exact rowMove_refl row

theorem markEnqueued_move (now : Int) (row : JobRow) : RowMove row (row.markEnqueued now) := by
  unfold markEnqueued
  split
  · exact .same ⟨rfl, rfl⟩ rfl rfl
  · exact rowMove_refl row

end JobRow

namespace RowMove

variable {row row' : JobRow}

theorem sameJob (h : RowMove row row') : row.SameJob row' := by
  cases h with
  | same hsame => exact hsame
  | requeued hsame => exact hsame
  | ended hsame => exact hsame

theorem attempt (h : RowMove row row') : row'.attempt = row.attempt := by
  cases h with
  | same _ _ ha => exact ha
  | requeued _ _ _ ha => exact ha
  | ended _ _ _ ha => exact ha

/-- A row that is active after the move was active before. -/
theorem active (h : RowMove row row') (hactive : row'.status.active = true) : row.status.active = true := by
  cases h with
  | same _ hs => exact hs ▸ hactive
  | requeued _ hr => exact JobRow.active_of_running hr
  | ended _ ha => exact ha

/-- A finished row keeps its status. -/
theorem status_of_finished (h : RowMove row row') (hfinished : row.status.finished = true) : row'.status = row.status := by
  cases h with
  | same _ hs => exact hs
  | requeued _ hr =>
    rw [hr] at hfinished
    cases hfinished
  | ended _ ha =>
    rw [JobStatus.active, hfinished] at ha
    cases ha

end RowMove

/-! ## The moves of a job -/

/-- What a step can make of a row and its workers. -/
inductive JobMove (a : JobAct) (j : JobSys) : JobSys → Prop where
  /-- The row is moved, or nothing happens, by no worker; a running row is not put back by it. -/
  | row (j' : JobSys) :
      RowMove j.row j'.row → (j.row.status = .running → j'.row.status ≠ .pending) → j'.workers = j.workers →
        j'.invoked = j.invoked →
      j'.unreached = j.unreached → j'.deleted = j.deleted → JobMove a j j'
  /-- The tick declares the attempt of a row lost. -/
  | declaredLost (j' : JobSys) (listed jitter : Nat) (s : Suspect) :
      a = .recoverRunning listed jitter → j.suspects[listed]? = some s → isStaleRunning s.now s.startedAt s.hardLimit = true →
      RowMove j.row j'.row → j'.workers = j.workers → j'.invoked = j.invoked → j'.unreached = j.unreached →
        j'.deleted = j.deleted →
      JobMove a j j'
  /-- A worker claims the next attempt. -/
  | claimed (j' : JobSys) :
      j.row.status = .pending → j.row.SameJob j'.row → j'.row.status = .running → j'.row.attempt = j.row.attempt + 1 →
      j'.workers = j.workers ++ [{ attempt := j.row.attempt + 1 }] → j'.invoked = j.invoked → j'.unreached = j.unreached →
      j'.deleted = j.deleted → JobMove a j j'
  /-- A worker calls the handler. -/
  | invoked (j' : JobSys) (i n : Nat) :
      j.workers[i]? = some { attempt := n } → j'.row = j.row →
        j'.workers = j.workers.set i { attempt := n, handling := true } →
      j'.invoked = j.invoked ++ [n] → j'.unreached = j.unreached → j'.deleted = j.deleted → JobMove a j j'
  /-- A worker that has called the handler finishes, or is lost. -/
  | left (j' : JobSys) (i n : Nat) :
      j.workers[i]? = some { attempt := n, handling := true } → RowMove j.row j'.row → j'.workers = j.workers.eraseIdx i →
      j'.invoked = j.invoked → j'.unreached = j.unreached → j'.deleted = j.deleted → JobMove a j j'
  /-- A worker is lost before it calls the handler. -/
  | lostEarly (j' : JobSys) (i n : Nat) :
      j.workers[i]? = some { attempt := n } → j'.row = j.row → j'.workers = j.workers.eraseIdx i → j'.invoked = j.invoked →
      j'.unreached = j.unreached ++ [n] → j'.deleted = j.deleted → JobMove a j j'

namespace JobSys

theorem row_refl (a : JobAct) (j : JobSys) : JobMove a j j :=
  .row j (JobRow.rowMove_refl j.row) (fun hr hp => by cases hr.symm.trans hp) rfl rfl rfl rfl

/-- A step that leaves the row as it is, and all that counts. -/
theorem row_of_eq {a : JobAct} {j j' : JobSys} (hrow : j'.row = j.row) (hworkers : j'.workers = j.workers)
    (hinvoked : j'.invoked = j.invoked) (hunreached : j'.unreached = j.unreached) (hdeleted : j'.deleted = j.deleted) :
    JobMove a j j' :=
  .row j' (hrow ▸ JobRow.rowMove_refl j.row)
    (fun hr hp => by rw [hrow, hr] at hp; cases hp) hworkers hinvoked hunreached hdeleted

theorem list_move {a : JobAct} (cause : ExpireCause) (now : Int) (j : JobSys) : JobMove a j (j.list cause now) := by
  unfold list
  split
  · exact row_of_eq rfl rfl rfl rfl rfl
  · exact row_refl a j

/-- Every action is one of the moves. -/
theorem act_move (clock : Int) (a : JobAct) (j : JobSys) : JobMove a j (j.act clock a) := by
  cases a with
  | send accepted =>
    simp only [act]
    split
    · split
      · exact row_of_eq rfl rfl rfl rfl rfl
      · refine .row _ j.row.markNotEnqueued_move ?_ rfl rfl rfl rfl
        intro hr
        simp [JobRow.markNotEnqueued, hr]
    · exact row_refl _ j
  | deliver lag taskId reg =>
    simp only [act]
    split
    · rcases JobRow.claim_cases (clock - lag) taskId reg j.row with ⟨hne, hmove⟩ | ⟨heq, hpending, hsame, hrunning, hattempt⟩
      · refine .row _ hmove ?_ (if_neg hne) rfl rfl rfl
        intro hr
        simp [JobRow.claim, hr]
      · refine .claimed _ hpending hsame hrunning hattempt ?_ rfl rfl rfl
        simp only [heq, if_true, hattempt]
    · exact row_refl _ j
  | invoke worker =>
    simp only [act]
    split
    · rename_i n hw
      exact .invoked _ worker n hw rfl rfl rfl rfl rfl
    · exact row_refl _ j
  | finishSuccess worker result =>
    simp only [act]
    split
    · rename_i n hw
      exact .left _ worker n hw (j.row.finishSuccess_move clock result) rfl rfl rfl rfl
    · exact row_refl _ j
  | finishFailure worker e spec jitter =>
    simp only [act]
    split
    · rename_i n hw
      exact .left _ worker n hw (j.row.finishFailure_move clock e (some spec) jitter) rfl rfl rfl rfl
    · exact row_refl _ j
  | lose worker =>
    simp only [act]
    split
    · rename_i n hw
      exact .lostEarly _ worker n hw rfl rfl rfl rfl rfl
    · rename_i n hw
      exact .left _ worker n hw (JobRow.rowMove_refl j.row) rfl rfl rfl rfl
    · exact row_refl _ j
  | listExpired lag =>
    simp only [act]
    split
    · exact list_move _ _ j
    · exact row_refl _ j
  | listUnavailable lag status =>
    simp only [act]
    split
    · exact list_move _ _ j
    · exact row_refl _ j
  | expire listed =>
    simp only [act]
    split
    · rename_i cause now _
      refine .row _ (j.row.expire_move now cause) ?_ rfl rfl rfl rfl
      intro hr
      simp [JobRow.expire, hr]
    · exact row_refl _ j
  | listRunning lag =>
    simp only [act]
    split
    · exact row_of_eq rfl rfl rfl rfl rfl
    · exact row_refl _ j
  | recoverRunning listed jitter =>
    simp only [act]
    split
    · rename_i s hs
      split
      · rename_i hstale
        exact .declaredLost _ listed jitter s rfl hs hstale (j.row.finishFailure_move s.now eventJobLost none jitter)
          rfl rfl rfl rfl
      · exact row_of_eq rfl rfl rfl rfl rfl
    · exact row_refl _ j
  | listOverdue lag =>
    simp only [act]
    split
    · exact row_of_eq rfl rfl rfl rfl rfl
    · exact row_refl _ j
  | enqueueOverdue listed accepted =>
    simp only [act]
    split
    · rename_i o _
      split
      · refine .row _ (j.row.markEnqueued_move o.now) ?_ rfl rfl rfl rfl
        intro hr
        simp [JobRow.markEnqueued, hr]
      · exact row_of_eq rfl rfl rfl rfl rfl
    · exact row_refl _ j

end JobSys

/-! ## The table -/

/-- What a step can make of the table. -/
inductive TableMove (clock : Int) (a : EventAct) (w : EventJobs) : EventJobs → Prop where
  /-- Nothing happens. -/
  | same : TableMove clock a w w
  /-- A row is published. -/
  | published (spec : EventJobSpec) (key : String) (payload : Json) :
      w.activeExists (persistedRow spec key payload clock).identity = false →
      TableMove clock a w { jobs := w.jobs ++ [{ row := persistedRow spec key payload clock }] }
  /-- One row moves. -/
  | moved (i : Nat) (b : JobAct) (j : JobSys) :
      a = .job i b → w.jobs[i]? = some j → TableMove clock a w { jobs := w.jobs.set i (j.act clock b) }
  /-- A row is listed to be dropped, or is pruned once it is finished. -/
  | marked (i : Nat) (j j' : JobSys) :
      w.jobs[i]? = some j → j'.row = j.row → j'.workers = j.workers → j'.invoked = j.invoked → j'.unreached = j.unreached →
      (j'.deleted = j.deleted ∨ j.row.status.finished = true) → TableMove clock a w { jobs := w.jobs.set i j' }

namespace EventJobs

/-- Every step is one of the moves of the table. -/
theorem step_move (clock : Int) (a : EventAct) (w : EventJobs) : TableMove clock a w (w.step clock a) := by
  cases a with
  | publish spec key payload =>
    simp only [step, persist]
    split
    · exact .same
    · split
      · exact .same
      · rename_i hfree
        exact .published spec key payload (by simpa using hfree)
  | job i b =>
    simp only [step, onJob]
    split
    · exact .same
    · rename_i j hj
      exact .moved i b j rfl hj
  | trim i lag maxBacklog budget =>
    simp only [step, onJob]
    split
    · exact .same
    · rename_i j hj
      unfold JobSys.list
      split
      · split
        · exact .marked i j _ hj rfl rfl rfl rfl (Or.inl rfl)
        · exact .marked i j j hj rfl rfl rfl rfl (Or.inl rfl)
      · exact .marked i j j hj rfl rfl rfl rfl (Or.inl rfl)
  | prune i lag configured =>
    simp only [step, onJob]
    split
    · exact .same
    · rename_i j hj
      split
      · rename_i hprune
        unfold prunable at hprune
        rw [Bool.and_eq_true, Bool.and_eq_true] at hprune
        exact .marked i j _ hj rfl rfl rfl rfl (Or.inr hprune.1.2)
      · exact .marked i j j hj rfl rfl rfl rfl (Or.inl rfl)

/-- The rule for what holds of every row: a new row has it, an action on a row keeps it, and so does a mark. -/
theorem forall_step {clock : Int} {a : EventAct} {w : EventJobs} {P : JobSys → Prop} (h : ∀ j ∈ w.jobs, P j)
    (hnew : ∀ spec key payload, P { row := persistedRow spec key payload clock })
    (hact : ∀ i b j, a = .job i b → w.jobs[i]? = some j → P j → P (j.act clock b))
    (hmark : ∀ j j' : JobSys, j'.row = j.row → j'.workers = j.workers → j'.invoked = j.invoked → j'.unreached = j.unreached →
      (j'.deleted = j.deleted ∨ j.row.status.finished = true) → P j → P j') : ∀ j ∈ (w.step clock a).jobs, P j := by
  have hmove := w.step_move clock a
  generalize w.step clock a = w' at hmove ⊢
  cases hmove with
  | same => exact h
  | published spec key payload _ => exact Entries.forall_mem_concat h (hnew spec key payload)
  | moved i b j ha hj => exact Entries.forall_mem_set h (hact i b j ha hj (h j (List.mem_of_getElem? hj)))
  | marked i j j' hj hrow hworkers hinvoked hunreached hdeleted =>
    exact Entries.forall_mem_set h (hmark j j' hrow hworkers hinvoked hunreached hdeleted (h j (List.mem_of_getElem? hj)))

end EventJobs

/-! ## A sample registry -/

/-- A registry in which every module may run and `m1` has registered its job. -/
def m1Registry : JobRegistry where
  moduleStatus := fun _ => .runnable
  definitionModule := fun id => if id = "m1.notify" then some "m1" else none

end TecTac
