import TecTac.Lib.Entries
import TecTac.RunSystem
import TecTac.Lemmas.Dispatch

/-!
# What a step can do to a run

Each writer of a run row gets one lemma, and `act_move` puts them together: every action of every process is one of the
moves of `RunMove`. A move says what becomes of the row, of the workers, of the handler calls and of the applied
outcomes; the messages, the dispatcher and the lists of the recovery and of the tick follow no rule that the theorems
need.
-/

namespace TecTac

open Timeline

/-- The row but for `celery_task_id` and `schedule_id`, which no decision about a run depends on. -/
def RunRow.SameRun (row row' : RunRow) : Prop :=
  ∃ taskId schedule, row' = { row with celeryTaskId := taskId, schedule := schedule }

theorem RunRow.SameRun.refl (row : RunRow) : row.SameRun row := ⟨row.celeryTaskId, row.schedule, rfl⟩

/-- A row ends: the run was active and is over, and nothing else of it changes but what the end itself writes. A pending
run may expire by it. -/
structure RunRow.Ended (row row' : RunRow) : Prop where
  active : row.status.active = true
  terminal : row'.status.terminal = true
  queued : row.status = .queued → row'.status ≠ .succeeded
  attempt : row'.attempt = row.attempt
  manual : row'.manual = row.manual
  retryCountSnapshot : row'.retryCountSnapshot = row.retryCountSnapshot
  completionRef : row'.completionRef = row.completionRef
  completionState : row'.completionState = row.completionState ∨
    (row.completionState = .pending ∧ row'.completionState = .expired)

/-- The row a claim leaves. -/
def RunRow.claimed (clock : Int) (retries : Nat) (row : RunRow) : RunRow :=
  { row with
    status := .running
    startedAt := some clock
    finishedAt := none
    attempt := retries + 1
    error := ""
    errorType := "" }

namespace RunRow

/-- A claim does nothing to a run that is not queued. A queued one is skipped, or it is running and the worker goes on.
-/
theorem claim_cases (clock : Int) (v : ScheduleVisibility) (retries : Nat) (row : RunRow) :
    (row.status ≠ .queued ∧ row.claim clock v retries = (row, false)) ∨
    (row.status = .queued ∧ ∃ row', row.claim clock v retries = (row', false) ∧ row.Ended row' ∧ row'.status ≠ .succeeded) ∨
    (row.status = .queued ∧ row.claim clock v retries = (row.claimed clock retries, true)) := by
  unfold claim
  by_cases hq : row.status = .queued
  · rw [if_neg (not_not.mpr hq)]
    simp only
    split
    · refine Or.inr (Or.inl
        ⟨hq, _, rfl, ⟨?_, rfl, fun _ h => (by cases h), rfl, rfl, rfl, rfl, Or.inl rfl⟩, fun h => by cases h⟩)
      rw [hq]
      rfl
    · exact Or.inr (Or.inr ⟨hq, rfl⟩)
  · rw [if_pos hq]
    exact Or.inl ⟨hq, rfl⟩

/-- A running run that ends other than by an outcome. -/
theorem ended_of_running {row row' : RunRow} (hr : row.status = .running) (hterm : row'.status.terminal = true)
    (hattempt : row'.attempt = row.attempt) (hmanual : row'.manual = row.manual)
    (hretry : row'.retryCountSnapshot = row.retryCountSnapshot) (href : row'.completionRef = row.completionRef)
    (hstate : row'.completionState = row.completionState ∨
      (row.completionState = .pending ∧ row'.completionState = .expired)) :
    row.Ended row' :=
  ⟨by rw [hr]; rfl, hterm, fun hq => (by cases hr.symm.trans hq), hattempt, hmanual, hretry, href, hstate⟩

theorem skipUnauthorizedOneOff_cases (clock : Int) (reason : String) (row : RunRow) :
    row.skipUnauthorizedOneOff clock reason = row ∨
    (row.Ended (row.skipUnauthorizedOneOff clock reason) ∧
      (row.skipUnauthorizedOneOff clock reason).status ≠ .succeeded) := by
  unfold skipUnauthorizedOneOff
  split
  · exact Or.inl rfl
  · rename_i hr
    exact Or.inr ⟨ended_of_running (not_not.mp hr) rfl rfl rfl rfl rfl (Or.inl rfl), fun h => by cases h⟩

theorem finishSuccess_cases (clock : Int) (result : Json) (row : RunRow) :
    (row.finishSuccess clock result).1 = row ∨ row.Ended (row.finishSuccess clock result).1 := by
  unfold finishSuccess
  split
  · exact Or.inl rfl
  · rename_i hr
    exact Or.inr (ended_of_running (not_not.mp hr) rfl rfl rfl rfl rfl (Or.inl rfl))

/-- The row a retry leaves. -/
def requeued (clock : Int) (e : Exc) (row : RunRow) : RunRow :=
  { row with
    status := .queued
    error := if e.text = "" then e.className else e.text
    errorType := e.className
    finishedAt := none
    lastQueuedAt := some clock }

/-- A failure does nothing to a run that is no longer running. It queues the run again while the message has retries
left, and ends it otherwise. -/
theorem finishFailure_cases (clock : Int) (n : Nat) (e : Exc) (row : RunRow) :
    (row.status ≠ .running ∧ (row.finishFailure clock n e).1 = row) ∨
    (row.status = .running ∧ n < row.retryCountSnapshot ∧ (row.finishFailure clock n e).1 = row.requeued clock e) ∨
    (row.status = .running ∧ row.Ended (row.finishFailure clock n e).1 ∧
      (row.finishFailure clock n e).1.status ≠ .succeeded) := by
  unfold finishFailure
  by_cases hr : row.status = .running
  · rw [if_neg (not_not.mpr hr)]
    simp only
    split
    · rename_i hretry
      unfold retries at hretry
      rw [Bool.and_eq_true, decide_eq_true_eq] at hretry
      exact Or.inr (Or.inl ⟨hr, hretry.2, rfl⟩)
    · exact Or.inr (Or.inr ⟨hr, ended_of_running hr rfl rfl rfl rfl rfl (Or.inl rfl), fun h => by cases h⟩)
  · rw [if_pos hr]
    exact Or.inl ⟨hr, rfl⟩

/-- The row a pending completion leaves. -/
def parked (clock : Int) (ref : CompletionRef) (row : RunRow) : RunRow :=
  { row with
    completionState := .pending
    completionRef := some { ref with outcome := none }
    completionStartedAt := some clock }

theorem parkPendingRun_cases (clock : Int) (ref : CompletionRef) (refusal : Option String) (row : RunRow) :
    (row.parkPendingRun clock ref refusal).1 = row ∨
    (row.status = .running ∧ (row.parkPendingRun clock ref refusal).1 = row.parked clock ref) ∨
    (row.Ended (row.parkPendingRun clock ref refusal).1 ∧ (row.parkPendingRun clock ref refusal).1.status ≠ .succeeded) := by
  unfold parkPendingRun
  split
  · exact Or.inl rfl
  · rename_i hr
    split
    · exact Or.inr (Or.inr ⟨ended_of_running (not_not.mp hr) rfl rfl rfl rfl rfl (Or.inl rfl), fun h => by cases h⟩)
    · exact Or.inr (Or.inl ⟨not_not.mp hr, rfl⟩)

theorem recoverQueued_cases (now : Int) (configured : Nat) (row : RunRow) :
    row.recoverQueued now configured = row ∨
    (row.Ended (row.recoverQueued now configured) ∧ (row.recoverQueued now configured).status ≠ .succeeded) := by
  unfold recoverQueued
  simp only
  split
  · rename_i h
    refine Or.inr ⟨⟨?_, rfl, fun _ h => (by cases h), rfl, rfl, rfl, rfl, Or.inl rfl⟩, fun h => by cases h⟩
    rw [h.1]
    rfl
  · exact Or.inl rfl

theorem recoverRunning_cases (timeouts : String → Option Nat) (now : Int) (revoked : Bool) (row : RunRow) :
    row.recoverRunning timeouts now revoked = row ∨
    (row.Ended (row.recoverRunning timeouts now revoked) ∧
      (row.recoverRunning timeouts now revoked).status ≠ .succeeded) := by
  unfold recoverRunning
  split
  · exact Or.inl rfl
  · rename_i hr
    have hr := not_not.mp hr
    simp only
    split
    · exact Or.inl rfl
    · split
      · rename_i hwait
        exact Or.inr ⟨ended_of_running hr rfl rfl rfl rfl rfl (Or.inr ⟨hwait, rfl⟩), fun h => by cases h⟩
      · exact Or.inr ⟨ended_of_running hr rfl rfl rfl rfl rfl (Or.inl rfl), fun h => by cases h⟩

theorem forceDelete_cases (clock : Int) (row : RunRow) :
    row.SameRun (row.forceDelete clock) ∨
      (row.Ended (row.forceDelete clock) ∧ (row.forceDelete clock).status ≠ .succeeded) := by
  unfold forceDelete
  split
  · rename_i h
    exact Or.inr ⟨⟨h, rfl, fun _ h => (by cases h), rfl, rfl, rfl, rfl, Or.inl rfl⟩, fun h => by cases h⟩
  · exact Or.inl ⟨row.celeryTaskId, none, rfl⟩

/-- An outcome is applied, or the row is as it was. -/
theorem applyOutcome_cases (clock : Int) (c : OutcomeCall) (row : RunRow) :
    (row.applyCode c = .applied ∧ row.applyOutcome clock c = (.applied, row.applied clock c, row.schedule.isSome)) ∨
    (row.applyCode c ≠ .applied ∧ row.applyOutcome clock c = (row.applyCode c, row, false)) := by
  unfold applyOutcome
  by_cases h : row.applyCode c = .applied
  · exact Or.inl ⟨h, by rw [if_pos h]⟩
  · exact Or.inr ⟨h, by rw [if_neg h]⟩

end RunRow

/-! ## The moves of a run -/

/-- What an action at `clock` can make of a run. -/
inductive RunMove (clock : Int) (a : RunAct) (r : RunSys) : RunSys → Prop where
  /-- The row keeps all that matters; a worker may have gone. -/
  | quiet (r' : RunSys) :
      r.row.SameRun r'.row → r'.workers.Sublist r.workers → r'.invoked = r.invoked → r'.outcomes = r.outcomes →
        RunMove clock a r r'
  /-- A worker claims the queued run for a message. -/
  | claimed (r' : RunSys) (message retries : Nat) (v : ScheduleVisibility) :
      a = .deliver message v → r.messages[message]? = some retries → r.row.status = .queued →
      r'.row = r.row.claimed clock retries → r'.workers = r.workers ++ [{ retries := retries }] → r'.invoked = r.invoked →
      r'.outcomes = r.outcomes → RunMove clock a r r'
  /-- A worker calls the handler. -/
  | invoked (r' : RunSys) (i n : Nat) :
      r.workers[i]? = some { retries := n } → r'.row = r.row →
        r'.workers = r.workers.set i { retries := n, handling := true } →
      r'.invoked = r.invoked ++ [n] → r'.outcomes = r.outcomes → RunMove clock a r r'
  /-- A worker fails and the run is queued again. -/
  | requeued (r' : RunSys) (i : Nat) (w : Worker) (e : Exc) :
      r.workers[i]? = some w → r.row.status = .running → w.retries < r.row.retryCountSnapshot →
        r'.row = r.row.requeued clock e →
      r'.workers = r.workers.eraseIdx i → r'.invoked = r.invoked → r'.outcomes = r.outcomes → RunMove clock a r r'
  /-- A worker parks the run. -/
  | parked (r' : RunSys) (i : Nat) (w : Worker) (ref : CompletionRef) :
      r.workers[i]? = some w → r.row.status = .running → r'.row = r.row.parked clock ref →
      r'.workers = r.workers.eraseIdx i → r'.invoked = r.invoked → r'.outcomes = r.outcomes → RunMove clock a r r'
  /-- The run ends other than by an outcome; it ends well only by a worker. -/
  | ended (r' : RunSys) :
      r.row.Ended r'.row → (r'.row.status = .succeeded → r.workers ≠ []) → r'.workers.Sublist r.workers →
        r'.invoked = r.invoked →
      r'.outcomes = r.outcomes → RunMove clock a r r'
  /-- An outcome is applied. -/
  | applied (r' : RunSys) (c : OutcomeCall) :
      r.row.applyCode c = .applied → r'.row = r.row.applied clock c → r'.workers = r.workers → r'.invoked = r.invoked →
      r'.outcomes = r.outcomes ++ [c] → RunMove clock a r r'
  /-- The dispatcher records a failed dispatch. -/
  | dispatchFailed (r' : RunSys) (e : Exc) :
      a = .dispatchFail e → r.dispatch ≠ .idle → r'.row = r.row.queueRunFailed clock e → r'.workers = r.workers →
      r'.invoked = r.invoked → r'.outcomes = r.outcomes → RunMove clock a r r'

namespace RunSys

/-- A step that changes neither the row nor the workers nor the history is quiet. -/
theorem quiet_of_eq {clock : Int} {a : RunAct} {r r' : RunSys} (hrow : r'.row = r.row)
    (hworkers : r'.workers.Sublist r.workers)
    (hinvoked : r'.invoked = r.invoked) (houtcomes : r'.outcomes = r.outcomes) : RunMove clock a r r' :=
  .quiet r' (hrow ▸ RunRow.SameRun.refl r.row) hworkers hinvoked houtcomes

theorem quiet_refl (clock : Int) (a : RunAct) (r : RunSys) : RunMove clock a r r :=
  quiet_of_eq rfl (List.Sublist.refl _) rfl rfl

/-- Offering an outcome applies it or is quiet. -/
theorem offer_move {clock : Int} {a : RunAct} {c : OutcomeCall} {r r₀ : RunSys} (hrow : r₀.row = r.row)
    (hworkers : r₀.workers = r.workers)
    (hinvoked : r₀.invoked = r.invoked) (houtcomes : r₀.outcomes = r.outcomes) : RunMove clock a r (r₀.offer clock c).1 := by
  unfold offer
  simp only
  rw [hrow]
  rcases RunRow.applyOutcome_cases clock c r.row with ⟨hcode, h⟩ | ⟨hcode, h⟩
  · rw [h]
    exact .applied _ c hcode rfl hworkers hinvoked (by simp only [if_true, houtcomes])
  · rw [h]
    refine quiet_of_eq rfl (by rw [hworkers]) hinvoked ?_
    simp only [hcode, if_false, houtcomes]

/-- A worker that ends a run, or finds it no longer running. -/
theorem finish_move {clock : Int} {a : RunAct} {r : RunSys} {i : Nat} {w : Worker} (hw : r.workers[i]? = some w)
    {row : RunRow} {retry : List Nat}
    (h : row = r.row ∨ r.row.Ended row) : RunMove clock a r (r.finish i row retry) := by
  rcases h with rfl | hended
  · exact quiet_of_eq rfl (List.eraseIdx_sublist _ _) rfl rfl
  · refine .ended _ hended ?_ (List.eraseIdx_sublist _ _) rfl rfl
    intro _ hnil
    rw [hnil] at hw
    cases hw

/-- Every action is one of the moves. -/
theorem act_move (timeouts : String → Option Nat) (clock : Int) (a : RunAct) (r : RunSys) :
    RunMove clock a r (r.act timeouts clock a).1 := by
  cases a with
  | accept =>
    simp only [act]
    split
    · exact quiet_of_eq rfl (List.Sublist.refl _) rfl rfl
    · exact quiet_refl clock _ r
  | recordTaskId taskId =>
    simp only [act]
    split
    · exact .quiet _ ⟨taskId, r.row.schedule, rfl⟩ (List.Sublist.refl _) rfl rfl
    · exact quiet_refl clock _ r
  | recordState =>
    simp only [act]
    split
    · exact quiet_of_eq rfl (List.Sublist.refl _) rfl rfl
    · exact quiet_refl clock _ r
  | dispatchFail e =>
    simp only [act]
    split
    · exact quiet_refl clock _ r
    · rename_i h
      exact .dispatchFailed _ e rfl h rfl rfl rfl rfl
  | deliver message v =>
    simp only [act]
    split
    · exact quiet_refl clock _ r
    · rename_i retries hm
      rcases RunRow.claim_cases clock v retries r.row with ⟨-, h⟩ | ⟨-, row', h, hended, hne⟩ | ⟨hq, h⟩
      · simp only [h]
        exact quiet_refl clock _ r
      · simp only [h]
        exact .ended _ hended (fun hs => absurd hs hne) (List.Sublist.refl _) rfl rfl
      · simp only [h]
        exact .claimed _ message retries v rfl hm hq rfl rfl rfl rfl
  | skipOneOff worker reason =>
    simp only [act]
    split
    · rename_i hw
      exact finish_move hw ((RunRow.skipUnauthorizedOneOff_cases clock reason r.row).imp_right And.left)
    · exact quiet_refl clock _ r
  | invoke worker =>
    simp only [act]
    split
    · rename_i n hw
      exact .invoked _ worker n hw rfl rfl rfl rfl
    · exact quiet_refl clock _ r
  | finishResult worker result =>
    simp only [act]
    split
    · rename_i hw
      exact finish_move hw (RunRow.finishSuccess_cases clock result r.row)
    · exact quiet_refl clock _ r
  | finishPending worker ref refusal =>
    simp only [act]
    split
    · rename_i n hw
      rcases RunRow.parkPendingRun_cases clock ref refusal r.row with h | ⟨hr, h⟩ | ⟨hended, -⟩
      · exact finish_move hw (Or.inl h)
      · exact .parked _ worker _ ref hw hr h rfl rfl rfl
      · exact finish_move hw (Or.inr hended)
    · exact quiet_refl clock _ r
  | finishRaised worker e =>
    simp only [act]
    split
    · rename_i n _ hw
      rcases RunRow.finishFailure_cases clock n e r.row with ⟨-, h⟩ | ⟨hr, hlt, h⟩ | ⟨-, hended, -⟩
      · exact finish_move hw (Or.inl h)
      · exact .requeued _ worker _ e hw hr hlt h rfl rfl rfl
      · exact finish_move hw (Or.inr hended)
    · exact quiet_refl clock _ r
  | lose worker => exact quiet_of_eq rfl (List.eraseIdx_sublist _ _) rfl rfl
  | recoverQueued lag configured =>
    rcases RunRow.recoverQueued_cases (clock - lag) configured r.row with h | ⟨hended, hne⟩
    · exact quiet_of_eq h (List.Sublist.refl _) rfl rfl
    · exact .ended _ hended (fun hs => absurd hs hne) (List.Sublist.refl _) rfl rfl
  | recoverList lag =>
    simp only [act]
    split
    · split
      · exact quiet_of_eq rfl (List.Sublist.refl _) rfl rfl
      · exact quiet_refl clock _ r
    · exact quiet_refl clock _ r
  | recoverRunning candidate revoked =>
    simp only [act]
    split
    · rename_i c _
      split
      · rcases RunRow.recoverRunning_cases timeouts c.now revoked r.row with h | ⟨hended, hne⟩
        · exact quiet_of_eq h (List.Sublist.refl _) rfl rfl
        · exact .ended _ hended (fun hs => absurd hs hne) (List.Sublist.refl _) rfl rfl
      · exact quiet_of_eq rfl (List.Sublist.refl _) rfl rfl
    · exact quiet_refl clock _ r
  | complete c =>
    simp only [act]
    split
    · exact quiet_refl clock _ r
    · exact offer_move rfl rfl rfl rfl
  | settleList =>
    simp only [act]
    split
    · exact quiet_of_eq rfl (List.Sublist.refl _) rfl rfl
    · exact quiet_refl clock _ r
  | settle listed lag read =>
    simp only [act]
    split
    · split
      · exact offer_move rfl rfl rfl rfl
      · exact quiet_of_eq rfl (List.Sublist.refl _) rfl rfl
    · exact quiet_refl clock _ r
  | forceDelete =>
    rcases RunRow.forceDelete_cases clock r.row with h | ⟨hended, hne⟩
    · exact .quiet _ h (List.Sublist.refl _) rfl rfl
    · exact .ended _ hended (fun hs => absurd hs hne) (List.Sublist.refl _) rfl rfl

/-- Every step is one of the moves. -/
theorem step_move (timeouts : String → Option Nat) (clock : Int) (a : RunAct) (r : RunSys) :
    RunMove clock a r (r.step timeouts clock a) := act_move timeouts clock a r

end RunSys

/-! ## What every move keeps -/

namespace RunRow

/-- An outcome is applied only to a pending run, under the kind and the job id the run waits for. -/
theorem applyCode_eq_applied {c : OutcomeCall} {row : RunRow} (h : row.applyCode c = .applied) :
    row.status = .running ∧ row.completionState = .pending ∧
      (row.completionRef.map (·.kind)).any (· ≠ c.allowedKind) = false ∧
      row.completionRef.map (·.externalJobId) = some c.externalJobId := by
  unfold applyCode at h
  split at h
  · cases h
  · rename_i hkind
    split at h
    · split at h <;> cases h
    · split at h
      · cases h
      · split at h
        · cases h
        · rename_i hpending
          split at h
          · cases h
          · rename_i hrunning
            split at h
            · cases h
            · rename_i hjob
              exact ⟨not_not.mp hrunning, not_not.mp hpending, Bool.eq_false_iff.mpr hkind, not_not.mp hjob⟩

theorem applied_terminal (clock : Int) (c : OutcomeCall) (row : RunRow) : (row.applied clock c).status.terminal = true := by
  simp only [applied]
  split <;> rfl

end RunRow

namespace RunMove

variable {clock : Int} {a : RunAct} {r r' : RunSys}

/-- A run that is over is over for good. -/
theorem terminal (h : RunMove clock a r r') (hterm : r.row.status.terminal = true) : r'.row.status.terminal = true := by
  cases h with
  | quiet hsame _ _ _ =>
    obtain ⟨taskId, schedule, hrow⟩ := hsame
    rw [hrow]
    exact hterm
  | claimed message retries v _ _ hq =>
    rw [hq] at hterm
    cases hterm
  | invoked i n _ hrow =>
    rw [hrow]
    exact hterm
  | requeued i w e _ hr =>
    rw [hr] at hterm
    cases hterm
  | parked i w ref _ hr =>
    rw [hr] at hterm
    cases hterm
  | ended hended => exact hended.terminal
  | applied c _ hrow =>
    rw [hrow]
    exact RunRow.applied_terminal clock c r.row
  | dispatchFailed e _ _ hrow =>
    rw [hrow]
    rfl

/-- No move changes whether the run is manual, nor the number of its retries. -/
theorem snapshot (h : RunMove clock a r r') :
    r'.row.manual = r.row.manual ∧ r'.row.retryCountSnapshot = r.row.retryCountSnapshot := by
  cases h with
  | quiet hsame _ _ _ =>
    obtain ⟨taskId, schedule, hrow⟩ := hsame
    rw [hrow]
    exact ⟨rfl, rfl⟩
  | claimed message retries v _ _ _ hrow => exact ⟨by rw [hrow]; rfl, by rw [hrow]; rfl⟩
  | invoked i n _ hrow => exact ⟨by rw [hrow], by rw [hrow]⟩
  | requeued i w e _ _ _ hrow => exact ⟨by rw [hrow]; rfl, by rw [hrow]; rfl⟩
  | parked i w ref _ _ hrow => exact ⟨by rw [hrow]; rfl, by rw [hrow]; rfl⟩
  | ended hended => exact ⟨hended.manual, hended.retryCountSnapshot⟩
  | applied c _ hrow => exact ⟨by rw [hrow]; rfl, by rw [hrow]; rfl⟩
  | dispatchFailed e _ _ hrow => exact ⟨by rw [hrow]; rfl, by rw [hrow]; rfl⟩

end RunMove

/-! ## The workers of a run -/

theorem RunStatus.ne_queued_of_terminal {s : RunStatus} (h : s.terminal = true) : s ≠ .queued := by
  rintro rfl
  cases h

/-- A run has at most one worker, and none while it is queued or once it was parked. A parked run is never queued again.
-/
structure OneWorker (r : RunSys) : Prop where
  atMostOne : r.workers.length ≤ 1
  queued : r.row.status = .queued → r.workers = []
  parked : r.row.completionState ≠ .blank → r.workers = [] ∧ r.row.status ≠ .queued

theorem oneWorker_created {row : RunRow} (h : row.Born) : OneWorker (RunSys.created row) :=
  ⟨Nat.zero_le _, fun _ => rfl, fun hne => absurd h.completionState hne⟩

/-- Every move keeps it. -/
theorem RunMove.oneWorker {clock : Int} {a : RunAct} {r r' : RunSys} (h : RunMove clock a r r') (hone : OneWorker r) :
    OneWorker r' := by
  cases h with
  | quiet hsame hsub _ _ =>
    obtain ⟨taskId, schedule, hrow⟩ := hsame
    refine ⟨le_trans hsub.length_le hone.atMostOne, ?_, ?_⟩
    · intro hq
      rw [hrow] at hq
      exact Entries.eq_nil_of_sublist hsub (hone.queued hq)
    · intro hne
      rw [hrow] at hne
      obtain ⟨hnil, hstatus⟩ := hone.parked hne
      exact ⟨Entries.eq_nil_of_sublist hsub hnil, by rw [hrow]; exact hstatus⟩
  | claimed message retries v _ _ hq hrow hworkers _ _ =>
    rw [hone.queued hq] at hworkers
    refine ⟨by rw [hworkers]; exact Nat.le_refl 1, ?_, ?_⟩
    · intro hq'
      rw [hrow] at hq'
      cases hq'
    · intro hne
      rw [hrow] at hne
      exact absurd hq (hone.parked hne).2
  | invoked i n hw hrow hworkers _ _ =>
    -- a worker is there, so the run is neither queued nor parked
    have hne : r.workers ≠ [] := fun hnil => by
      rw [hnil] at hw
      cases hw
    refine ⟨by rw [hworkers, List.length_set]; exact hone.atMostOne, ?_, ?_⟩
    · intro hq
      rw [hrow] at hq
      exact absurd (hone.queued hq) hne
    · intro hblank
      rw [hrow] at hblank
      exact absurd (hone.parked hblank).1 hne
  | requeued i w e hw hr _ hrow hworkers _ _ =>
    have hnil := hworkers.trans (Entries.eraseIdx_eq_nil hone.atMostOne hw)
    refine ⟨by rw [hnil]; exact Nat.zero_le 1, fun _ => hnil, ?_⟩
    intro hblank
    rw [hrow] at hblank
    rw [(hone.parked hblank).1] at hw
    cases hw
  | parked i w ref hw hr hrow hworkers _ _ =>
    have hnil := hworkers.trans (Entries.eraseIdx_eq_nil hone.atMostOne hw)
    refine ⟨by rw [hnil]; exact Nat.zero_le 1, fun _ => hnil, fun _ => ⟨hnil, ?_⟩⟩
    intro hq
    rw [hrow] at hq
    cases hr.symm.trans hq
  | ended hended _ hsub _ _ =>
    have hq := RunStatus.ne_queued_of_terminal hended.terminal
    refine ⟨le_trans hsub.length_le hone.atMostOne, fun h => absurd h hq, fun hne => ⟨?_, hq⟩⟩
    rcases hended.completionState with hstate | ⟨hpending, -⟩
    · exact Entries.eq_nil_of_sublist hsub (hone.parked (hstate ▸ hne)).1
    · exact Entries.eq_nil_of_sublist hsub (hone.parked (by rw [hpending]; decide)).1
  | applied c hcode hrow hworkers _ _ =>
    have hq : r'.row.status ≠ .queued := by
      rw [hrow]
      exact RunStatus.ne_queued_of_terminal (RunRow.applied_terminal clock c r.row)
    have hpending := (RunRow.applyCode_eq_applied hcode).2.1
    refine ⟨hworkers ▸ hone.atMostOne, fun h => absurd h hq, fun _ => ⟨?_, hq⟩⟩
    rw [hworkers]
    exact (hone.parked (by rw [hpending]; decide)).1
  | dispatchFailed e _ _ hrow hworkers _ _ =>
    have hq : r'.row.status ≠ .queued := by
      rw [hrow]
      exact fun h => by cases h
    refine ⟨hworkers ▸ hone.atMostOne, fun h => absurd h hq, fun hne => ⟨?_, hq⟩⟩
    rw [hrow] at hne
    rw [hworkers]
    exact (hone.parked hne).1

/-! ## A sample run -/

/-- A run row as a tick creates it, for a run of the action `m1.restart`, with the given number of retries. -/
def sampleRow (retryCount : Nat) : RunRow :=
  runKwargs
    { scheduleType := .daily, id := "s1", name := "Restart", moduleId := "m1", actionId := "m1.restart"
      retryCount := retryCount, updatedAt := 0 } "r1" 0 0

/-- That run in the dispatcher's hands. -/
def sampleRun (retryCount : Nat) : At RunSys := ⟨0, RunSys.created (sampleRow retryCount)⟩

end TecTac
