import TecTac.Lemmas.Run

/-!
# A run that is over stays as it ended

Every writer of a run row looks at its status under the row lock, but one: when `_queue_run` fails, the dispatcher saves
its own copy of the row as failed, and a worker may have finished the run by then. In every run of the system in which
the dispatcher fails only while the run is not over (`DispatchFailsActive`), a run that is over keeps its status,
result, error type and finish time, and every change of status is one of `nextStatus`.
-/

namespace TecTac

open Timeline

/-- The row keeps what a finished run has to show. -/
structure RunRow.Sealed (row row' : RunRow) : Prop where
  status : row'.status = row.status
  result : row'.result = row.result
  errorType : row'.errorType = row.errorType
  finishedAt : row'.finishedAt = row.finishedAt

theorem RunRow.Sealed.refl (row : RunRow) : row.Sealed row := ⟨rfl, rfl, rfl, rfl⟩

theorem RunRow.Sealed.trans {row row' row'' : RunRow} (h : row.Sealed row') (h' : row'.Sealed row'') : row.Sealed row'' :=
  ⟨h'.status.trans h.status, h'.result.trans h.result, h'.errorType.trans h.errorType, h'.finishedAt.trans h.finishedAt⟩

/-- The statuses a run may go to. -/
def nextStatus : RunStatus → List RunStatus
  | .queued => [.running, .skipped, .failed]
  | .running => [.succeeded, .failed, .skipped, .queued]
  | .succeeded | .failed | .skipped => []

/-- The step leaves the status, or moves it along. -/
def MovesAlong (r r' : RunSys) : Prop := r'.row.status = r.row.status ∨ r'.row.status ∈ nextStatus r.row.status

/-- The dispatcher fails only while the run is not over. -/
def DispatchFailsActive (_ : Int) (a : RunAct) (r : RunSys) : Prop :=
  ∀ e, a = .dispatchFail e → r.dispatch ≠ .idle → r.row.status.terminal = false

namespace TerminalAux

/-- An active run that ends moves along. -/
theorem movesAlong_of_ended {r r' : RunSys} (h : r.row.Ended r'.row) : MovesAlong r r' := by
  have hactive := h.active
  have hterm := h.terminal
  have hqueued := h.queued
  unfold MovesAlong
  cases hs : r.row.status <;> cases hs' : r'.row.status <;>
    simp_all [RunStatus.active, RunStatus.terminal, nextStatus]

/-- A move that is no failure of the dispatcher leaves a run that is over as it ended. -/
theorem sealed_of_move {clock : Int} {a : RunAct} {r r' : RunSys} (h : RunMove clock a r r')
    (hcond : DispatchFailsActive clock a r) (hterm : r.row.status.terminal = true) : r.row.Sealed r'.row := by
  cases h with
  | quiet hsame _ _ _ =>
    obtain ⟨taskId, schedule, hrow⟩ := hsame
    rw [hrow]
    exact ⟨rfl, rfl, rfl, rfl⟩
  | claimed message retries v _ _ hq =>
    rw [hq] at hterm
    cases hterm
  | invoked i n _ hrow =>
    rw [hrow]
    exact RunRow.Sealed.refl r.row
  | requeued i w e _ hr =>
    rw [hr] at hterm
    cases hterm
  | parked i w ref _ hr =>
    rw [hr] at hterm
    cases hterm
  | ended hended =>
    have hactive := hended.active
    simp only [RunStatus.active, hterm, Bool.not_true, Bool.false_eq_true] at hactive
  | applied c hcode _ =>
    rw [(RunRow.applyCode_eq_applied hcode).1] at hterm
    cases hterm
  | dispatchFailed e ha hd _ =>
    rw [hcond e ha hd] at hterm
    cases hterm

/-- Every move, under the condition, moves the status along. -/
theorem movesAlong_of_move {clock : Int} {a : RunAct} {r r' : RunSys} (h : RunMove clock a r r')
    (hcond : DispatchFailsActive clock a r) : MovesAlong r r' := by
  cases h with
  | quiet hsame _ _ _ =>
    obtain ⟨taskId, schedule, hrow⟩ := hsame
    exact Or.inl (by rw [hrow])
  | claimed message retries v _ _ hq hrow =>
    refine Or.inr ?_
    rw [hq, hrow]
    simp [RunRow.claimed, nextStatus]
  | invoked i n _ hrow => exact Or.inl (by rw [hrow])
  | requeued i w e _ hr _ hrow =>
    refine Or.inr ?_
    rw [hr, hrow]
    simp [RunRow.requeued, nextStatus]
  | parked i w ref _ hr hrow => exact Or.inl (by rw [hrow]; rfl)
  | ended hended => exact movesAlong_of_ended hended
  | applied c hcode hrow =>
    refine Or.inr ?_
    rw [(RunRow.applyCode_eq_applied hcode).1, hrow]
    simp only [RunRow.applied, nextStatus]
    split <;> simp
  | dispatchFailed e ha hd hrow =>
    have hactive := hcond e ha hd
    refine Or.inr ?_
    rw [hrow]
    cases hs : r.row.status <;> simp_all [RunRow.queueRunFailed, RunStatus.terminal, nextStatus]

end TerminalAux

/-- In every interleaving in which the dispatcher fails only while the run is not over: from the moment a run is over it
keeps what it ended with, and every step moves the status along. The start is any state of a run. -/
theorem terminal_absorbing (timeouts : String → Option Nat) (start : At RunSys) (es es' : List (Event RunAct))
    (h : Along (RunSys.step timeouts) DispatchFailsActive start (es ++ es')) :
    ((exec (RunSys.step timeouts) start es).state.row.status.terminal = true →
      (exec (RunSys.step timeouts) start es).state.row.Sealed (exec (RunSys.step timeouts) start (es ++ es')).state.row) ∧
    Along (RunSys.step timeouts) (fun c a r => MovesAlong r (RunSys.step timeouts c a r)) start (es ++ es') := by
  refine ⟨?_, h.imp fun c a r hc => TerminalAux.movesAlong_of_move (RunSys.step_move timeouts c a r) hc⟩
  intro hterm
  rw [exec_append]
  have hrest := (along_append.1 h).2
  generalize exec (RunSys.step timeouts) start es = mid at hterm hrest ⊢
  -- the invariant: the row still shows what it showed when the run ended
  refine exec_invariant (P := fun _ r => mid.state.row.Sealed r.row) ?_ (RunRow.Sealed.refl _) hrest
  intro c w a r hc hsealed
  refine hsealed.trans (TerminalAux.sealed_of_move (RunSys.step_move timeouts (c + w) a r) hc ?_)
  rw [hsealed.status]
  exact hterm

/-! ## A dispatcher that fails too late -/

/-- A worker takes the message, and the handler returns. -/
def fastWorker : List (Event RunAct) :=
  [⟨1, .accept⟩, ⟨1, .deliver 0 {}⟩, ⟨1, .invoke 0⟩, ⟨1, .finishResult 0 (.obj [("ok", .bool true)])⟩]

/-- The dispatcher's next save fails, after the worker is done. -/
def lateFailure : List (Event RunAct) :=
  [⟨1, .dispatchFail ⟨.other, "OperationalError", "canceling statement due to lock timeout"⟩⟩]

theorem fastWorker_keeps_result :
    (exec (RunSys.step fun _ => none) (sampleRun 0) fastWorker).state.row.status.terminal = true ∧
      (exec (RunSys.step fun _ => none) (sampleRun 0) fastWorker).state.row.Sealed
        (exec (RunSys.step fun _ => none) (sampleRun 0) (fastWorker ++ [⟨1, .deliver 0 {}⟩])).state.row := by
  have hterm : (exec (RunSys.step fun _ => none) (sampleRun 0) fastWorker).state.row.status.terminal = true := by decide
  refine ⟨hterm, (terminal_absorbing (fun _ => none) (sampleRun 0) fastWorker [⟨1, .deliver 0 {}⟩] ?_).1 hterm⟩
  simp only [fastWorker, List.cons_append, List.nil_append, along_cons, along_nil, and_true]
  refine ⟨?_, ?_, ?_, ?_, ?_⟩ <;> exact fun e he => by cases he

/-- The dispatcher's failure turns the run that succeeded into a failed one. -/
theorem lateFailure_overwrites :
    ¬∀ es es' : List (Event RunAct), (exec (RunSys.step fun _ => none) (sampleRun 0) es).state.row.status.terminal = true →
      (exec (RunSys.step fun _ => none) (sampleRun 0) es).state.row.Sealed
        (exec (RunSys.step fun _ => none) (sampleRun 0) (es ++ es')).state.row := by
  intro h
  have hstatus := (h fastWorker lateFailure (by decide)).status
  revert hstatus
  decide

end TecTac
