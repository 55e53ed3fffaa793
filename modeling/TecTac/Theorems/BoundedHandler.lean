import TecTac.Lemmas.Run

/-!
# How often the handler of a run is called

A worker claims a run by its queued status alone, and takes the number of the attempt from the message. A message
delivered again while the run is queued for a retry is then claimed like the retry itself, and the handler is called a
second time for the same number. In every run of the system in which each delivery that finds the run queued carries the
retry the run is queued for (`DeliveredInTurn`), the handler is called at most once for each number and at most
`retry_count + 1` times.
-/

namespace TecTac

open Timeline

/-- A message that finds the run queued is the one the run is queued for: it carries the number of attempts made so far.
-/
def DeliveredInTurn (_ : Int) (a : RunAct) (r : RunSys) : Prop :=
  ∀ message v retries, a = .deliver message v → r.messages[message]? = some retries → r.row.status = .queued →
    retries = r.row.attempt

instance decidableDeliveredInTurn (c : Int) (a : RunAct) (r : RunSys) : Decidable (DeliveredInTurn c a r) :=
  match a with
  | .deliver message _ =>
    match hm : r.messages[message]? with
    | some retries =>
      decidable_of_iff (r.row.status = .queued → retries = r.row.attempt)
        ⟨fun h m v n ha hn hq => by
          cases ha
          obtain rfl := Option.some.inj (hm.symm.trans hn)
          exact h hq, fun h hq => h message _ retries rfl hm hq⟩
    | none => isTrue fun m v n ha hn _ => by
        cases ha
        nomatch hm.symm.trans hn
  | .accept | .recordTaskId _ | .recordState | .dispatchFail _ | .skipOneOff _ _ | .invoke _ | .finishResult _ _
  | .finishPending _ _ _ | .finishRaised _ _ | .lose _ | .recoverQueued _ _ | .recoverList _ | .recoverRunning _ _ | .complete _
  | .settleList | .settle _ _ _ | .forceDelete => isTrue fun _ _ _ ha => nomatch ha

/-- The handler was called once for each retry number, each one below the current attempt, and a worker that has not
called it yet works on a number of its own. -/
structure CalledInTurn (limit : Nat) (r : RunSys) : Prop where
  workers : OneWorker r
  retryCountSnapshot : r.row.retryCountSnapshot = limit
  attempt : r.row.attempt ≤ limit + 1
  queued : r.row.status = .queued → r.row.attempt ≤ limit
  current : ∀ w ∈ r.workers, w.retries + 1 = r.row.attempt
  waiting : ∀ w ∈ r.workers, w.handling = false → w.retries ∉ r.invoked
  below : ∀ n ∈ r.invoked, n < r.row.attempt
  nodup : r.invoked.Nodup

namespace CalledInTurn

theorem created {row : RunRow} (h : row.Born) : CalledInTurn row.retryCountSnapshot (RunSys.created row) where
  workers := oneWorker_created h
  retryCountSnapshot := rfl
  attempt := by
    show row.attempt ≤ _
    rw [h.attempt]
    omega
  queued := fun _ => by
    show row.attempt ≤ _
    rw [h.attempt]
    omega
  current := fun _ hw => by cases hw
  waiting := fun _ hw => by cases hw
  below := fun _ hn => by cases hn
  nodup := List.nodup_nil

/-- A move that leaves the attempt and the calls as they are, adds no worker and does not queue the run, keeps the
invariant. -/
theorem of_sublist {limit : Nat} {r r' : RunSys} (h : CalledInTurn limit r) (hone : OneWorker r')
    (hlimit : r'.row.retryCountSnapshot = r.row.retryCountSnapshot) (hattempt : r'.row.attempt = r.row.attempt)
    (hqueued : r'.row.status = .queued → r.row.status = .queued) (hsub : r'.workers.Sublist r.workers)
    (hinvoked : r'.invoked = r.invoked) : CalledInTurn limit r' where
  workers := hone
  retryCountSnapshot := hlimit.trans h.retryCountSnapshot
  attempt := hattempt ▸ h.attempt
  queued := fun hq => hattempt ▸ h.queued (hqueued hq)
  current := fun w hw => hattempt ▸ h.current w (hsub.subset hw)
  waiting := fun w hw hh => hinvoked ▸ h.waiting w (hsub.subset hw) hh
  below := fun n hn => hattempt ▸ h.below n (hinvoked ▸ hn)
  nodup := hinvoked ▸ h.nodup

/-- A claim in turn starts an attempt no handler call was made for. -/
theorem claimed {limit : Nat} {clock : Int} {r r' : RunSys} (h : CalledInTurn limit r) (hone : OneWorker r')
    (hq : r.row.status = .queued) (hrow : r'.row = r.row.claimed clock r.row.attempt)
    (hworkers : r'.workers = r.workers ++ [{ retries := r.row.attempt }]) (hinvoked : r'.invoked = r.invoked) :
    CalledInTurn limit r' := by
  have hattempt : r'.row.attempt = r.row.attempt + 1 := by rw [hrow]; rfl
  have hle := h.queued hq
  rw [h.workers.queued hq, List.nil_append] at hworkers
  have honly : ∀ w ∈ r'.workers, w.retries = r.row.attempt := by
    intro w hw
    rw [hworkers, List.mem_singleton] at hw
    rw [hw]
  refine ⟨hone, ?_, by omega, ?_, ?_, ?_, ?_, hinvoked ▸ h.nodup⟩
  · rw [hrow]
    exact h.retryCountSnapshot
  · intro hq'
    rw [hrow] at hq'
    cases hq'
  · intro w hw
    rw [honly w hw, hattempt]
  · intro w hw _ hmem
    rw [hinvoked, honly w hw] at hmem
    exact absurd (h.below _ hmem) (Nat.lt_irrefl _)
  · intro n hn
    rw [hinvoked] at hn
    have := h.below n hn
    omega

/-- The handler is called for the worker's own number, once. -/
theorem invoked {limit : Nat} {r r' : RunSys} (h : CalledInTurn limit r) (hone : OneWorker r') {i n : Nat}
    (hw : r.workers[i]? = some { retries := n }) (hrow : r'.row = r.row)
    (hworkers : r'.workers = r.workers.set i { retries := n, handling := true }) (hinvoked : r'.invoked = r.invoked ++ [n]) :
    CalledInTurn limit r' := by
  have hmem : ({ retries := n } : Worker) ∈ r.workers := List.mem_of_getElem? hw
  have hn := h.current _ hmem
  have hnew := h.waiting _ hmem rfl
  -- the worker that calls is the only one there is
  have honly : r'.workers = [{ retries := n, handling := true }] := by
    obtain ⟨hi, hget⟩ := List.getElem?_eq_some_iff.mp hw
    have hlen : r.workers.length = 1 := by
      have := h.workers.atMostOne
      omega
    obtain ⟨w, hw'⟩ := List.length_eq_one_iff.mp hlen
    obtain rfl : i = 0 := by omega
    rw [hworkers, hw']
    rfl
  refine ⟨hone, by rw [hrow]; exact h.retryCountSnapshot, by rw [hrow]; exact h.attempt, ?_, ?_, ?_, ?_, ?_⟩
  · intro hq
    rw [hrow] at hq ⊢
    exact h.queued hq
  · intro w hw'
    rw [honly, List.mem_singleton] at hw'
    rw [hw', hrow]
    exact hn
  · intro w hw' hh
    rw [honly, List.mem_singleton] at hw'
    rw [hw'] at hh
    cases hh
  · intro m hm
    rw [hinvoked, List.mem_append, List.mem_singleton] at hm
    rw [hrow]
    rcases hm with hm | rfl
    · exact h.below m hm
    · show _ < _
      simp only at hn
      omega
  · rw [hinvoked]
    refine List.nodup_append.mpr ⟨h.nodup, by simp, ?_⟩
    intro m hm k hk
    rw [List.mem_singleton] at hk
    rintro rfl
    exact hnew (hk ▸ hm)

/-- Every move whose delivery is in turn keeps the invariant. -/
theorem of_move {limit : Nat} {clock : Int} {a : RunAct} {r r' : RunSys} (hmove : RunMove clock a r r')
    (hturn : DeliveredInTurn clock a r) (h : CalledInTurn limit r) : CalledInTurn limit r' := by
  have hone := hmove.oneWorker h.workers
  have hlimit := hmove.snapshot.2
  cases hmove with
  | quiet hsame hsub hinvoked _ =>
    obtain ⟨taskId, schedule, hrow⟩ := hsame
    exact h.of_sublist hone hlimit (by rw [hrow]) (fun hq => by rwa [hrow] at hq) hsub hinvoked
  | claimed message retries v ha hm hq hrow hworkers hinvoked _ =>
    obtain rfl := hturn message v retries ha hm hq
    exact h.claimed hone hq hrow hworkers hinvoked
  | invoked i n hw hrow hworkers hinvoked _ => exact h.invoked hone hw hrow hworkers hinvoked
  | requeued i w e hw _ hlt hrow hworkers hinvoked _ =>
    have hcurrent := h.current w (List.mem_of_getElem? hw)
    have hattempt : r'.row.attempt = r.row.attempt := by rw [hrow]; rfl
    rw [h.retryCountSnapshot] at hlt
    refine ⟨hone, hlimit.trans h.retryCountSnapshot, by omega, fun _ => by omega, ?_, ?_, ?_, hinvoked ▸ h.nodup⟩
    · intro w' hw'
      rw [hworkers, Entries.eraseIdx_eq_nil h.workers.atMostOne hw] at hw'
      cases hw'
    · intro w' hw'
      rw [hworkers, Entries.eraseIdx_eq_nil h.workers.atMostOne hw] at hw'
      cases hw'
    · intro n hn
      rw [hattempt]
      exact h.below n (hinvoked ▸ hn)
  | parked i w ref hw hr hrow hworkers hinvoked _ =>
    refine h.of_sublist hone hlimit (by rw [hrow]; rfl) ?_ (hworkers ▸ List.eraseIdx_sublist _ _) hinvoked
    intro hq
    rw [hrow] at hq
    exact hq
  | ended hended _ hsub hinvoked _ =>
    exact h.of_sublist hone hlimit hended.attempt
      (fun hq => absurd hq (RunStatus.ne_queued_of_terminal hended.terminal)) hsub hinvoked
  | applied c _ hrow hworkers hinvoked _ =>
    refine h.of_sublist hone hlimit (by rw [hrow]; rfl) ?_ (hworkers ▸ List.Sublist.refl _) hinvoked
    intro hq
    rw [hrow] at hq
    exact absurd hq (RunStatus.ne_queued_of_terminal (RunRow.applied_terminal clock c r.row))
  | dispatchFailed e _ _ hrow hworkers hinvoked _ =>
    refine h.of_sublist hone hlimit (by rw [hrow]; rfl) ?_ (hworkers ▸ List.Sublist.refl _) hinvoked
    intro hq
    rw [hrow] at hq
    cases hq

end CalledInTurn

/-- In every interleaving in which each delivery that finds the run queued is in turn, the handler of a run is called at
most once for each retry number, for no number above `retry_count`, and so at most `retry_count + 1` times. -/
theorem handler_called_in_turn (timeouts : String → Option Nat) (clock : Int) (row : RunRow) (hborn : row.Born)
    (es : List (Event RunAct)) (h : Along (RunSys.step timeouts) DeliveredInTurn ⟨clock, RunSys.created row⟩ es) :
    (exec (RunSys.step timeouts) ⟨clock, RunSys.created row⟩ es).state.invoked.Nodup ∧
    (∀ n ∈ (exec (RunSys.step timeouts) ⟨clock, RunSys.created row⟩ es).state.invoked, n ≤ row.retryCountSnapshot) ∧
    (exec (RunSys.step timeouts) ⟨clock, RunSys.created row⟩ es).state.invoked.length ≤ row.retryCountSnapshot + 1 := by
  have hinv : CalledInTurn row.retryCountSnapshot (exec (RunSys.step timeouts) ⟨clock, RunSys.created row⟩ es).state :=
    exec_invariant (P := fun _ r => CalledInTurn row.retryCountSnapshot r)
      (fun c w a r hc hr => CalledInTurn.of_move (RunSys.step_move timeouts (c + w) a r) hc hr) (CalledInTurn.created hborn) h
  have hle : ∀ n ∈ (exec (RunSys.step timeouts) ⟨clock, RunSys.created row⟩ es).state.invoked,
      n ≤ row.retryCountSnapshot := by
    intro n hn
    have h1 := hinv.below n hn
    have h2 := hinv.attempt
    omega
  exact ⟨hinv.nodup, hle, Entries.length_le_of_nodup_le hinv.nodup hle⟩

/-! ## A message delivered again before the retry -/

/-- The first attempt fails for now. -/
def firstAttemptFails : List (Event RunAct) :=
  [⟨1, .accept⟩, ⟨1, .deliver 0 {}⟩, ⟨1, .invoke 0⟩,
    ⟨1, .finishRaised 0 ⟨.schedulerTransient, "SchedulerTransientError", "busy"⟩⟩]

/-- The retry is delivered, and the handler is called once more. -/
theorem retry_called_in_turn :
    Along (RunSys.step fun _ => none) DeliveredInTurn (sampleRun 1)
      (firstAttemptFails ++ [⟨1, .deliver 1 {}⟩, ⟨1, .invoke 0⟩]) ∧
      (exec (RunSys.step fun _ => none) (sampleRun 1)
        (firstAttemptFails ++ [⟨1, .deliver 1 {}⟩, ⟨1, .invoke 0⟩])).state.invoked.length ≤ 2 := by
  have h : Along (RunSys.step fun _ => none) DeliveredInTurn (sampleRun 1)
      (firstAttemptFails ++ [⟨1, .deliver 1 {}⟩, ⟨1, .invoke 0⟩]) := by decide
  exact ⟨h, (handler_called_in_turn (fun _ => none) 0 (sampleRow 1) (runKwargs_born _ _ _ _) _ h).2.2⟩

/-- The first message is delivered again while the run is queued for its retry: the handler is called twice for the
number 0, and with the retries that are still to come, three times for a run with one retry. -/
theorem redelivery_calls_again :
    ¬∀ es : List (Event RunAct), (exec (RunSys.step fun _ => none) (sampleRun 1) es).state.invoked.Nodup ∧
      (exec (RunSys.step fun _ => none) (sampleRun 1) es).state.invoked.length ≤ (sampleRow 1).retryCountSnapshot + 1 := by
  intro h
  have hnodup := (h (firstAttemptFails ++ [⟨1, .deliver 0 {}⟩, ⟨1, .invoke 0⟩])).1
  revert hnodup
  decide

end TecTac
