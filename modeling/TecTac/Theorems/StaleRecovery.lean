import TecTac.Lemmas.Run

/-!
# Stale recovery and the attempt it judges

The recovery decides on a queued run under its row lock. Of a running run it decides on the list it took before, and
under the lock it looks at the status alone: when the attempt it listed has failed and the next one is running, it fails
the next one. In every run of the system in which the recovery finds the attempt it listed (`FindsListedAttempt`), it
fails only what is stale.
-/

namespace TecTac

open Timeline

/-- The step fails a running run only when its current attempt is stale at that moment, and a queued run only past the
deadline of its current `last_queued_at`. -/
structure RecoversOnlyStale (timeouts : String → Option Nat) (clock : Int) (a : RunAct) (r : RunSys) : Prop where
  running : ∀ candidate revoked, a = .recoverRunning candidate revoked → r.row.status = .running →
    (r.step timeouts clock a).row.status = .failed →
    ∃ startedAt, r.row.startedAt = some startedAt ∧
      RunRow.staleRunning (RunRow.timeoutSeconds timeouts r.row.actionId) startedAt clock = true
  queued : ∀ lag configured, a = .recoverQueued lag configured → r.row.status = .queued →
    (r.step timeouts clock a).row.status = .failed → r.row.staleAfter configured < clock

/-- A recovery that goes on to a running run it listed as stale finds the attempt it listed. -/
def FindsListedAttempt (timeouts : String → Option Nat) (_ : Int) (a : RunAct) (r : RunSys) : Prop :=
  ∀ candidate revoked c, a = .recoverRunning candidate revoked → r.candidates[candidate]? = some c →
    RunRow.staleRunning (RunRow.timeoutSeconds timeouts r.row.actionId) c.startedAt c.now = true → r.row.status = .running →
    r.row.startedAt = some c.startedAt

/-- The recoveries under way took their moment in the past. -/
def CandidatesPast (clock : Int) (r : RunSys) : Prop := ∀ c ∈ r.candidates, c.now ≤ clock

namespace StaleAux

/-- What is stale at a moment is stale later. -/
theorem staleRunning_mono {timeout : Nat} {startedAt now now' : Int} (h : RunRow.staleRunning timeout startedAt now = true)
    (hle : now ≤ now') : RunRow.staleRunning timeout startedAt now' = true := by
  unfold RunRow.staleRunning at h ⊢
  rw [decide_eq_true_eq] at h ⊢
  omega

/-- A candidate after a step was one before it, or the recovery has just listed it. -/
theorem mem_candidates_step {timeouts : String → Option Nat} {clock : Int} {a : RunAct} {r : RunSys} {c : StaleCandidate}
    (h : c ∈ (r.step timeouts clock a).candidates) : c ∈ r.candidates ∨ c.now ≤ clock := by
  cases a with
  | recoverList lag =>
    simp only [RunSys.step, RunSys.act] at h
    split at h
    · split at h
      · rw [List.mem_append, List.mem_singleton] at h
        refine h.imp_right ?_
        intro hc
        rw [hc]
        simp only
        omega
      · exact Or.inl h
    · exact Or.inl h
  | recoverRunning candidate revoked =>
    simp only [RunSys.step, RunSys.act] at h
    split at h
    · split at h
      · exact Or.inl (List.mem_of_mem_eraseIdx h)
      · exact Or.inl (List.mem_of_mem_eraseIdx h)
    · exact Or.inl h
  | settle listed lag read =>
    simp only [RunSys.step, RunSys.act] at h
    split at h
    · split at h
      · exact Or.inl h
      · exact Or.inl h
    · exact Or.inl h
  | _ =>
    simp only [RunSys.step, RunSys.act] at h
    first
      | exact Or.inl h
      | (split at h <;> exact Or.inl h)

theorem candidatesPast_step {timeouts : String → Option Nat} {c : Int} {w : Nat} {a : RunAct} {r : RunSys}
    (h : CandidatesPast c r) : CandidatesPast (c + w) (r.step timeouts (c + w) a) := by
  intro cand hmem
  rcases mem_candidates_step hmem with hold | hnew
  · have := h cand hold
    omega
  · exact hnew

/-- A recovery that fails a running run had listed it, and found it stale in its list. -/
theorem candidate_of_failed {timeouts : String → Option Nat} {clock : Int} {r : RunSys} {candidate : Nat} {revoked : Bool}
    (hrunning : r.row.status = .running)
    (hfailed : (r.step timeouts clock (.recoverRunning candidate revoked)).row.status = .failed) :
    ∃ c, r.candidates[candidate]? = some c ∧
      RunRow.staleRunning (RunRow.timeoutSeconds timeouts r.row.actionId) c.startedAt c.now = true := by
  simp only [RunSys.step, RunSys.act] at hfailed
  split at hfailed
  · rename_i c hc
    split at hfailed
    · rename_i hstale
      exact ⟨c, hc, hstale⟩
    · rw [hrunning] at hfailed
      cases hfailed
  · rw [hrunning] at hfailed
    cases hfailed

/-- A recovery that fails a queued run did so past its deadline. -/
theorem deadline_of_failed {row : RunRow} {now : Int} {configured : Nat} (hqueued : row.status = .queued)
    (hfailed : (row.recoverQueued now configured).status = .failed) : row.staleAfter configured < now := by
  unfold RunRow.recoverQueued at hfailed
  simp only at hfailed
  split at hfailed
  · rename_i h
    exact h.2.2
  · rw [hqueued] at hfailed
    cases hfailed

/-- The step lemma: a recovery that finds the attempt it listed fails only what is stale. -/
theorem recoversOnlyStale_of_finds {timeouts : String → Option Nat} {clock : Int} {a : RunAct} {r : RunSys}
    (hpast : CandidatesPast clock r) (hfinds : FindsListedAttempt timeouts clock a r) :
      RecoversOnlyStale timeouts clock a r := by
  constructor
  · rintro candidate revoked rfl hrunning hfailed
    obtain ⟨c, hc, hstale⟩ := candidate_of_failed hrunning hfailed
    refine ⟨c.startedAt, hfinds candidate revoked c rfl hc hstale hrunning, staleRunning_mono hstale ?_⟩
    exact hpast c (List.mem_of_getElem? hc)
  · rintro lag configured rfl hqueued hfailed
    have := deadline_of_failed hqueued hfailed
    omega

end StaleAux

/-- In every interleaving, from the creation of the run on, in which the recovery finds the attempt it listed, every
recovery fails only what is stale at the moment of its write. -/
theorem recovery_fails_only_stale (timeouts : String → Option Nat) (clock : Int) (row : RunRow) (es : List (Event RunAct))
    (h : Along (RunSys.step timeouts) (FindsListedAttempt timeouts) ⟨clock, RunSys.created row⟩ es) :
    Along (RunSys.step timeouts) (RecoversOnlyStale timeouts) ⟨clock, RunSys.created row⟩ es := by
  refine h.strengthen (P := CandidatesPast) (fun c w a r _ hr => StaleAux.candidatesPast_step hr)
    (fun c w a r hfinds hr => StaleAux.recoversOnlyStale_of_finds (fun cand hmem => ?_) hfinds)
    (fun cand hmem => by cases hmem)
  have := hr cand hmem
  omega

/-! ## A recovery that meets the next attempt -/

/-- The first attempt runs for two hours, longer than the hour its action has, and the recovery lists it. -/
def listedAttempt : List (Event RunAct) :=
  [⟨1, .accept⟩, ⟨1, .recordTaskId "task-1"⟩, ⟨1, .deliver 0 {}⟩, ⟨1, .invoke 0⟩, ⟨7200 * 1000000, .recoverList 0⟩]

/-- It fails for now, and the retry starts at once. -/
def nextAttempt : List (Event RunAct) :=
  [⟨1, .finishRaised 0 ⟨.schedulerTransient, "SchedulerTransientError", "busy"⟩⟩,
    ⟨60 * 1000000, .deliver 1 {}⟩, ⟨1, .invoke 0⟩]

/-- The recovery fails the attempt it listed. -/
theorem listedAttempt_recovered :
    (exec (RunSys.step fun _ => none) (sampleRun 1) (listedAttempt ++ [⟨1, .recoverRunning 0 true⟩])).state.row.status = .failed ∧
      Along (RunSys.step fun _ => none) (RecoversOnlyStale fun _ => none) (sampleRun 1)
        (listedAttempt ++ [⟨1, .recoverRunning 0 true⟩]) := by
  refine ⟨by decide, recovery_fails_only_stale (fun _ => none) 0 (sampleRow 1) _ ?_⟩
  simp only [listedAttempt, List.cons_append, List.nil_append, along_cons, along_nil, and_true]
  refine ⟨?_, ?_, ?_, ?_, ?_, ?_⟩
  · exact fun _ _ _ ha => by cases ha
  · exact fun _ _ _ ha => by cases ha
  · exact fun _ _ _ ha => by cases ha
  · exact fun _ _ _ ha => by cases ha
  · exact fun _ _ _ ha => by cases ha
  · intro candidate revoked c ha hc _ _
    cases ha
    obtain rfl := Option.some.inj hc
    rfl

/-- The recovery fails the next attempt, a moment after it started. -/
theorem nextAttempt_recovered :
    ¬∀ es : List (Event RunAct), Along (RunSys.step fun _ => none) (RecoversOnlyStale fun _ => none) (sampleRun 1) es := by
  intro h
  have hstep := (along_append.1 (h (listedAttempt ++ nextAttempt ++ [⟨1, .recoverRunning 0 true⟩]))).2.1
  obtain ⟨startedAt, hstarted, hstale⟩ := hstep.running 0 true rfl (by decide) (by decide)
  obtain rfl := Option.some.inj hstarted
  revert hstale
  decide

end TecTac
