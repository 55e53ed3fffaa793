import TecTac.ServerJobHooks

/-!
# A finished job is handed over once

The claim of a row is a token: one process has it, or the row waits with it in `retry`, or it is gone. So a job is stored once and tried three times at
most, as long as no row is pruned that a process still works on. The rest needs more. A process without the hook writes `ignored` over whatever the row
says; a claim that was taken again has the age of the first one; and a process that is slower than the limit ends a row that was abandoned meanwhile.
-/

namespace TecTac

namespace ServerJobHooks

open Machine

/-- The process has claimed the job and has not written how it ended. -/
def Task.holds (job : Nat) : Task → Bool
  | .publish j _ | .count j _ _ => j == job
  | .write j _ state _ _ => j == job && state != .ignored
  | _ => false

/-- A step keeps what the rows say: no claim younger than the limit is abandoned by a process that does not hold it, a final row stays as it is, and a row
that waits to retry is not turned into an ignored one. -/
structure Keeps (s : System) (e : Event) : Prop where
  young : ∀ job row row', s.rows job = some row → row.state = .claiming → s.now < s.claimedAt job + claimStale →
    (∀ p, e = .work p → (s.process p).task.holds job = false) → (s.step e).rows job = some row' → row'.state ≠ .abandoned
  final : ∀ job row row', s.rows job = some row → row.state ∈ [State.queued, .skipped, .abandoned] → (s.step e).rows job = some row' →
    row'.state = row.state
  retry : ∀ job row row', s.rows job = some row → row.state = .retry → (s.step e).rows job = some row' → row'.state ≠ .ignored

/-- One event was stored for each row at most, and each row was tried three times at most. -/
structure Bounded (s : System) : Prop where
  once : ∀ job pk, s.stored.count (job, some pk) ≤ 1
  tries : ∀ job row, s.rows job = some row → row.attempts ≤ maxAttempts

/-- No row is pruned while a process works on its job. -/
def PruneOk (s : System) : Event → Prop
  | .work p =>
    (s.process p).task = .prune → ∀ job row, s.rows job = some row → System.old (s.process p).moment row → ∀ q, (s.process q).task.holds job = false
  | _ => True

/-- No row is expired while a process works on its job, and none that was claimed again within the limit. -/
def ExpireOk (s : System) : Event → Prop
  | .work p =>
    (s.process p).task = .expire → ∀ job row, s.rows job = some row → System.stale (s.process p).moment row →
      (∀ q, (s.process q).task.holds job = false) ∧ (1 < row.attempts → s.claimedAt job + claimStale ≤ s.now)
  | _ => True

/-- A process without the hook marks a job as ignored only where the row, if there is one, is claimed or ignored. -/
def IgnoreOk (s : System) : Event → Prop
  | .work p =>
    ∀ job common reason phase row, (s.process p).task = .write job common .ignored reason phase → phase ≠ .create → s.rows job = some row →
      row.state ∈ [State.claiming, .ignored]
  | _ => True

def StepOk (s : System) (e : Event) : Prop := PruneOk s e ∧ ExpireOk s e ∧ IgnoreOk s e

namespace HandedAux

variable {s : System}

/-- The process has not stored an event for the job, and may leave it to a later try. -/
def unsent (job : Nat) : Task → Bool
  | .publish j _ | .count j _ _ => j == job
  | .write j _ state _ _ => j == job && state == .retry
  | _ => false

/-- The process is about to leave the job to a later try. -/
def retrying (job : Nat) : Task → Bool
  | .write j _ state _ _ => j == job && state == .retry
  | _ => false

/-- A process that holds a claim writes its end with the first update. -/
def direct : Task → Bool
  | .write _ _ state _ phase => state != .claiming && (state == .ignored || phase == .update)
  | _ => true

/-- The claim as a token. -/
structure Token (s : System) : Prop where
  row : ∀ p job, (s.process p).task.holds job = true → ∃ row, s.rows job = some row
  alone : ∀ p q job, (s.process p).task.holds job = true → (s.process q).task.holds job = true → p = q
  taken : ∀ p job row, (s.process p).task.holds job = true → s.rows job = some row → row.state ≠ .retry
  direct : ∀ p, direct (s.process p).task = true
  tries : ∀ job row, s.rows job = some row → row.attempts ≤ maxAttempts ∧ (row.state = .retry → row.attempts < maxAttempts)
  again : ∀ p job row, retrying job (s.process p).task = true → s.rows job = some row → row.attempts < maxAttempts
  waiting : ∀ job row, s.rows job = some row → row.state = .retry → (job, some row.pk) ∉ s.stored
  unsent : ∀ p job row, unsent job (s.process p).task = true → s.rows job = some row → (job, some row.pk) ∉ s.stored
  once : ∀ job pk, s.stored.count (job, some pk) ≤ 1
  known : ∀ job row, s.rows job = some row → row.pk < s.nextPk
  issued : ∀ job pk, (job, some pk) ∈ s.stored → pk < s.nextPk

theorem token_empty : Token System.empty := by
  constructor <;> simp [System.empty, Task.holds, HandedAux.direct, HandedAux.unsent, retrying]

/-- What is said of a task follows from what it holds. -/
theorem holds_of_unsent {job : Nat} {task : Task} (h : HandedAux.unsent job task = true) : task.holds job = true := by
  cases task <;> simp_all [HandedAux.unsent, Task.holds]

theorem unsent_of_retrying {job : Nat} {task : Task} (h : retrying job task = true) : HandedAux.unsent job task = true := by
  cases task <;> simp_all [HandedAux.unsent, retrying]

/-- A step of a process that leaves the table and what was stored as they are, and gives the process no more than it had. -/
theorem Token.move (h : Token s) {t : System} {p : Nat} (hrows : t.rows = s.rows) (hpk : t.nextPk = s.nextPk) (hstored : t.stored = s.stored)
    (hother : ∀ q, q ≠ p → t.process q = s.process q) (hholds : ∀ job, (t.process p).task.holds job = true → (s.process p).task.holds job = true)
    (hdirect : HandedAux.direct (t.process p).task = true)
    (hunsent : ∀ job, HandedAux.unsent job (t.process p).task = true → HandedAux.unsent job (s.process p).task = true)
    (hagain : ∀ job row, retrying job (t.process p).task = true → s.rows job = some row → row.attempts < maxAttempts) : Token t := by
  obtain ⟨row, alone, taken, direct, tries, again, waiting, unsent, once, known, issued⟩ := h
  constructor <;> try simp only [hrows, hpk, hstored]
  all_goals grind -ring -linarith

/-- A row is created, or taken that was waiting to retry. -/
theorem Token.claim (h : Token s) {t : System} {p job : Nat} {row' : Row} (hrows : ∀ j, t.rows j = if j = job then some row' else s.rows j)
    (hpk : s.nextPk ≤ t.nextPk) (hstored : t.stored = s.stored) (hother : ∀ q, q ≠ p → t.process q = s.process q)
    (hholds : ∀ j, (t.process p).task.holds j = true → j = job) (hdirect : HandedAux.direct (t.process p).task = true)
    (hagain : ∀ j, retrying j (t.process p).task = false) (hfree : ∀ q, (s.process q).task.holds job = false)
    (hstate : row'.state ≠ .retry) (htries : row'.attempts ≤ maxAttempts) (hkey : row'.pk < t.nextPk) (hsent : (job, some row'.pk) ∉ s.stored) :
    Token t := by
  have hu : ∀ j task, HandedAux.unsent j task = true → task.holds j = true := fun _ _ => holds_of_unsent
  have hr : ∀ j task, retrying j task = true → HandedAux.unsent j task = true := fun _ _ => unsent_of_retrying
  obtain ⟨row, alone, taken, direct, tries, again, waiting, unsent, once, known, issued⟩ := h
  constructor <;> try simp only [hrows, hstored]
  all_goals grind -ring -linarith

/-- The state of a row is written; the process lets go of the claim it may have had. -/
theorem Token.wrote (h : Token s) {t : System} {p job : Nat} {row row' : Row} (hrow : s.rows job = some row)
    (hrows : ∀ j, t.rows j = if j = job then some row' else s.rows j)
    (hnext : t.nextPk = s.nextPk) (hstored : t.stored = s.stored) (hother : ∀ q, q ≠ p → t.process q = s.process q)
    (hholds : ∀ j, (t.process p).task.holds j = false) (hdirect : HandedAux.direct (t.process p).task = true)
    (hpk : row'.pk = row.pk) (htries : row'.attempts = row.attempts) (hstate : row'.state = .retry → retrying job (s.process p).task = true) :
    Token t := by
  have hu : ∀ j task, HandedAux.unsent j task = true → task.holds j = true := fun _ _ => holds_of_unsent
  have hr : ∀ j task, retrying j task = true → HandedAux.unsent j task = true := fun _ _ => unsent_of_retrying
  obtain ⟨hasRow, alone, taken, direct, tries, again, waiting, unsent, once, known, issued⟩ := h
  constructor <;> try simp only [hrows, hnext, hstored]
  all_goals grind -ring -linarith

/-- Rows are marked abandoned. -/
theorem Token.expire (h : Token s) (p : Nat) : Token (s.expire p) := by
  have hrows : ∀ j row', (s.expire p).rows j = some row' → ∃ row, s.rows j = some row ∧ row'.pk = row.pk ∧ row'.attempts = row.attempts ∧
      (row'.state = .retry → row.state = .retry) := by
    intro j row' hrow'
    obtain ⟨row, hrow, rfl⟩ := Option.map_eq_some_iff.mp hrow'
    refine ⟨row, hrow, ?_⟩
    split <;> simp
  have hsome : ∀ j row, s.rows j = some row → ∃ row', (s.expire p).rows j = some row' := fun j row hrow =>
    ⟨_, Option.map_eq_some_iff.mpr ⟨row, hrow, rfl⟩⟩
  have hprocess : ∀ q, (s.expire p).process q = if q = p then { s.process p with task := .prune } else s.process q :=
    fun q => Function.update_apply ..
  have hstored : (s.expire p).stored = s.stored := rfl
  have hnext : (s.expire p).nextPk = s.nextPk := rfl
  generalize s.expire p = t at *
  obtain ⟨row, alone, taken, direct, tries, again, waiting, unsent, once, known, issued⟩ := h
  constructor <;> try simp only [hstored, hnext]
  all_goals grind -ring -linarith [Task.holds, HandedAux.direct, HandedAux.unsent, retrying]

/-- Rows are deleted on which no process works. -/
theorem Token.prune (h : Token s) {p : Nat}
    (hfree : ∀ job row, s.rows job = some row → System.old (s.process p).moment row → ∀ q, (s.process q).task.holds job = false) : Token (s.prune p) := by
  have hrows : ∀ j row, (s.prune p).rows j = some row ↔ s.rows j = some row ∧ System.old (s.process p).moment row = false := by
    intro j row
    simp [System.prune, System.goTo, Option.filter_eq_some_iff]
  have hprocess : ∀ q, (s.prune p).process q = if q = p then { s.process p with task := .idle } else s.process q :=
    fun q => Function.update_apply ..
  have hstored : (s.prune p).stored = s.stored := rfl
  have hnext : (s.prune p).nextPk = s.nextPk := rfl
  generalize s.prune p = t at *
  obtain ⟨row, alone, taken, direct, tries, again, waiting, unsent, once, known, issued⟩ := h
  constructor <;> try simp only [hstored, hnext]
  all_goals grind -ring -linarith [Task.holds, HandedAux.direct, HandedAux.unsent, retrying]

/-- An event is stored. -/
theorem Token.store (h : Token s) {p job : Nat} {common : Common} (htask : (s.process p).task = .publish job common) :
    Token ({ s with stored := (job, (s.rows job).map Row.pk) :: s.stored }.goTo p (.write job common .queued "" .update)) := by
  obtain ⟨row, hrow⟩ := h.row p job (by simp [htask, Task.holds])
  have hsent : (job, some row.pk) ∉ s.stored := h.unsent p job row (by simp [htask, HandedAux.unsent]) hrow
  have hfree : ∀ q, q ≠ p → (s.process q).task.holds job = false := by
    intro q hq
    by_contra hheld
    exact hq (h.alone q p job (by simpa using hheld) (by simp [htask, Task.holds]))
  have hu : ∀ j task, HandedAux.unsent j task = true → task.holds j = true := fun _ _ => holds_of_unsent
  generalize hnext : System.goTo _ _ _ = t
  have hprocess : ∀ q, t.process q = if q = p then { s.process p with task := .write job common .queued "" .update } else s.process q :=
    fun q => by rw [← hnext]; exact Function.update_apply ..
  have hstored : t.stored = (job, some row.pk) :: s.stored := by simp [← hnext, System.goTo, hrow]
  have hrows : t.rows = s.rows := by rw [← hnext]; rfl
  have hpk : t.nextPk = s.nextPk := by rw [← hnext]; rfl
  clear hnext
  obtain ⟨hasRow, alone, taken, direct, tries, again, waiting, unsent, once, known, issued⟩ := h
  constructor <;> try simp only [hstored, hrows, hpk]
  case once =>
    intro j pk
    rw [List.count_cons]
    split
    · rename_i heq
      have hkey : (job, some row.pk) = (j, some pk) := by simpa using heq
      simp [← hkey, List.count_eq_zero_of_not_mem hsent]
    · exact once j pk
  all_goals grind -ring -linarith [Task.holds, HandedAux.direct, HandedAux.unsent, retrying]

theorem process_goTo (s : System) (p q : Nat) (task : Task) :
    (s.goTo p task).process q = if q = p then { s.process p with task := task } else s.process q :=
  Function.update_apply ..

/-- The process holds no claim. -/
def Resting (task : Task) : Prop := (∀ job, task.holds job = false) ∧ HandedAux.direct task = true

theorem Resting.next : Resting .next := ⟨fun _ => rfl, rfl⟩

theorem Resting.write (job : Nat) (common : Common) (reason : String) (phase : Phase) : Resting (.write job common .ignored reason phase) :=
  ⟨fun _ => by simp [Task.holds], rfl⟩

/-- A process goes on to a task that holds no claim. -/
theorem Token.rest (h : Token s) {t : System} {p : Nat} (hrows : t.rows = s.rows) (hpk : t.nextPk = s.nextPk) (hstored : t.stored = s.stored)
    (hother : ∀ q, q ≠ p → t.process q = s.process q) (hrest : Resting (t.process p).task) : Token t := by
  have hunsent : ∀ job, HandedAux.unsent job (t.process p).task ≠ true := fun job hu => by
    have := holds_of_unsent hu
    rw [hrest.1 job] at this
    cases this
  exact h.move hrows hpk hstored hother (fun job hheld => by rw [hrest.1 job] at hheld; cases hheld) hrest.2
    (fun job hu => absurd hu (hunsent job)) fun job _ hagain => absurd (unsent_of_retrying hagain) (hunsent job)

theorem Token.goTo_rest (h : Token s) (p : Nat) {task : Task} (hrest : Resting task) : Token (s.goTo p task) :=
  h.rest (p := p) rfl rfl rfl (fun q hq => by simp [process_goTo, hq]) (by simpa [process_goTo] using hrest)

theorem Token.process_rest (h : Token s) (p : Nat) {process : Process} (hrest : Resting process.task) :
    Token { s with process := Function.update s.process p process } :=
  h.rest (p := p) rfl rfl rfl (fun q hq => by simp [hq]) (by simpa using hrest)

theorem Token.claimed {t : System} {p job : Nat} (common : Common) (purpose : Purpose) {row' : Row} (h : Token s)
    (hrows : ∀ j, t.rows j = if j = job then some row' else s.rows j) (hpk : s.nextPk ≤ t.nextPk) (hstored : t.stored = s.stored)
    (hprocess : t.process = s.process) (hfree : ∀ q, (s.process q).task.holds job = false) (hstate : row'.state ≠ .retry)
    (htries : row'.attempts ≤ maxAttempts) (hkey : row'.pk < t.nextPk) (hsent : (job, some row'.pk) ∉ s.stored) :
    Token (t.claimed p job common purpose) := by
  cases purpose with
  | skip reason =>
    refine h.claim (p := p) hrows hpk hstored (fun q hq => ?_) (fun j hj => ?_) ?_ (fun j => ?_) hfree hstate htries hkey hsent <;>
      simp_all [System.claimed, process_goTo, Task.holds, HandedAux.direct, retrying]
  | store =>
    refine h.claim (p := p) hrows hpk hstored (fun q hq => ?_) (fun j hj => ?_) ?_ (fun j => ?_) hfree hstate htries hkey hsent <;>
      simp_all [System.claimed, process_goTo, Task.holds, HandedAux.direct, retrying]

theorem Token.insert (h : Token s) (p job : Nat) (common : Common) (purpose : Purpose) : Token (s.insert p job common purpose) := by
  unfold System.insert
  split
  · rename_i hnone
    refine h.claimed common purpose (fun j => Function.update_apply ..) (Nat.le_succ _) rfl rfl (fun q => ?_) (by simp) (by simp [maxAttempts])
      (Nat.lt_succ_self _) fun hmem => absurd (h.issued _ _ hmem) (Nat.lt_irrefl _)
    by_contra hheld
    obtain ⟨row, hrow⟩ := h.row q job (by simpa using hheld)
    exact absurd hrow (by simp [hnone])
  · exact h.goTo_rest p .next

theorem Token.take (h : Token s) (p job : Nat) (common : Common) (purpose : Purpose) (pk : Nat) : Token (s.take p job common purpose pk) := by
  unfold System.take
  split
  · exact h.goTo_rest p .next
  · rename_i row hrow
    split
    · rename_i htaken
      have htries := (h.tries job row hrow).2 htaken.2
      refine h.claimed common purpose (fun j => Function.update_apply ..) (Nat.le_refl _) rfl rfl (fun q => ?_) (by simp) htries
        (h.known job row hrow) (h.waiting job row hrow htaken.2)
      by_contra hheld
      exact h.taken q job row (by simpa using hheld) hrow htaken.2
    · exact h.goTo_rest p .next

theorem Token.count (h : Token s) {p job : Nat} {common : Common} {reason : String} (htask : (s.process p).task = .count job common reason) :
    Token (s.count p job common reason) := by
  unfold System.count
  split
  · refine h.move (p := p) rfl rfl rfl (fun q hq => ?_) (fun j hj => ?_) ?_ (fun j hj => ?_) fun j row hj hrow => ?_ <;>
      simp_all [process_goTo, Task.holds, HandedAux.direct, HandedAux.unsent, retrying]
  · rename_i hfew
    refine h.move (p := p) rfl rfl rfl (fun q hq => ?_) (fun j hj => ?_) ?_ (fun j hj => ?_) fun j row hj hrow => ?_ <;>
      simp_all [process_goTo, Task.holds, HandedAux.direct, HandedAux.unsent, retrying]

theorem Token.write (h : Token s) {p job : Nat} {common : Common} {state : State} {reason : String} {phase : Phase}
    (htask : (s.process p).task = .write job common state reason phase) : Token (s.write p job common state reason phase) := by
  have hdirect := h.direct p
  rw [htask] at hdirect
  -- without a row there is no claim
  have hignored : s.rows job = none → state = .ignored := by
    intro hnone
    by_contra hstate
    obtain ⟨row, hrow⟩ := h.row p job (by simp [htask, Task.holds, hstate])
    exact absurd hrow (by simp [hnone])
  have hput : ∀ row, s.rows job = some row → Token ((s.setRow job { row with state := state, reason := reason }).goTo p .next) := by
    intro row hrow
    refine h.wrote (p := p) hrow (fun j => Function.update_apply ..) rfl rfl (fun q hq => ?_) (fun j => ?_) ?_ rfl rfl fun hstate => ?_ <;>
      simp_all [process_goTo, System.setRow, Task.holds, HandedAux.direct, retrying]
  unfold System.write
  split
  · exact hput _ ‹_›
  · rename_i hnone
    rw [hignored hnone]
    exact h.goTo_rest p (.write ..)
  · rename_i hnone
    have hstate := hignored hnone
    refine h.claim (p := p) (fun j => Function.update_apply ..) (Nat.le_succ _) rfl (fun q hq => ?_) (fun j hj => ?_) ?_ (fun j => ?_) (fun q => ?_) ?_
      (Nat.zero_le _) (Nat.lt_succ_self _) fun hmem => absurd (h.issued _ _ hmem) (Nat.lt_irrefl _)
    rotate_right 2
    · by_contra hheld
      obtain ⟨row, hrow⟩ := h.row q job (by simpa using hheld)
      exact absurd hrow (by simp [hnone])
    all_goals simp_all [process_goTo, System.createRow, System.setRow, Task.holds, HandedAux.direct, retrying]
  · have hboth : state ≠ .claiming ∧ state = .ignored := by simpa [HandedAux.direct] using hdirect
    have hstate := hboth.2
    rw [hstate]
    exact h.goTo_rest p (.write ..)
  · exact hput _ ‹_›
  · exact h.goTo_rest p .next

theorem Token.work (h : Token s) {p : Nat} (hok : PruneOk s (.work p)) : Token (s.work p) := by
  unfold System.work
  split
  · refine h.process_rest p ?_
    dsimp only
    split
    · exact .next
    · exact ⟨fun _ => rfl, rfl⟩
  · rename_i job common purpose htask
    unfold System.find
    split
    · exact h.goTo_rest p ⟨fun _ => rfl, rfl⟩
    · refine h.goTo_rest p ?_
      split <;> exact ⟨fun _ => rfl, rfl⟩
  · exact h.insert p ..
  · exact h.take p ..
  · exact h.count ‹_›
  · exact h.write ‹_›
  · exact h.expire p
  · exact h.prune (hok ‹_›)
  all_goals exact h

theorem Token.answer (h : Token s) (p : Nat) (outcome : Outcome) : Token (s.answer p outcome) := by
  unfold System.answer
  split
  · rename_i job common htask
    split
    · exact h.store htask
    all_goals
      refine h.move (p := p) rfl rfl rfl (fun q hq => ?_) (fun j hj => ?_) ?_ (fun j hj => ?_) fun j row hj hrow => ?_ <;>
        simp_all [process_goTo, Task.holds, HandedAux.direct, HandedAux.unsent, retrying]
  · exact h

theorem Token.step (h : Token s) {e : Event} (hok : PruneOk s e) : Token (s.step e) := by
  cases e with
  | wait seconds =>
    obtain ⟨row, alone, taken, direct, tries, again, waiting, unsent, once, known, issued⟩ := h
    exact ⟨row, alone, taken, direct, tries, again, waiting, unsent, once, known, issued⟩
  | tick p recent =>
    simp only [System.step, System.tick]
    split
    · exact h.process_rest p ⟨fun _ => rfl, rfl⟩
    · exact h
  | pass p =>
    simp only [System.step, System.pass]
    split
    · rename_i htask
      exact h.process_rest p (by simpa only [htask] using .next)
    · exact h
  | finish p =>
    simp only [System.step, System.finish]
    split
    · exact h.goTo_rest p ⟨fun _ => rfl, rfl⟩
    · exact h
  | read p reading =>
    simp only [System.step, System.read]
    split
    · refine h.process_rest p ?_
      dsimp only
      split
      · exact .write ..
      · exact .next
      · exact ⟨fun _ => rfl, rfl⟩
    · exact h
  | work p => exact h.work hok
  | answer p outcome => exact h.answer p outcome
  | drop p =>
    simp only [System.step, System.drop]
    split <;> exact h.goTo_rest p ⟨fun _ => rfl, rfl⟩
  | die p => exact h.goTo_rest p ⟨fun _ => rfl, rfl⟩

theorem Token.bounded (h : Token s) : Bounded s := ⟨h.once, fun job row hrow => (h.tries job row hrow).1⟩

/-! ## The rows that are claimed -/

/-- A claimed row stays so until the process that holds it writes its end, and the age of a first claim is the age of its row. -/
structure Kept (s : System) : Prop where
  held : ∀ p job row, (s.process p).task.holds job = true → s.rows job = some row → row.state ∈ [State.claiming, .ignored] ∧ 1 ≤ row.attempts
  retry : ∀ job row, s.rows job = some row → row.state = .retry → 1 ≤ row.attempts
  fresh : ∀ job row, s.rows job = some row → row.state = .claiming → row.attempts ≤ 1 → s.claimedAt job = row.updatedAt
  moment : ∀ p, (s.process p).moment ≤ s.now

theorem kept_empty : Kept System.empty := by
  constructor <;> simp [System.empty]

theorem Kept.move (h : Kept s) {t : System} {p : Nat} (hrows : t.rows = s.rows) (hclaimed : t.claimedAt = s.claimedAt) (hnow : s.now ≤ t.now)
    (hother : ∀ q, q ≠ p → t.process q = s.process q) (hmoment : (t.process p).moment ≤ t.now)
    (hholds : ∀ job, (t.process p).task.holds job = true → (s.process p).task.holds job = true) : Kept t := by
  obtain ⟨held, retry, fresh, moment⟩ := h
  constructor <;> try simp only [hrows, hclaimed]
  all_goals grind -ring -linarith

theorem Kept.claim (h : Kept s) {t : System} {p job : Nat} {row' : Row} (hrows : ∀ j, t.rows j = if j = job then some row' else s.rows j)
    (hclaimed : ∀ j, t.claimedAt j = if j = job then s.now else s.claimedAt j) (hnow : t.now = s.now) (hother : ∀ q, q ≠ p → t.process q = s.process q)
    (hmoment : (t.process p).moment = (s.process p).moment) (hholds : ∀ j, (t.process p).task.holds j = true → j = job)
    (hstate : row'.state = .claiming) (htries : 1 ≤ row'.attempts)
    (hfresh : row'.attempts ≤ 1 → row'.updatedAt = s.now) : Kept t := by
  obtain ⟨held, retry, fresh, moment⟩ := h
  constructor <;> try simp only [hrows, hclaimed, hnow]
  all_goals grind -ring -linarith

/-- A row is written that no other process holds, or as ignored. -/
theorem Kept.wrote (h : Kept s) {t : System} {p job : Nat} {row' : Row} (hrows : ∀ j, t.rows j = if j = job then some row' else s.rows j)
    (hclaimed : t.claimedAt = s.claimedAt) (hnow : t.now = s.now) (hother : ∀ q, q ≠ p → t.process q = s.process q)
    (hmoment : (t.process p).moment = (s.process p).moment) (hholds : ∀ j, (t.process p).task.holds j = false) (hstate : row'.state ≠ .claiming)
    (hretry : row'.state = .retry → 1 ≤ row'.attempts)
    (hheld : ∀ q, q ≠ p → (s.process q).task.holds job = true → row'.state = .ignored ∧ 1 ≤ row'.attempts) : Kept t := by
  obtain ⟨held, retry, fresh, moment⟩ := h
  constructor <;> try simp only [hrows, hclaimed, hnow]
  all_goals grind -ring -linarith

theorem Kept.expire (h : Kept s) {p : Nat}
    (hok : ∀ job row, s.rows job = some row → System.stale (s.process p).moment row → ∀ q, (s.process q).task.holds job = false) : Kept (s.expire p) := by
  have hrows : ∀ j row', (s.expire p).rows j = some row' → ∃ row, s.rows j = some row ∧ (row' = row ∨
      System.stale (s.process p).moment row = true ∧ row'.state = .abandoned) := by
    intro j row' hrow'
    obtain ⟨row, hrow, rfl⟩ := Option.map_eq_some_iff.mp hrow'
    refine ⟨row, hrow, ?_⟩
    split
    · exact .inr ⟨‹_›, rfl⟩
    · exact .inl rfl
  have hprocess : ∀ q, (s.expire p).process q = if q = p then { s.process p with task := .prune } else s.process q :=
    fun q => Function.update_apply ..
  have hclaimed : (s.expire p).claimedAt = s.claimedAt := rfl
  have hnow : (s.expire p).now = s.now := rfl
  generalize s.expire p = t at *
  obtain ⟨held, retry, fresh, moment⟩ := h
  constructor <;> try simp only [hclaimed, hnow]
  all_goals grind -ring -linarith [Task.holds]

theorem Kept.prune (h : Kept s) (p : Nat) : Kept (s.prune p) := by
  have hrows : ∀ j row, (s.prune p).rows j = some row → s.rows j = some row := fun j row hrow => (Option.filter_eq_some_iff.mp hrow).1
  have hprocess : ∀ q, (s.prune p).process q = if q = p then { s.process p with task := .idle } else s.process q :=
    fun q => Function.update_apply ..
  have hclaimed : (s.prune p).claimedAt = s.claimedAt := rfl
  have hnow : (s.prune p).now = s.now := rfl
  generalize s.prune p = t at *
  obtain ⟨held, retry, fresh, moment⟩ := h
  constructor <;> try simp only [hclaimed, hnow]
  all_goals grind -ring -linarith [Task.holds]

/-- A process goes on to a task that holds no more than it did. -/
theorem Kept.goTo (h : Kept s) {p : Nat} {task : Task} (hholds : ∀ job, task.holds job = true → (s.process p).task.holds job = true) :
    Kept (s.goTo p task) :=
  h.move (p := p) rfl rfl (Nat.le_refl _) (fun q hq => by simp [process_goTo, hq]) (by simpa [System.goTo] using h.moment p)
    (by simpa [process_goTo] using hholds)

theorem Kept.goTo_rest (h : Kept s) (p : Nat) {task : Task} (hrest : ∀ job, task.holds job = false) : Kept (s.goTo p task) :=
  h.goTo fun job hheld => by rw [hrest job] at hheld; cases hheld

theorem Kept.process_rest (h : Kept s) (p : Nat) {process : Process} (hmoment : process.moment ≤ s.now) (hrest : ∀ job, process.task.holds job = false) :
    Kept { s with process := Function.update s.process p process } :=
  h.move (p := p) rfl rfl (Nat.le_refl _) (fun q hq => by simp [hq]) (by simpa using hmoment) (by simp [hrest])

theorem Kept.claimed {t : System} {p job : Nat} (common : Common) (purpose : Purpose) {row' : Row} (h : Kept s)
    (hrows : ∀ j, t.rows j = if j = job then some row' else s.rows j) (hclaimed : t.claimedAt = s.claimedAt) (hnow : t.now = s.now)
    (hprocess : t.process = s.process) (hstate : row'.state = .claiming) (htries : 1 ≤ row'.attempts)
    (hfresh : row'.attempts ≤ 1 → row'.updatedAt = s.now) : Kept (t.claimed p job common purpose) := by
  cases purpose with
  | skip reason =>
    refine h.claim (p := p) hrows (fun j => ?_) hnow (fun q hq => ?_) ?_ (fun j hj => ?_) hstate htries hfresh <;>
      simp_all [System.claimed, System.goTo, Function.update_apply, Task.holds]
  | store =>
    refine h.claim (p := p) hrows (fun j => ?_) hnow (fun q hq => ?_) ?_ (fun j hj => ?_) hstate htries hfresh <;>
      simp_all [System.claimed, System.goTo, Function.update_apply, Task.holds]

theorem Kept.insert (h : Kept s) (p job : Nat) (common : Common) (purpose : Purpose) : Kept (s.insert p job common purpose) := by
  unfold System.insert
  split
  · exact h.claimed common purpose (fun j => Function.update_apply ..) rfl rfl rfl rfl (Nat.le_refl _) fun _ => rfl
  · exact h.goTo_rest p fun _ => rfl

theorem Kept.take (h : Kept s) (p job : Nat) (common : Common) (purpose : Purpose) (pk : Nat) : Kept (s.take p job common purpose pk) := by
  unfold System.take
  split
  · exact h.goTo_rest p fun _ => rfl
  · rename_i row hrow
    split
    · rename_i htaken
      have htries := h.retry job row hrow htaken.2
      exact h.claimed common purpose (fun j => Function.update_apply ..) rfl rfl rfl rfl (Nat.le_add_left ..) fun hone => absurd hone (by simp; omega)
    · exact h.goTo_rest p fun _ => rfl

theorem Kept.count (h : Kept s) {p job : Nat} {common : Common} {reason : String} (htask : (s.process p).task = .count job common reason) :
    Kept (s.count p job common reason) := by
  unfold System.count
  split <;> exact h.goTo fun j hj => by simp_all [Task.holds]

theorem Kept.write (h : Kept s) (htoken : Token s) {p job : Nat} {common : Common} {state : State} {reason : String} {phase : Phase}
    (htask : (s.process p).task = .write job common state reason phase) : Kept (s.write p job common state reason phase) := by
  have hclaiming : state ≠ .claiming := by
    have hdirect := htoken.direct p
    rw [htask] at hdirect
    simpa using (Bool.and_eq_true_iff.mp hdirect).1
  have hput : ∀ row, s.rows job = some row → Kept ((s.setRow job { row with state := state, reason := reason }).goTo p .next) := by
    intro row hrow
    refine h.wrote (p := p) (fun j => Function.update_apply ..) rfl rfl (fun q hq => ?_) ?_ (fun j => ?_) hclaiming (fun hretry => ?_) fun q hq hheld => ?_
    · simp [process_goTo, System.setRow, hq]
    · simp [process_goTo, System.setRow]
    · simp [process_goTo, Task.holds]
    · exact (h.held p job row (by simp_all [Task.holds]) hrow).2
    · -- another process holds the row, so this one only marks it as ignored
      refine ⟨?_, (h.held q job row hheld hrow).2⟩
      by_contra hstate
      exact hq (htoken.alone q p job hheld (by simpa [htask, Task.holds] using hstate))
  unfold System.write
  split
  · exact hput _ ‹_›
  · exact h.goTo fun j hj => by simpa [htask, Task.holds] using hj
  · rename_i hnone
    refine h.wrote (p := p) (fun j => Function.update_apply ..) rfl rfl (fun q hq => ?_) ?_ (fun j => ?_) hclaiming (fun hretry => ?_) fun q hq hheld => ?_
    · simp [process_goTo, System.createRow, System.setRow, hq]
    · simp [process_goTo, System.createRow, System.setRow]
    · simp [process_goTo, Task.holds]
    · obtain ⟨row, hrow⟩ := htoken.row p job (by simp_all [Task.holds])
      exact absurd hrow (by simp [hnone])
    · obtain ⟨row, hrow⟩ := htoken.row q job hheld
      exact absurd hrow (by simp [hnone])
  · exact h.goTo fun j hj => by simpa [htask, Task.holds] using hj
  · exact hput _ ‹_›
  · exact h.goTo_rest p fun _ => rfl

theorem Kept.work (h : Kept s) (htoken : Token s) {p : Nat} (hok : ExpireOk s (.work p)) : Kept (s.work p) := by
  unfold System.work
  split
  · refine h.process_rest p (h.moment p) fun job => ?_
    dsimp only
    split <;> rfl
  · unfold System.find
    split
    · exact h.goTo_rest p fun _ => rfl
    · refine h.goTo_rest p fun job => ?_
      split <;> rfl
  · exact h.insert p ..
  · exact h.take p ..
  · exact h.count ‹_›
  · exact h.write htoken ‹_›
  · exact h.expire fun job row hrow hstale => (hok ‹_› job row hrow hstale).1
  · exact h.prune p
  all_goals exact h

theorem Kept.step (h : Kept s) (htoken : Token s) {e : Event} (hok : ExpireOk s e) : Kept (s.step e) := by
  cases e with
  | wait seconds => exact h.move (p := 0) rfl rfl (Nat.le_add_right ..) (fun _ _ => rfl) (Nat.le_trans (h.moment 0) (Nat.le_add_right ..)) fun _ => id
  | tick p recent =>
    simp only [System.step, System.tick]
    split
    · exact h.process_rest p (Nat.le_refl _) fun _ => rfl
    · exact h
  | pass p =>
    simp only [System.step, System.pass]
    split
    · rename_i htask
      exact h.process_rest p (h.moment p) fun job => by simp [htask, Task.holds]
    · exact h
  | finish p =>
    simp only [System.step, System.finish]
    split
    · exact h.goTo_rest p fun _ => rfl
    · exact h
  | read p reading =>
    simp only [System.step, System.read]
    split
    · refine h.process_rest p (h.moment p) fun job => ?_
      dsimp only
      split
      · exact (Resting.write ..).1 job
      · rfl
      · rfl
    · exact h
  | work p => exact h.work htoken hok
  | answer p outcome =>
    simp only [System.step, System.answer]
    split
    · rename_i job common htask
      have hstored : Kept { s with stored := (job, (s.rows job).map Row.pk) :: s.stored } := ⟨h.held, h.retry, h.fresh, h.moment⟩
      split
      · exact hstored.goTo fun j hj => by simp_all [Task.holds]
      all_goals exact h.goTo fun j hj => by simp_all [Task.holds]
    · exact h
  | drop p =>
    simp only [System.step, System.drop]
    split <;> exact h.goTo_rest p fun _ => rfl
  | die p => exact h.goTo_rest p fun _ => rfl

/-! ## What a step does to a row -/

/-- A row that is still there after a query is as before, or was claimed again, written by `_set_state`, or expired. -/
theorem work_row {p job : Nat} {row row' : Row} (hrow : s.rows job = some row) (hrow' : (s.work p).rows job = some row') :
    row' = row ∨ (row.state = .retry ∧ row'.state = .claiming) ∨
      (∃ common state reason phase, (s.process p).task = .write job common state reason phase ∧ phase ≠ .create ∧ row'.state = state) ∨
      ((s.process p).task = .expire ∧ System.stale (s.process p).moment row = true) := by
  unfold System.work at hrow'
  split at hrow'
  · exact .inl (Option.some.inj (hrow'.symm.trans hrow))
  · unfold System.find at hrow'
    split at hrow' <;> exact .inl (Option.some.inj (hrow'.symm.trans hrow))
  · rename_i j common purpose htask
    unfold System.insert at hrow'
    split at hrow'
    · rename_i hnone
      have hne : job ≠ j := fun heq => by simp [heq ▸ hrow] at hnone
      cases purpose <;> simp_all [System.claimed, System.goTo, System.createRow, System.setRow]
    · exact .inl (Option.some.inj (hrow'.symm.trans hrow))
  · rename_i j common purpose pk htask
    unfold System.take at hrow'
    split at hrow'
    · exact .inl (Option.some.inj (hrow'.symm.trans hrow))
    · rename_i found hfound
      split at hrow'
      · by_cases hj : job = j
        · subst hj
          obtain rfl : row = found := Option.some.inj (hrow.symm.trans hfound)
          refine .inr (.inl ⟨(‹_ ∧ _› : _ ∧ _).2, ?_⟩)
          cases purpose <;> simp_all [System.claimed, System.goTo, System.setRow] <;> simp [← hrow']
        · cases purpose <;> simp_all [System.claimed, System.goTo, System.setRow]
      · exact .inl (Option.some.inj (hrow'.symm.trans hrow))
  · unfold System.count at hrow'
    split at hrow' <;> exact .inl (Option.some.inj (hrow'.symm.trans hrow))
  · rename_i j common state reason phase htask
    by_cases hj : job = j
    · subst hj
      cases phase with
      | update =>
        simp only [System.write, hrow, System.goTo, System.setRow, Function.update_self, Option.some.injEq] at hrow'
        exact .inr (.inr (.inl ⟨common, state, reason, .update, htask, by decide, by rw [← hrow']⟩))
      | create =>
        simp only [System.write, hrow, System.goTo, Option.some.injEq] at hrow'
        exact .inl hrow'.symm
      | again =>
        simp only [System.write, hrow, System.goTo, System.setRow, Function.update_self, Option.some.injEq] at hrow'
        exact .inr (.inr (.inl ⟨common, state, reason, .again, htask, by decide, by rw [← hrow']⟩))
    · refine .inl ?_
      unfold System.write at hrow'
      split at hrow' <;> simp_all [System.goTo, System.setRow, System.createRow]
  · rename_i htask
    simp only [System.expire, System.goTo, hrow, Option.map_some, Option.some.injEq] at hrow'
    split at hrow'
    · exact .inr (.inr (.inr ⟨htask, ‹_›⟩))
    · exact .inl hrow'.symm
  · exact .inl (Option.some.inj ((Option.filter_eq_some_iff.mp hrow').1.symm.trans hrow))
  all_goals exact .inl (Option.some.inj (hrow'.symm.trans hrow))

/-- Only a query writes a row. -/
theorem rows_step (s : System) {e : Event} (he : ∀ p, e ≠ .work p) : (s.step e).rows = s.rows := by
  cases e with
  | work p => exact absurd rfl (he p)
  | wait seconds => rfl
  | tick p recent => simp only [System.step, System.tick]; split <;> rfl
  | pass p => simp only [System.step, System.pass]; split <;> rfl
  | finish p => simp only [System.step, System.finish]; split <;> rfl
  | read p reading => simp only [System.step, System.read]; split <;> rfl
  | answer p outcome =>
    simp only [System.step, System.answer]
    split
    · split <;> rfl
    · rfl
  | drop p => simp only [System.step, System.drop]; split <;> rfl
  | die p => rfl

theorem keeps_of_same {e : Event} (he : (s.step e).rows = s.rows) : Keeps s e where
  young job row row' hrow hstate _ _ hrow' := by
    rw [he, hrow] at hrow'
    simp [← Option.some.inj hrow', hstate]
  final job row row' hrow _ hrow' := by
    rw [he, hrow] at hrow'
    simp [← Option.some.inj hrow']
  retry job row row' hrow hstate hrow' := by
    rw [he, hrow] at hrow'
    simp [← Option.some.inj hrow', hstate]

theorem keeps_work (h : Kept s) {p : Nat} (hok : StepOk s (.work p)) : Keeps s (.work p) := by
  obtain ⟨-, hexpire, hignore⟩ := hok
  -- a process writes the row that it holds, or marks a row as ignored
  have hwrite : ∀ job row common state reason phase, s.rows job = some row → (s.process p).task = .write job common state reason phase → phase ≠ .create →
      row.state ∈ [State.claiming, .ignored] := by
    intro job row common state reason phase hrow htask hphase
    by_cases hstate : state = .ignored
    · subst hstate
      exact hignore job common reason phase row htask hphase hrow
    · exact (h.held p job row (by simp [htask, Task.holds, hstate]) hrow).1
  refine ⟨fun job row row' hrow hclaiming hyoung hfree hrow' => ?_, fun job row row' hrow hfinal hrow' => ?_, fun job row row' hrow hretry hrow' => ?_⟩
  · rcases work_row hrow hrow' with rfl | ⟨-, hstate⟩ | ⟨common, state, reason, phase, htask, -, hstate⟩ | ⟨htask, hstale⟩
    · simp [hclaiming]
    · simp [hstate]
    · have hfree := hfree p rfl
      simp only [htask, Task.holds, beq_self_eq_true, Bool.true_and, bne_eq_false_iff_eq] at hfree
      simp [hstate, hfree]
    · -- a first claim is as old as its row
      have hmoment := h.moment p
      have hage : row.updatedAt + claimStale < (s.process p).moment := by simpa [System.stale, hclaiming] using hstale
      by_cases hfirst : row.attempts ≤ 1
      · have := h.fresh job row hrow hclaiming hfirst
        omega
      · have := (hexpire htask job row hrow hstale).2 (by omega)
        omega
  · rcases work_row hrow hrow' with rfl | ⟨hretry, -⟩ | ⟨common, state, reason, phase, htask, hphase, -⟩ | ⟨-, hstale⟩
    · rfl
    · simp [hretry] at hfinal
    · have := hwrite job row common state reason phase hrow htask hphase
      cases hstate : row.state <;> simp [hstate] at this hfinal
    · have hclaiming : row.state = .claiming := by simpa using (Bool.and_eq_true_iff.mp hstale).1
      simp [hclaiming] at hfinal
  · rcases work_row hrow hrow' with rfl | ⟨-, hstate⟩ | ⟨common, state, reason, phase, htask, hphase, -⟩ | ⟨-, hstale⟩
    · simp [hretry]
    · simp [hstate]
    · have := hwrite job row common state reason phase hrow htask hphase
      simp [hretry] at this
    · have hclaiming : row.state = .claiming := by simpa using (Bool.and_eq_true_iff.mp hstale).1
      simp [hretry] at hclaiming

theorem keeps_step (h : Kept s) {e : Event} (hok : StepOk s e) : Keeps s e := by
  by_cases he : ∀ p, e ≠ .work p
  · exact keeps_of_same (rows_step s he)
  · obtain ⟨p, rfl⟩ := Classical.not_forall_not.mp he
    exact keeps_work h hok

theorem along_keeps {events : List Event} (htoken : Token s) (h : Kept s) (hok : Along System.step StepOk s events) : Along System.step Keeps s events := by
  induction events generalizing s with
  | nil => trivial
  | cons e events ih => exact ⟨keeps_step h hok.1, ih (htoken.step hok.1.1) (h.step htoken hok.1.2.1) hok.2⟩

end HandedAux

open HandedAux

/-- In every run in which no row is pruned that a process still works on, a job is stored once for each row and tried three times at most. In every run in
which, moreover, no row is expired that a process still works on or that was claimed again within fifteen minutes, and a process without the hook marks
no row that is waiting or final: no step abandons the young claim of another process, changes a final row or ignores a row that waits to retry. -/
theorem handed_over_once (events : List Event) :
    (Along System.step PruneOk System.empty events → Bounded (events.foldl System.step System.empty)) ∧
      (Along System.step StepOk System.empty events → Along System.step Keeps System.empty events) :=
  ⟨fun h => (keeps (fun _ _ hs he => hs.step he) token_empty h).bounded, fun h => along_keeps token_empty kept_empty h⟩

/-! ## Runs of two processes -/

namespace HandedAux

def after (events : List Event) : System := events.foldl System.step System.empty

def stateAfter (events : List Event) (job : Nat) : Option State := ((after events).rows job).map Row.state

/-- A finished job of the module `waf`, whose hook the process has registered or not. -/
def finished (registered : Bool) : Reading := ⟨"waf.renew", some "waf", "succeeded", registered, .runnable, some false⟩

/-- A tick of a process that has the hook, up to its claim of job 7. -/
def claims (p : Nat) : List Event := [.tick p [7], .work p, .read p (finished true), .work p, .work p]

/-- The event is not stored, and the row waits to retry. -/
def fails (p : Nat) : List Event := [.answer p (.other "backlog"), .work p, .work p]

/-- The end of a tick. -/
def ends (p : Nat) : List Event := [.finish p, .work p, .work p]

/-- The first try fails, the second one stores the event, and a third process finds the job claimed. -/
def secondTry : List Event := claims 0 ++ fails 0 ++ claims 1 ++ claims 2 ++ [Event.answer 1 .queued, .work 1]

/-- A process without the hook finds the row that waits to retry. -/
def withoutHook : List Event := claims 0 ++ fails 0 ++ [Event.tick 1 [7], .work 1, .read 1 (finished false)]

/-- The row is claimed again after twenty minutes, and another tick ends at once. -/
def claimedAgain : List Event := claims 0 ++ fails 0 ++ ends 0 ++ [Event.wait 1200] ++ claims 0 ++ [Event.tick 1 [], .work 1, .finish 1]

/-- The process that claimed the row is slower than the limit: another tick abandons it, and then the event is stored. -/
def slow : List Event := claims 0 ++ [Event.wait 1000, .tick 1 [], .work 1, .finish 1, .work 1, .answer 0 .queued]

/-- A step that neither expires nor prunes rows nor marks one as ignored. -/
def quiet (s : System) : Event → Bool
  | .work p =>
    match (s.process p).task with
    | .expire | .prune => false
    | .write _ _ state _ _ => state != .ignored
    | _ => true
  | _ => true

theorem stepOk_of_quiet {e : Event} (h : quiet s e = true) : StepOk s e := by
  cases e with
  | work p =>
    refine ⟨fun htask => ?_, fun htask => ?_, fun job common reason phase row htask => ?_⟩ <;> simp [quiet, htask] at h
  | _ => exact ⟨trivial, trivial, trivial⟩

theorem along_of_quiet {events : List Event} (h : Along System.step (fun s e => quiet s e = true) s events) : Along System.step StepOk s events := by
  induction events generalizing s with
  | nil => trivial
  | cons e events ih => exact ⟨stepOk_of_quiet h.1, ih h.2⟩

end HandedAux

theorem second_try_is_the_only_event :
    Bounded (after secondTry) ∧ (after secondTry).stored = [(7, some 0)] ∧ Along System.step Keeps System.empty secondTry := by
  have hok : Along System.step StepOk System.empty secondTry := along_of_quiet (by decide +kernel)
  have h := handed_over_once secondTry
  exact ⟨h.1 (along_and.1 hok).1, by decide +kernel, h.2 hok⟩

/-- A process without the hook ignores a row that waits to retry; a claim that was just taken again is abandoned; an abandoned row becomes a queued one. -/
theorem rows_are_overwritten :
    ¬ Along System.step Keeps System.empty (withoutHook ++ [.work 1]) ∧ ¬ Along System.step Keeps System.empty (claimedAgain ++ [.work 1]) ∧
      ¬ Along System.step Keeps System.empty (slow ++ [.work 0]) := by
  refine ⟨fun h => ?_, fun h => ?_, fun h => ?_⟩
  · obtain ⟨row, hrow, hstate⟩ := Option.map_eq_some_iff.mp (show stateAfter withoutHook 7 = some .retry by decide +kernel)
    obtain ⟨row', hrow', hstate'⟩ := Option.map_eq_some_iff.mp (show stateAfter (withoutHook ++ [.work 1]) 7 = some .ignored by decide +kernel)
    exact (along_append.1 h).2.1.retry 7 row row' hrow hstate hrow' hstate'
  · obtain ⟨row, hrow, hstate⟩ := Option.map_eq_some_iff.mp (show stateAfter claimedAgain 7 = some .claiming by decide +kernel)
    obtain ⟨row', hrow', hstate'⟩ := Option.map_eq_some_iff.mp (show stateAfter (claimedAgain ++ [.work 1]) 7 = some .abandoned by decide +kernel)
    refine (along_append.1 h).2.1.young 7 row row' hrow hstate (by decide +kernel) (fun p hp => ?_) hrow' hstate'
    cases hp
    decide +kernel
  · obtain ⟨row, hrow, hstate⟩ := Option.map_eq_some_iff.mp (show stateAfter slow 7 = some .abandoned by decide +kernel)
    obtain ⟨row', hrow', hstate'⟩ := Option.map_eq_some_iff.mp (show stateAfter (slow ++ [.work 0]) 7 = some .queued by decide +kernel)
    have hsame := (along_append.1 h).2.1.final 7 row row' hrow (by simp [hstate]) hrow'
    rw [hstate, hstate'] at hsame
    cases hsame

end ServerJobHooks

end TecTac
