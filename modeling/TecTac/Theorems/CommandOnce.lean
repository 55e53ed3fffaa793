import TecTac.SystemCommands
import TecTac.Lib.Machine

/-!
# A command is sent at most once

Tactical's send view is invoked at most once for each pair, and a pair for which no row was written is free again when its calls have ended, in every
run whose steps meet three conditions. A call claims a pair only when no other call is between its claim and its row, which fails when the
cache loses a claim that is in use. The rows that a call consults know the row of its pair, which fails when the process read them for the run
before the row was written. And a write of a row that fails is forgotten, which fails always when the process remembers the run: the pair is
remembered before its row is written, and stays so.
-/

namespace TecTac

namespace SystemCommands

/-- The pair is claimed and its row is not written. -/
def Stage.Holds : Stage → Prop
  | .lookup | .reading _ | .recording => True
  | _ => False

def Call.holds (call : Call) : Prop := call.stage.Holds

/-- A call holds the pair. -/
def Held (s : State) (pair : Pair) : Prop := ∃ i call, s.calls i = some call ∧ call.holds ∧ call.pair = pair

/-- A later call finds the pair neither claimed nor recorded nor remembered. -/
structure Usable (s : State) (pair : Pair) : Prop where
  unclaimed : pair ∉ s.cache
  unrecorded : pair ∉ s.rows
  forgotten : ∀ process, ∀ entry ∈ s.memory process, pair ∉ entry.2

/-- Each pair was sent at most once, and a pair whose call ended without a row is usable, unless another call holds it. -/
structure Promise (s : State) : Prop where
  once : ∀ pair, s.sends.count pair ≤ 1
  usable : ∀ i call ending, s.calls i = some call → call.stage = .ended ending → call.pair ∉ s.rows → ¬ Held s call.pair → Usable s call.pair

/-- The rows that are consulted know the row of the pair. -/
def Knows (s : State) (call : Call) (recorded : List Pair) : Prop := call.pair ∈ s.rows → call.pair ∈ recorded

/-- The conditions on a step of a call. -/
def CallSafe (s : State) (call : Call) (fate : Fate) : Prop :=
  match call.stage, fate with
  | .claiming, .works => call.pair ∈ s.cache ∨ ¬ Held s call.pair
  | .lookup, .works => ∀ pairs, remembered call.run (s.memory call.process) = some pairs → Knows s call pairs
  | .lookup, .fails _ released =>
    (∀ pairs, remembered call.run (s.memory call.process) = some pairs → Knows s call pairs) ∧ (call.pair ∈ s.rows ∨ released = true)
  | .reading rows, _ => Knows s call rows
  | .recording, .fails committed released => committed = true ∨ (remembered call.run (s.memory call.process) = none ∧ released = true)
  | _, _ => True

/-- The conditions on a step. -/
def StepSafe (s : State) : Event → Prop
  | .advance i fate => ∀ call, s.calls i = some call → CallSafe s call fate
  | _ => True

namespace CommandOnceAux

/-- What holds in every state of a safe run. -/
structure Sound (s : State) : Prop where
  unique : ∀ i j a b, s.calls i = some a → s.calls j = some b → a.holds → b.holds → a.pair = b.pair → i = j
  once : ∀ pair, s.sends.count pair ≤ 1
  unsent : ∀ pair ∈ s.sends, pair ∈ s.rows
  sending : ∀ i a, s.calls i = some a → a.stage = .sending → a.pair ∈ s.rows ∧ a.pair ∉ s.sends
  alone : ∀ i j a b, s.calls i = some a → s.calls j = some b → a.stage = .sending → b.stage = .sending → a.pair = b.pair → i = j
  recording : ∀ i a, s.calls i = some a → a.stage = .recording → a.pair ∉ s.rows
  reading : ∀ i a rows, s.calls i = some a → a.stage = .reading rows → ∀ pair ∈ rows, pair ∈ s.rows
  cache : ∀ pair ∈ s.cache, pair ∈ s.rows ∨ Held s pair
  memory : ∀ process, ∀ entry ∈ s.memory process, ∀ pair ∈ entry.2, pair ∈ s.rows ∨
    ∃ i a, s.calls i = some a ∧ a.stage = .recording ∧ a.pair = pair ∧ a.process = process ∧ a.run = entry.1
  unstarted : ∀ i, s.started ≤ i → s.calls i = none

theorem sound_fresh : Sound fresh where
  unique := nofun
  once := by simp [fresh]
  unsent := nofun
  sending := nofun
  alone := nofun
  recording := nofun
  reading := nofun
  cache := nofun
  memory := nofun
  unstarted _ _ := rfl

theorem promise_of_sound {s : State} (h : Sound s) : Promise s where
  once := h.once
  usable i call ending _ _ hrow hheld := by
    refine ⟨?_, hrow, ?_⟩
    · intro hcache
      exact (h.cache _ hcache).elim hrow hheld
    · intro process entry hentry hpair
      rcases h.memory process entry hentry _ hpair with hin | ⟨j, a, hcall, hstage, heq, -⟩
      · exact hrow hin
      · exact hheld ⟨j, a, hcall, by simp [Call.holds, hstage, Stage.Holds], heq⟩

/-! ## A step of a call -/

/-- A call goes from its stage to another, in the state that is left: what may change with it. -/
structure Moves (s s' : State) (i : Nat) (call : Call) (stage : Stage) : Prop where
  found : s.calls i = some call
  calls : ∀ j, s'.calls j = if j = i then some { call with stage := stage } else s.calls j
  started : s'.started = s.started
  rows : ∀ pair ∈ s.rows, pair ∈ s'.rows
  row : ∀ pair ∈ s'.rows, pair ∈ s.rows ∨ pair = call.pair ∧ call.stage = .recording
  sends : s'.sends = s.sends ∨ call.stage = .sending ∧ stage ≠ .sending ∧ s'.sends = s.sends ++ [call.pair]
  claims : stage.Holds → call.holds ∨ ¬ Held s call.pair
  records : stage = .recording → call.pair ∉ s'.rows
  reads : ∀ rows, stage = .reading rows → ∀ pair ∈ rows, pair ∈ s'.rows
  written : stage = .sending → call.stage = .recording ∧ call.pair ∈ s'.rows
  cache : ∀ pair ∈ s'.cache, pair ∈ s.cache ∧ (pair ≠ call.pair ∨ ¬ call.holds) ∨ pair = call.pair ∧ (stage.Holds ∨ call.pair ∈ s'.rows)
  memory : ∀ process, ∀ entry ∈ s'.memory process, ∀ pair ∈ entry.2, pair ∈ s'.rows ∨ (∃ old ∈ s.memory process, old.1 = entry.1 ∧ pair ∈ old.2) ∨
    pair = call.pair ∧ stage = .recording ∧ process = call.process ∧ entry.1 = call.run
  leaves : call.stage = .recording → call.pair ∈ s'.rows ∨ ∀ entry ∈ s'.memory call.process, entry.1 ≠ call.run

variable {s s' : State} {i : Nat} {call : Call} {stage : Stage}

theorem Moves.self (h : Moves s s' i call stage) : s'.calls i = some { call with stage := stage } := by rw [h.calls, if_pos rfl]

theorem Moves.other (h : Moves s s' i call stage) {j : Nat} (hj : j ≠ i) : s'.calls j = s.calls j := by rw [h.calls, if_neg hj]

/-- The call of a number after the step: the call that moved, or a call from before. -/
theorem Moves.cases (h : Moves s s' i call stage) {j : Nat} {a : Call} (ha : s'.calls j = some a) :
    j = i ∧ a = { call with stage := stage } ∨ j ≠ i ∧ s.calls j = some a := by
  rw [h.calls] at ha
  split at ha
  · rename_i hj
    exact .inl ⟨hj, (Option.some.inj ha).symm⟩
  · rename_i hj
    exact .inr ⟨hj, ha⟩

theorem Moves.held (h : Moves s s' i call stage) {pair : Pair} (hheld : Held s pair) (hkept : pair ≠ call.pair ∨ ¬ call.holds) : Held s' pair := by
  obtain ⟨j, a, ha, hholds, rfl⟩ := hheld
  by_cases hj : j = i
  · subst hj
    cases Option.some.inj (ha.symm.trans h.found)
    rcases hkept with hkept | hkept
    · exact absurd rfl hkept
    · exact absurd hholds hkept
  · exact ⟨j, a, (h.other hj).trans ha, hholds, rfl⟩

/-- No row is written for a pair that another call is recording. -/
theorem Moves.unrecorded (h : Moves s s' i call stage) (hs : Sound s) {j : Nat} {a : Call} (hj : j ≠ i) (ha : s.calls j = some a)
    (hstage : a.stage = .recording) : a.pair ∉ s'.rows := by
  intro hrow
  rcases h.row _ hrow with hold | ⟨heq, hrecording⟩
  · exact hs.recording j a ha hstage hold
  · exact hj (hs.unique j i a call ha h.found (by simp [Call.holds, hstage, Stage.Holds]) (by simp [Call.holds, hrecording, Stage.Holds]) heq)

theorem sound_of_moves (h : Moves s s' i call stage) (hs : Sound s) : Sound s' where
  unique j k a b ha hb haholds hbholds heq := by
    rcases h.cases ha with ⟨rfl, rfl⟩ | ⟨hj, ha⟩ <;> rcases h.cases hb with ⟨rfl, rfl⟩ | ⟨hk, hb⟩
    · rfl
    · rcases h.claims haholds with hholds | hnot
      · exact hs.unique _ k call b h.found hb hholds hbholds heq
      · exact absurd ⟨k, b, hb, hbholds, heq.symm⟩ hnot
    · rcases h.claims hbholds with hholds | hnot
      · exact hs.unique j _ a call ha h.found haholds hholds heq
      · exact absurd ⟨j, a, ha, haholds, heq⟩ hnot
    · exact hs.unique j k a b ha hb haholds hbholds heq
  once pair := by
    rcases h.sends with heq | ⟨hstage, -, heq⟩
    · rw [heq]
      exact hs.once pair
    · rw [heq, List.count_append]
      by_cases hpair : pair = call.pair
      · subst hpair
        have hnot := (hs.sending i call h.found hstage).2
        simp [List.count_eq_zero_of_not_mem hnot]
      · have hzero : List.count pair [call.pair] = 0 := List.count_eq_zero_of_not_mem (by simpa using hpair)
        have := hs.once pair
        omega
  unsent pair hpair := by
    rcases h.sends with heq | ⟨hstage, -, heq⟩
    · exact h.rows _ (hs.unsent pair (heq ▸ hpair))
    · rw [heq, List.mem_append, List.mem_singleton] at hpair
      rcases hpair with hpair | rfl
      · exact h.rows _ (hs.unsent pair hpair)
      · exact h.rows _ (hs.sending i call h.found hstage).1
  sending j a ha hstage := by
    rcases h.cases ha with ⟨rfl, rfl⟩ | ⟨hj, ha⟩
    · obtain ⟨hrecording, hrow⟩ := h.written hstage
      refine ⟨hrow, ?_⟩
      rcases h.sends with heq | ⟨hsending, -, -⟩
      · rw [heq]
        exact fun hsent => hs.recording _ call h.found hrecording (hs.unsent _ hsent)
      · cases hrecording.symm.trans hsending
    · obtain ⟨hrow, hnot⟩ := hs.sending j a ha hstage
      refine ⟨h.rows _ hrow, ?_⟩
      rcases h.sends with heq | ⟨hsending, -, heq⟩
      · rw [heq]
        exact hnot
      · rw [heq, List.mem_append, List.mem_singleton]
        rintro (hsent | hsame)
        · exact hnot hsent
        · exact hj (hs.alone j i a call ha h.found hstage hsending hsame)
  alone j k a b ha hb hastage hbstage heq := by
    rcases h.cases ha with ⟨rfl, rfl⟩ | ⟨hj, ha⟩ <;> rcases h.cases hb with ⟨rfl, rfl⟩ | ⟨hk, hb⟩
    · rfl
    · refine absurd (hs.sending k b hb hbstage).1 ?_
      rw [← heq]
      exact hs.recording _ call h.found (h.written hastage).1
    · refine absurd (hs.sending j a ha hastage).1 ?_
      rw [heq]
      exact hs.recording _ call h.found (h.written hbstage).1
    · exact hs.alone j k a b ha hb hastage hbstage heq
  recording j a ha hstage := by
    rcases h.cases ha with ⟨rfl, rfl⟩ | ⟨hj, ha⟩
    · exact h.records hstage
    · exact h.unrecorded hs hj ha hstage
  reading j a rows ha hstage pair hpair := by
    rcases h.cases ha with ⟨rfl, rfl⟩ | ⟨hj, ha⟩
    · exact h.reads rows hstage pair hpair
    · exact h.rows _ (hs.reading j a rows ha hstage pair hpair)
  cache pair hpair := by
    rcases h.cache pair hpair with ⟨hold, hne⟩ | ⟨rfl, hholds | hrow⟩
    · rcases hs.cache pair hold with hrow | hheld
      · exact .inl (h.rows _ hrow)
      · exact .inr (h.held hheld hne)
    · exact .inr ⟨i, _, h.self, hholds, rfl⟩
    · exact .inl hrow
  memory process entry hentry pair hpair := by
    rcases h.memory process entry hentry pair hpair with hrow | ⟨old, hold, hrun, hpair⟩ | ⟨rfl, rfl, rfl, hrun⟩
    · exact .inl hrow
    · rcases hs.memory process old hold pair hpair with hrow | ⟨j, a, ha, hstage, heq, hprocess, harun⟩
      · exact .inl (h.rows _ hrow)
      · by_cases hj : j = i
        · -- the call that recorded the pair is the one that moves: its row is written, or it is forgotten
          subst hj
          cases Option.some.inj (ha.symm.trans h.found)
          rcases h.leaves hstage with hrow | hforgotten
          · exact .inl (heq ▸ hrow)
          · exact absurd (hrun.symm.trans harun.symm) (hforgotten entry (hprocess ▸ hentry))
        · exact .inr ⟨j, a, (h.other hj).trans ha, hstage, heq, hprocess, harun.trans hrun⟩
    · exact .inr ⟨i, _, h.self, rfl, rfl, rfl, hrun.symm⟩
  unstarted j hj := by
    have hne : j ≠ i := by
      rintro rfl
      rw [h.started] at hj
      cases (hs.unstarted j hj).symm.trans h.found
    rw [h.other hne]
    exact hs.unstarted j (h.started ▸ hj)

/-! ## The steps -/

/-- A call that holds no pair ends. -/
theorem ends_moves (hfound : s.calls i = some call) (hholds : ¬ call.holds) (ending : Ending) :
    Moves s (s.move i call (.ended ending)) i call (.ended ending) where
  found := hfound
  calls _ := rfl
  started := rfl
  rows _ h := h
  row _ h := .inl h
  sends := .inl rfl
  claims := False.elim
  records := nofun
  reads _ := nofun
  written := nofun
  cache _ h := .inl ⟨h, .inr hholds⟩
  memory _ entry hentry _ hpair := .inr (.inl ⟨entry, hentry, rfl, hpair⟩)
  leaves h := absurd (by simp [Call.holds, h, Stage.Holds]) hholds

theorem addClaim_sound {fate : Fate} (hs : Sound s) (hfound : s.calls i = some call) (hstage : call.stage = .claiming)
    (hsafe : CallSafe s call fate) : Sound (addClaim s i call fate) := by
  have hholds : ¬ call.holds := by simp [Call.holds, hstage, Stage.Holds]
  unfold addClaim
  split
  · exact sound_of_moves (ends_moves hfound hholds _) hs
  · split
    · exact sound_of_moves (ends_moves hfound hholds _) hs
    · rename_i hnew
      simp only [CallSafe, hstage] at hsafe
      have hmoves : Moves s ({ s with cache := call.pair :: s.cache }.move i call .lookup) i call .lookup := by
        refine ⟨hfound, fun _ => rfl, rfl, fun _ h => h, fun _ h => .inl h, .inl rfl, ?_, nofun, fun _ => nofun, nofun, ?_, ?_, ?_⟩
        · exact fun _ => .inr (hsafe.resolve_left hnew)
        · intro pair hpair
          rcases List.mem_cons.1 hpair with rfl | hpair
          · exact .inr ⟨rfl, .inl trivial⟩
          · exact .inl ⟨hpair, .inr hholds⟩
        · exact fun _ entry hentry _ hpair => .inr (.inl ⟨entry, hentry, rfl, hpair⟩)
        · intro h
          cases hstage.symm.trans h
      exact sound_of_moves hmoves hs

theorem remembered_some {run : Nat} {memory : List (Nat × List Pair)} {pairs : List Pair} (h : remembered run memory = some pairs) : (run, pairs) ∈ memory := by
  obtain ⟨entry, hfind, rfl⟩ := Option.map_eq_some_iff.1 h
  have hrun : entry.1 = run := by simpa using List.find?_some hfind
  exact hrun ▸ List.mem_of_find?_eq_some hfind

theorem remembered_none {run : Nat} {memory : List (Nat × List Pair)} (h : remembered run memory = none) : ∀ entry ∈ memory, entry.1 ≠ run := by
  intro entry hentry heq
  have hnone := List.find?_eq_none.1 (Option.map_eq_none_iff.1 h) entry hentry
  exact hnone (by simpa using heq)

theorem mem_remember {run : Nat} {pairs : List Pair} {memory : List (Nat × List Pair)} {entry : Nat × List Pair}
    (h : entry ∈ remember run pairs memory) : entry ∈ memory ∨ entry = (run, pairs) := by
  have h := List.mem_of_mem_drop h
  split at h
  · obtain ⟨old, hold, rfl⟩ := List.mem_map.1 h
    split
    · exact .inr rfl
    · exact .inl hold
  · simpa using h

theorem mem_addPair {run : Nat} {pair : Pair} {memory : List (Nat × List Pair)} {entry : Nat × List Pair} (h : entry ∈ addPair run pair memory) :
    ∃ old ∈ memory, old.1 = entry.1 ∧ ∀ other ∈ entry.2, other ∈ old.2 ∨ other = pair ∧ entry.1 = run := by
  obtain ⟨old, hold, rfl⟩ := List.mem_map.1 h
  refine ⟨old, hold, ?_⟩
  split
  · rename_i hrun
    refine ⟨hrun, ?_⟩
    intro other hother
    rcases List.mem_cons.1 hother with rfl | hother
    · exact .inr ⟨rfl, rfl⟩
    · exact .inl hother
  · exact ⟨rfl, fun _ hother => .inl hother⟩

/-- The state of a call that has read the rows: only the memory of its process may have changed, by rows. -/
structure Reads (s s₀ : State) : Prop where
  cache : s₀.cache = s.cache
  rows : s₀.rows = s.rows
  calls : s₀.calls = s.calls
  started : s₀.started = s.started
  sends : s₀.sends = s.sends
  memory : ∀ process, ∀ entry ∈ s₀.memory process, ∀ pair ∈ entry.2, pair ∈ s.rows ∨ ∃ old ∈ s.memory process, old.1 = entry.1 ∧ pair ∈ old.2

/-- The end of a claim: the rows that were consulted know the pair exactly when it has a row. -/
theorem settle_sound {s₀ : State} {recorded : List Pair} (hs : Sound s) (hreads : Reads s s₀) (hfound : s.calls i = some call)
    (hstage : call.stage = .lookup ∨ ∃ rows, call.stage = .reading rows) (hknows : call.pair ∈ s.rows ↔ call.pair ∈ recorded) :
    Sound (settle s₀ i call recorded) := by
  have hholds : call.holds := by
    rcases hstage with h | ⟨rows, h⟩ <;> simp [Call.holds, h, Stage.Holds]
  have hnot : call.stage ≠ .recording := by
    rcases hstage with h | ⟨rows, h⟩ <;> simp [h]
  unfold settle
  split
  · rename_i hrecorded
    have hmoves : Moves s (s₀.move i call (.ended .duplicate)) i call (.ended .duplicate) := by
      refine ⟨hfound, fun j => by simp [State.move, hreads.calls], hreads.started, fun _ h => ?_, fun _ h => .inl ?_, .inl hreads.sends, False.elim, nofun,
        fun _ => nofun, nofun, ?_, ?_, fun h => absurd h hnot⟩
      · exact hreads.rows ▸ h
      · exact hreads.rows ▸ h
      · intro pair hpair
        have hpair : pair ∈ s.cache := hreads.cache ▸ hpair
        by_cases heq : pair = call.pair
        · refine .inr ⟨heq, .inr ?_⟩
          exact hreads.rows ▸ hknows.2 hrecorded
        · exact .inl ⟨hpair, .inl heq⟩
      · intro process entry hentry pair hpair
        rcases hreads.memory process entry hentry pair hpair with hrow | hold
        · exact .inl (hreads.rows ▸ hrow)
        · exact .inr (.inl hold)
    exact sound_of_moves hmoves hs
  · rename_i hrecorded
    have hmoves : Moves s ((s₀.setMemory call.process (addPair call.run call.pair (s₀.memory call.process))).move i call .recording) i call .recording := by
      refine ⟨hfound, fun j => by simp [State.move, State.setMemory, hreads.calls], hreads.started, fun _ h => ?_, fun _ h => .inl ?_, .inl hreads.sends,
        fun _ => .inl hholds, ?_, fun _ => nofun, nofun, ?_, ?_, fun h => absurd h hnot⟩
      · exact hreads.rows ▸ h
      · exact hreads.rows ▸ h
      · intro _ hrow
        exact hrecorded (hknows.1 (hreads.rows ▸ hrow))
      · intro pair hpair
        have hpair : pair ∈ s.cache := hreads.cache ▸ hpair
        by_cases heq : pair = call.pair
        · exact .inr ⟨heq, .inl trivial⟩
        · exact .inl ⟨hpair, .inl heq⟩
      · intro process entry hentry pair hpair
        have hold : pair = call.pair ∧ process = call.process ∧ entry.1 = call.run ∨
            ∃ old ∈ s₀.memory process, old.1 = entry.1 ∧ pair ∈ old.2 := by
          simp only [State.move, State.setMemory] at hentry
          split at hentry
          · rename_i hprocess
            obtain ⟨old, hold, hrun, hall⟩ := mem_addPair hentry
            rcases hall pair hpair with hin | ⟨heq, hthis⟩
            · exact .inr ⟨old, hprocess ▸ hold, hrun, hin⟩
            · exact .inl ⟨heq, hprocess, hthis⟩
          · exact .inr ⟨entry, hentry, rfl, hpair⟩
        rcases hold with ⟨heq, hprocess, hrun⟩ | ⟨old, hold, hrun, hin⟩
        · exact .inr (.inr ⟨heq, rfl, hprocess, hrun⟩)
        · rcases hreads.memory process old hold pair hin with hrow | ⟨older, holder, hrun', hin'⟩
          · exact .inl (hreads.rows ▸ hrow)
          · exact .inr (.inl ⟨older, holder, hrun'.trans hrun, hin'⟩)
    exact sound_of_moves hmoves hs

/-- A claim is released, and the call ends without a row. -/
theorem release_sound {released : Bool} (hs : Sound s) (hfound : s.calls i = some call) (hstage : call.stage = .lookup)
    (hsafe : call.pair ∈ s.rows ∨ released = true) (ending : Ending) : Sound ((s.release call.pair released).move i call (.ended ending)) := by
  have hnot : call.stage ≠ .recording := by simp [hstage]
  cases released with
  | false =>
    have hrow : call.pair ∈ s.rows := by simpa using hsafe
    have hmoves : Moves s ((s.release call.pair false).move i call (.ended ending)) i call (.ended ending) := by
      refine ⟨hfound, fun _ => rfl, rfl, fun _ h => h, fun _ h => .inl h, .inl rfl, False.elim, nofun, fun _ => nofun, nofun, ?_, ?_, fun h => absurd h hnot⟩
      · intro pair hpair
        by_cases heq : pair = call.pair
        · exact .inr ⟨heq, .inr hrow⟩
        · exact .inl ⟨hpair, .inl heq⟩
      · exact fun _ entry hentry _ hpair => .inr (.inl ⟨entry, hentry, rfl, hpair⟩)
    exact sound_of_moves hmoves hs
  | true =>
    have hmoves : Moves s ((s.release call.pair true).move i call (.ended ending)) i call (.ended ending) := by
      refine ⟨hfound, fun _ => rfl, rfl, fun _ h => h, fun _ h => .inl h, .inl rfl, False.elim, nofun, fun _ => nofun, nofun, ?_, ?_, fun h => absurd h hnot⟩
      · intro pair hpair
        have hpair : pair ∈ s.cache ∧ pair ≠ call.pair := by simpa [State.release, State.move] using hpair
        exact .inl ⟨hpair.1, .inl hpair.2⟩
      · exact fun _ entry hentry _ hpair => .inr (.inl ⟨entry, hentry, rfl, hpair⟩)
    exact sound_of_moves hmoves hs

theorem reads_refl (s : State) : Reads s s :=
  ⟨rfl, rfl, rfl, rfl, rfl, fun _ entry hentry _ hpair => .inr ⟨entry, hentry, rfl, hpair⟩⟩

/-- What a process remembers of the pair of a call at its lookup is a row: the call has not remembered it itself. -/
theorem row_of_remembered (hs : Sound s) (hfound : s.calls i = some call) (hstage : call.stage = .lookup) {pairs : List Pair}
    (hremembered : remembered call.run (s.memory call.process) = some pairs) (hpair : call.pair ∈ pairs) : call.pair ∈ s.rows := by
  rcases hs.memory call.process _ (remembered_some hremembered) call.pair hpair with hrow | ⟨j, a, ha, hrecording, heq, -⟩
  · exact hrow
  · have hj := hs.unique j i a call ha hfound (by simp [Call.holds, hrecording, Stage.Holds]) (by simp [Call.holds, hstage, Stage.Holds]) heq
    subst hj
    cases Option.some.inj (ha.symm.trans hfound)
    cases hstage.symm.trans hrecording

theorem lookup_sound {fate : Fate} (hs : Sound s) (hfound : s.calls i = some call) (hstage : call.stage = .lookup) (hsafe : CallSafe s call fate) :
    Sound (lookup s i call fate) := by
  have hknows : ∀ pairs, remembered call.run (s.memory call.process) = some pairs → Knows s call pairs := by
    cases fate with
    | works => simpa only [CallSafe, hstage] using hsafe
    | fails committed released =>
      simp only [CallSafe, hstage] at hsafe
      exact hsafe.1
  unfold lookup
  split
  · rename_i pairs hremembered
    exact settle_sound hs (reads_refl s) hfound (.inl hstage) ⟨hknows pairs hremembered, row_of_remembered hs hfound hstage hremembered⟩
  · cases fate with
    | fails committed released =>
      simp only [CallSafe, hstage] at hsafe
      exact release_sound hs hfound hstage hsafe.2 _
    | works =>
      simp only
      split
      · exact release_sound hs hfound hstage (.inr rfl) _
      · have hmoves : Moves s (s.move i call (.reading s.rows)) i call (.reading s.rows) := by
          refine ⟨hfound, fun _ => rfl, rfl, fun _ h => h, fun _ h => .inl h, .inl rfl, fun _ => .inl ?_, nofun, ?_, nofun, ?_, ?_, ?_⟩
          · simp [Call.holds, hstage, Stage.Holds]
          · intro rows heq pair hpair
            cases heq
            exact hpair
          · intro pair hpair
            by_cases heq : pair = call.pair
            · exact .inr ⟨heq, .inl trivial⟩
            · exact .inl ⟨hpair, .inl heq⟩
          · exact fun _ entry hentry _ hpair => .inr (.inl ⟨entry, hentry, rfl, hpair⟩)
          · intro h
            cases hstage.symm.trans h
        exact sound_of_moves hmoves hs

theorem reading_sound {rows : List Pair} {fate : Fate} (hs : Sound s) (hfound : s.calls i = some call) (hstage : call.stage = .reading rows)
    (hsafe : CallSafe s call fate) : Sound (settle (s.setMemory call.process (remember call.run rows (s.memory call.process))) i call rows) := by
  have hrows := hs.reading i call rows hfound hstage
  refine settle_sound hs ⟨rfl, rfl, rfl, rfl, rfl, ?_⟩ hfound (.inr ⟨rows, hstage⟩) ⟨?_, hrows call.pair⟩
  · intro process entry hentry pair hpair
    simp only [State.setMemory] at hentry
    split at hentry
    · rename_i hprocess
      rcases mem_remember hentry with hold | rfl
      · exact .inr ⟨entry, hprocess ▸ hold, rfl, hpair⟩
      · exact .inl (hrows pair hpair)
    · exact .inr ⟨entry, hentry, rfl, hpair⟩
  · simp only [CallSafe, hstage] at hsafe
    exact hsafe

theorem record_sound {fate : Fate} (hs : Sound s) (hfound : s.calls i = some call) (hstage : call.stage = .recording) (hsafe : CallSafe s call fate) :
    Sound (record s i call fate) := by
  have hadded : ∀ pair ∈ s.rows ++ [call.pair], pair ∈ s.rows ∨ pair = call.pair ∧ call.stage = .recording := by
    intro pair hpair
    rcases List.mem_append.1 hpair with hpair | hpair
    · exact .inl hpair
    · exact .inr ⟨List.mem_singleton.1 hpair, hstage⟩
  have hrow : call.pair ∈ s.rows ++ [call.pair] := List.mem_append_right _ (List.mem_singleton_self _)
  cases fate with
  | works =>
    have hmoves : Moves s ({ s with rows := s.rows ++ [call.pair] }.move i call .sending) i call .sending := by
      refine ⟨hfound, fun _ => rfl, rfl, fun _ h => List.mem_append_left _ h, hadded, .inl rfl, False.elim, nofun, fun _ => nofun,
        fun _ => ⟨hstage, hrow⟩, ?_, ?_, fun _ => .inl hrow⟩
      · intro pair hpair
        by_cases heq : pair = call.pair
        · exact .inr ⟨heq, .inr hrow⟩
        · exact .inl ⟨hpair, .inl heq⟩
      · exact fun _ entry hentry _ hpair => .inr (.inl ⟨entry, hentry, rfl, hpair⟩)
    exact sound_of_moves hmoves hs
  | fails committed released =>
    simp only [CallSafe, hstage] at hsafe
    have hmoves : Moves s (record s i call (.fails committed released)) i call (.ended .transient) := by
      cases committed with
      | true =>
        refine ⟨hfound, fun j => by cases released <;> rfl, by cases released <;> rfl, fun _ h => ?_, fun pair h => hadded pair ?_, .inl ?_, False.elim, nofun,
          fun _ => nofun, nofun, ?_, ?_, fun _ => .inl ?_⟩
        · cases released <;> exact List.mem_append_left _ h
        · cases released <;> exact h
        · cases released <;> rfl
        · intro pair hpair
          by_cases heq : pair = call.pair
          · refine .inr ⟨heq, .inr ?_⟩
            cases released <;> exact hrow
          · refine .inl ⟨?_, .inl heq⟩
            cases released with
            | false => exact hpair
            | true => exact List.mem_of_mem_filter hpair
        · intro process entry hentry pair hpair
          refine .inr (.inl ⟨entry, ?_, rfl, hpair⟩)
          cases released <;> exact hentry
        · cases released <;> exact hrow
      | false =>
        obtain ⟨hforgotten, rfl⟩ : remembered call.run (s.memory call.process) = none ∧ released = true := by simpa using hsafe
        refine ⟨hfound, fun _ => rfl, rfl, fun _ h => h, fun _ h => .inl h, .inl rfl, False.elim, nofun, fun _ => nofun, nofun, ?_, ?_,
          fun _ => .inr (remembered_none hforgotten)⟩
        · intro pair hpair
          have hpair : pair ∈ s.cache ∧ pair ≠ call.pair := by simpa [record, State.release, State.move] using hpair
          exact .inl ⟨hpair.1, .inl hpair.2⟩
        · exact fun _ entry hentry _ hpair => .inr (.inl ⟨entry, hentry, rfl, hpair⟩)
    exact sound_of_moves hmoves hs

theorem send_sound {fate : Fate} (hs : Sound s) (hfound : s.calls i = some call) (hstage : call.stage = .sending) : Sound (send s i call fate) := by
  have hholds : ¬ call.holds := by simp [Call.holds, hstage, Stage.Holds]
  cases fate with
  | fails committed released => exact sound_of_moves (ends_moves hfound hholds _) hs
  | works =>
    have hmoves : Moves s (send s i call .works) i call (.ended .sent) :=
      { ends_moves hfound hholds .sent with sends := .inr ⟨hstage, nofun, rfl⟩ }
    exact sound_of_moves hmoves hs

/-- A new call is at its claim, and touches nothing. -/
theorem start_sound (process run : Nat) (pair : Pair) (hs : Sound s) : Sound (step s (.start process run pair)) := by
  have hkept : ∀ j a, s.calls j = some a → (step s (.start process run pair)).calls j = some a := by
    intro j a ha
    have hj : j ≠ s.started := by
      rintro rfl
      cases (hs.unstarted _ (Nat.le_refl _)).symm.trans ha
    simpa [step, hj] using ha
  have hcases : ∀ j a, (step s (.start process run pair)).calls j = some a → a.stage = .claiming ∨ s.calls j = some a := by
    intro j a ha
    simp only [step] at ha
    split at ha
    · cases ha
      exact .inl rfl
    · exact .inr ha
  have hold : ∀ j a, (step s (.start process run pair)).calls j = some a → a.stage ≠ .claiming → s.calls j = some a :=
    fun j a ha hstage => (hcases j a ha).resolve_left hstage
  have hholds : ∀ a : Call, a.holds → a.stage ≠ .claiming := by
    intro a ha hstage
    simp [Call.holds, hstage, Stage.Holds] at ha
  refine ⟨?_, hs.once, hs.unsent, ?_, ?_, ?_, ?_, ?_, ?_, ?_⟩
  · exact fun j k a b ha hb haholds hbholds => hs.unique j k a b (hold j a ha (hholds a haholds)) (hold k b hb (hholds b hbholds)) haholds hbholds
  · exact fun j a ha hstage => hs.sending j a (hold j a ha (by simp [hstage])) hstage
  · exact fun j k a b ha hb hastage hbstage =>
      hs.alone j k a b (hold j a ha (by simp [hastage])) (hold k b hb (by simp [hbstage])) hastage hbstage
  · exact fun j a ha hstage => hs.recording j a (hold j a ha (by simp [hstage])) hstage
  · exact fun j a rows ha hstage => hs.reading j a rows (hold j a ha (by simp [hstage])) hstage
  · intro other hother
    rcases hs.cache other hother with hrow | ⟨j, a, ha, hholds, heq⟩
    · exact .inl hrow
    · exact .inr ⟨j, a, hkept j a ha, hholds, heq⟩
  · intro process' entry hentry other hother
    rcases hs.memory process' entry hentry other hother with hrow | ⟨j, a, ha, hrest⟩
    · exact .inl hrow
    · exact .inr ⟨j, a, hkept j a ha, hrest⟩
  · intro j hj
    have hj : s.started + 1 ≤ j := hj
    have hne : j ≠ s.started := by omega
    simpa [step, hne] using hs.unstarted j (by omega)

theorem step_sound {e : Event} (hs : Sound s) (hsafe : StepSafe s e) : Sound (step s e) := by
  cases e with
  | start process run pair => exact start_sound process run pair hs
  | advance i fate =>
    simp only [step]
    split
    · rename_i call hfound
      have hsafe : CallSafe s call fate := hsafe call hfound
      unfold advance
      split
      · rename_i hstage
        exact addClaim_sound hs hfound hstage hsafe
      · rename_i hstage
        exact lookup_sound hs hfound hstage hsafe
      · rename_i rows hstage
        exact reading_sound hs hfound hstage hsafe
      · rename_i hstage
        exact record_sound hs hfound hstage hsafe
      · rename_i hstage
        exact send_sound hs hfound hstage
      · exact hs
    · exact hs
  | lose pairs => exact { hs with cache := fun pair hpair => hs.cache pair (List.mem_of_mem_filter hpair) }

end CommandOnceAux

open CommandOnceAux in
/-- In every run whose steps are all safe, each pair is sent at most once, and a pair whose call ended without a row is usable. -/
theorem commands_sent_once (events : List Event) (hsafe : Machine.Along step StepSafe fresh events) : Promise (run fresh events) :=
  promise_of_sound (Machine.keeps (fun _ _ hs hsafe => step_sound hs hsafe) sound_fresh hsafe)

/-- A call of a process for a run and a pair, whose steps all work; `i` is its number. -/
def wholeCall (i process run : Nat) (pair : Pair) : List Event :=
  [.start process run pair, .advance i .works, .advance i .works, .advance i .works, .advance i .works, .advance i .works]

/-- The cache loses the claim of a pair that was sent, and a call of another process for another run is refused by the row. -/
theorem lost_claim_is_refused :
    Promise (run fresh (wholeCall 0 0 0 (7, "a") ++ [.lose [(7, "a")]] ++ wholeCall 1 1 1 (7, "a"))) := by
  apply commands_sent_once
  refine ⟨trivial, ?_, ?_, ?_, ?_, ?_, trivial, trivial, ?_, ?_, ?_, ?_, ?_, trivial⟩
  · rintro call hcall
    cases hcall
    refine .inr ?_
    rintro ⟨_ | i, call, hcall, hholds, -⟩
    · cases hcall
      exact hholds
    · cases hcall
  · rintro call hcall
    cases hcall
    exact nofun
  · rintro call hcall
    cases hcall
    exact nofun
  · rintro call hcall
    cases hcall
    trivial
  · rintro call hcall
    cases hcall
    trivial
  · rintro call hcall
    cases hcall
    refine .inr ?_
    rintro ⟨_ | _ | i, call, hcall, hholds, -⟩
    · cases hcall
      exact hholds
    · cases hcall
      exact hholds
    · cases hcall
  · rintro call hcall
    cases hcall
    exact nofun
  · rintro call hcall
    cases hcall
    exact id
  · rintro call hcall
    cases hcall
    trivial
  · rintro call hcall
    cases hcall
    trivial

/-- The first process reads the rows for its run, another one sends a pair, the cache loses the claim, and the first process, whose memory of the run
is older than the row, sends the pair again. -/
def staleMemory : List Event :=
  wholeCall 0 0 0 (7, "a") ++ wholeCall 1 1 1 (7, "b") ++ [Event.lose [(7, "b")]] ++
    [Event.start 0 0 (7, "b"), .advance 2 .works, .advance 2 .works, .advance 2 .works, .advance 2 .works]

/-- The cache loses the claim before the row is written, and a second call claims the pair as well. -/
def lostClaim : List Event :=
  [Event.start 0 0 (7, "a"), .advance 0 .works, .advance 0 .works, .advance 0 .works, .lose [(7, "a")]] ++ wholeCall 1 1 1 (7, "a") ++
    [Event.advance 0 .works, .advance 0 .works]

/-- The audit row cannot be written, and the claim is released. -/
def lostRow : List Event := [.start 0 0 (7, "a"), .advance 0 .works, .advance 0 .works, .advance 0 .works, .advance 0 (.fails false true)]

/-- Each of them breaks the promise: a pair is sent twice, or is remembered without a row. -/
theorem promise_broken : ¬ Promise (run fresh staleMemory) ∧ ¬ Promise (run fresh lostClaim) ∧ ¬ Promise (run fresh lostRow) := by
  refine ⟨?_, ?_, ?_⟩
  · intro h
    exact absurd (h.once (7, "b")) (by decide)
  · intro h
    exact absurd (h.once (7, "a")) (by decide)
  · intro h
    have hheld : ¬ Held (run fresh lostRow) (7, "a") := by
      rintro ⟨_ | i, call, hcall, hholds, -⟩
      · cases hcall
        exact hholds
      · cases hcall
    have husable := h.usable 0 ⟨0, 0, (7, "a"), .ended .transient⟩ .transient rfl rfl (by decide) hheld
    exact husable.forgotten 0 (0, [(7, "a")]) (by decide) (by decide)

end SystemCommands

end TecTac
