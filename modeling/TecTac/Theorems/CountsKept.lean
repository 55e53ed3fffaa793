import TecTac.EventCounters

/-!
# No count is lost and no drop is reported twice

In every order of the steps: what the process still holds of a counter and what the stat row has of it are together what was counted and what came from elsewhere, as long as no write ends
without a stat row. The counts of the audit rows are what was marked as reported, as long as every audit row is recorded.
-/

namespace TecTac

namespace EventCounters

open Tally

/-! ## What is held, written and counted -/

/-- The amount of a counter in some entries. -/
def amount (job : Job) (name : Name) (entries : List (Job × Counts)) : Nat := sumAt job (sumAt name id) entries

def Flight.amount (job : Job) (name : Name) (flight : Flight) : Nat := EventCounters.amount job name (flight.entries ++ flight.failed.toList)

/-- The amount that is still in memory. -/
def State.inMemory (s : State) (job : Job) (name : Name) : Nat := amount job name s.counters + (s.flights.map (Flight.amount job name)).sum

/-- The amount in the stat row. -/
def State.stat (s : State) (job : Job) (name : Name) : Nat := ((Dict.get job s.stats).map fun row => row.count name).getD 0

def Event.made (job : Job) (name : Name) : Event → Nat
  | .count job' name' amount => if job' = job ∧ name' = name then amount else 0
  | _ => 0

def Event.added (job : Job) (name : Name) : Event → Nat
  | .elsewhere job' counts _ => if job' = job then sumAt name id counts else 0
  | _ => 0

/-- The counts that were made. -/
def State.made (s : State) (job : Job) (name : Name) : Nat := (s.history.map (Event.made job name)).sum

/-- What other processes and the worker have added to the stat row. -/
def State.added (s : State) (job : Job) (name : Name) : Nat := (s.history.map (Event.added job name)).sum

def Conserved (s : State) : Prop := ∀ job name, s.inMemory job name + s.stat job name = s.made job name + s.added job name

/-- What is marked as reported. -/
def State.reported (s : State) (job : Job) : Nat := ((Dict.get job s.stats).map StatRow.droppedReported).getD 0

/-- The audit rows of a job and those that the tick still owes make up what is marked as reported, and no more was dropped. -/
def ReportedOnce (s : State) : Prop := ∀ job, sumAt job id s.audited + sumAt job id s.owed = s.reported job ∧ s.reported job ≤ s.stat job .dropped

/-- No write ends without a stat row, and every audit row is recorded. -/
def StepOk (_ : State) : Event → Prop
  | .write _ .noRow _ => False
  | .audit _ false => False
  | _ => True

instance (s : State) (event : Event) : Decidable (StepOk s event) := by
  unfold StepOk
  split <;> infer_instance

namespace CountAux

/-! ## Amounts -/

theorem sumAt_addCount (name : Name) (counts : Counts) (name' : Name) (more : Nat) :
    sumAt name id (addCount counts name' more) = sumAt name id counts + if name' = name then more else 0 := by
  unfold addCount
  by_cases h : name' = name
  · subst h
    have := sumAt_set_self name' id ((Dict.get name' counts).getD 0 + more) counts
    rw [Option.map_id] at this
    simp only [id_eq, if_true] at this ⊢
    omega
  · rw [sumAt_set_of_ne h, if_neg h, Nat.add_zero]

theorem sumAt_addCounts (name : Name) (counts more : Counts) :
    sumAt name id (more.foldl (fun counts e => addCount counts e.1 e.2) counts) = sumAt name id counts + sumAt name id more := by
  induction more generalizing counts with
  | nil => rfl
  | cons e more ih =>
    rw [List.foldl_cons, ih, sumAt_addCount, sumAt_cons, Nat.add_assoc]
    rfl

theorem amount_addTo (job : Job) (name : Name) (counters : List (Job × Counts)) (job' : Job) (more : Counts) :
    amount job name (addTo counters job' more) = amount job name counters + if job' = job then sumAt name id more else 0 := by
  unfold amount addTo
  by_cases h : job' = job
  · subst h
    have hset := sumAt_set_self job' (sumAt name id) (more.foldl (fun counts e => addCount counts e.1 e.2) ((Dict.get job' counters).getD [])) counters
    rw [sumAt_addCounts, Nat.add_left_comm, Nat.add_comm (sumAt name id _)] at hset
    have hold : ((Dict.get job' counters).map (sumAt name id)).getD 0 = sumAt name id ((Dict.get job' counters).getD []) := by
      cases Dict.get job' counters <;> rfl
    rw [if_pos rfl]
    exact Nat.add_right_cancel (hold ▸ hset)
  · rw [sumAt_set_of_ne h, if_neg h, Nat.add_zero]

/-- What a flush leaves behind amounts to nothing. -/
theorem amount_taken (job : Job) (name : Name) (counters : List (Job × Counts)) : amount job name (counters.filter fun e => anyCount e.2) = amount job name counters := by
  refine sumAt_filter fun e _ h => ?_
  rw [anyCount, List.any_eq_false] at h
  refine List.sum_eq_zero_iff_forall_eq_nat.2 fun n hn => ?_
  obtain ⟨c, hc, rfl⟩ := List.mem_map.1 hn
  have := h c hc
  split
  · simpa using this
  · rfl

/-! ## The stat row -/

theorem count_add (row : StatRow) (name name' : Name) (more : Nat) : (row.add name' more).count name = row.count name + if name' = name then more else 0 := by
  cases name <;> cases name' <;> rfl

theorem count_adds (row : StatRow) (name : Name) (counts : Counts) :
    (counts.foldl (fun row e => row.add e.1 e.2) row).count name = row.count name + sumAt name id counts := by
  induction counts generalizing row with
  | nil => rfl
  | cons e counts ih =>
    rw [List.foldl_cons, ih, count_add, sumAt_cons, Nat.add_assoc]
    rfl

theorem reported_adds (row : StatRow) (counts : Counts) : (counts.foldl (fun row e => row.add e.1 e.2) row).droppedReported = row.droppedReported := by
  induction counts generalizing row with
  | nil => rfl
  | cons e counts ih =>
    rw [List.foldl_cons, ih]
    cases e.1 <;> rfl

/-- A bump adds to the counters, and the window of the day is apart from them. -/
theorem bump_spec (row : StatRow) (now : Int) (counts : Counts) :
    (∀ name, (bump row now counts).count name = row.count name + sumAt name id counts) ∧ (bump row now counts).droppedReported = row.droppedReported := by
  unfold bump
  simp only
  split
  · exact ⟨fun name => count_adds row name counts, reported_adds row counts⟩
  · split
    · exact ⟨fun name => (by cases name <;> rfl : _ = _).trans (count_adds row name counts), reported_adds row counts⟩
    · exact ⟨fun name => (by cases name <;> rfl : _ = _).trans (count_adds row name counts), reported_adds row counts⟩

theorem stat_bumpStat (stats : List (Job × StatRow)) (job job' : Job) (name : Name) (now : Int) (counts : Counts) :
    ((Dict.get job (bumpStat stats job' now counts)).map fun row => row.count name).getD 0 =
      ((Dict.get job stats).map fun row => row.count name).getD 0 + if job' = job then sumAt name id counts else 0 := by
  unfold bumpStat
  by_cases h : job' = job
  · subst h
    rw [Dict.get_set_self, if_pos rfl, Option.map_some, Option.getD_some, (bump_spec _ now counts).1]
    cases Dict.get job' stats with
    | none => cases name <;> rfl
    | some row => rfl
  · rw [Dict.get_set_of_ne h, if_neg h, Nat.add_zero]

theorem reported_bumpStat (stats : List (Job × StatRow)) (job job' : Job) (now : Int) (counts : Counts) :
    ((Dict.get job (bumpStat stats job' now counts)).map StatRow.droppedReported).getD 0 = ((Dict.get job stats).map StatRow.droppedReported).getD 0 := by
  unfold bumpStat
  by_cases h : job' = job
  · subst h
    rw [Dict.get_set_self, Option.map_some, Option.getD_some, (bump_spec _ now counts).2]
    cases Dict.get job' stats <;> rfl
  · rw [Dict.get_set_of_ne h]

/-! ## One step -/

theorem made_step (s : State) (event : Event) (job : Job) (name : Name) : (step s event).made job name = s.made job name + event.made job name := by
  simp [State.made, step]

theorem added_step (s : State) (event : Event) (job : Job) (name : Name) : (step s event).added job name = s.added job name + event.added job name := by
  simp [State.added, step]

/-- A flight that is exchanged exchanges what it holds. -/
theorem flights_set {s : State} {index : Nat} {flight : Flight} (h : s.flights[index]? = some flight) (after : Flight) (job : Job) (name : Name) :
    ((s.flights.set index after).map (Flight.amount job name)).sum + flight.amount job name = (s.flights.map (Flight.amount job name)).sum + after.amount job name :=
  sum_set (Flight.amount job name) h after

theorem amount_flight (job : Job) (name : Name) (entries : List (Job × Counts)) (failed : Option (Job × Counts)) :
    Flight.amount job name ⟨entries, failed⟩ = amount job name entries + amount job name failed.toList := sumAt_append job _ entries failed.toList

theorem amount_cons (job : Job) (name : Name) (job' : Job) (counts : Counts) (rest : List (Job × Counts)) :
    amount job name ((job', counts) :: rest) = (if job' = job then sumAt name id counts else 0) + amount job name rest := sumAt_cons job _ _ rest

@[simp] theorem amount_nil (job : Job) (name : Name) : amount job name [] = 0 := rfl

/-- What a step adds to the held and the written amount is what it counts or what comes from elsewhere. -/
theorem held_step {s : State} {event : Event} (h : StepOk s event) (job : Job) (name : Name) :
    (act s event).inMemory job name + (act s event).stat job name = s.inMemory job name + s.stat job name + (event.made job name + event.added job name) := by
  cases event with
  | count job' name' more =>
    have hadd := amount_addTo job name s.counters job' [(name', more)]
    have hsame : (if job' = job then sumAt name id [(name', more)] else 0) = if job' = job ∧ name' = name then more else 0 := by
      rw [sumAt_cons, sumAt_nil, Nat.add_zero, ite_and]
      rfl
    simp only [act, State.inMemory, State.stat, Event.made, Event.added]
    omega
  | take =>
    simp only [act, State.inMemory, State.stat, Event.made, Event.added, List.map_append, List.map_cons, List.map_nil, List.sum_append, List.sum_cons, List.sum_nil, Flight.amount,
      Option.toList_none, List.append_nil, amount_taken, amount_nil]
    omega
  | write index outcome now =>
    simp only [act, Event.made, Event.added]
    cases hflight : s.flights[index]? with
    | none => rfl
    | some flight =>
      obtain ⟨entries, failed⟩ := flight
      cases failed with
      | some e => rfl
      | none =>
        cases entries with
        | nil => rfl
        | cons e rest =>
          obtain ⟨job', counts⟩ := e
          cases outcome with
          | stored =>
            have hset := flights_set hflight ⟨rest, none⟩ job name
            have hbump := stat_bumpStat s.stats job job' name now counts
            rw [amount_flight, amount_flight, amount_cons] at hset
            simp only [writeNext, State.inMemory, State.stat]
            omega
          | raised =>
            have hset := flights_set hflight ⟨rest, some (job', counts)⟩ job name
            rw [amount_flight, amount_flight, amount_cons, Option.toList_none, Option.toList_some, amount_cons, amount_nil] at hset
            simp only [writeNext, State.inMemory, State.stat]
            omega
          | noRow => exact absurd h id
  | putBack index =>
    simp only [act, Event.made, Event.added]
    split
    · rename_i entries job' counts hflight
      have hset := flights_set hflight ⟨entries, none⟩ job name
      have hadd := amount_addTo job name s.counters job' counts
      rw [amount_flight, amount_flight, Option.toList_none, Option.toList_some, amount_cons, amount_nil] at hset
      simp only [State.inMemory, State.stat]
      omega
    · rfl
  | elsewhere job' counts now =>
    have hbump := stat_bumpStat s.stats job job' name now counts
    simp only [act, State.inMemory, State.stat, Event.made, Event.added]
    omega
  | report job' =>
    simp only [act, Event.made, Event.added]
    split
    · rfl
    · rename_i row hrow
      split
      · rfl
      · have hstat : ((Dict.get job (Dict.set job' { row with droppedReported := row.dropped } s.stats)).map fun row => row.count name).getD 0 =
            ((Dict.get job s.stats).map fun row => row.count name).getD 0 := by
          by_cases h : job' = job
          · subst h
            rw [Dict.get_set_self, hrow]
            cases name <;> rfl
          · rw [Dict.get_set_of_ne h]
        simp only [State.inMemory, State.stat]
        omega
  | audit index recorded =>
    simp only [act, Event.made, Event.added]
    split <;> rfl

theorem conserved_step {s : State} {event : Event} (hs : Conserved s) (h : StepOk s event) : Conserved (step s event) := by
  intro job name
  have hheld := held_step h job name
  have hbefore := hs job name
  rw [made_step, added_step]
  have hmemory : (step s event).inMemory job name + (step s event).stat job name = (act s event).inMemory job name + (act s event).stat job name := rfl
  omega

/-! ## The reports -/

theorem stat_mono_bumpStat (stats : List (Job × StatRow)) (job job' : Job) (name : Name) (now : Int) (counts : Counts) :
    ((Dict.get job stats).map fun row => row.count name).getD 0 ≤ ((Dict.get job (bumpStat stats job' now counts)).map fun row => row.count name).getD 0 := by
  rw [stat_bumpStat]
  exact Nat.le_add_right _ _

/-- A bump of a stat row leaves what is reported, and no fewer drops. -/
theorem reportedOnce_bump {s t : State} (hs : ReportedOnce s) {job' : Job} {now : Int} {counts : Counts} (hstats : t.stats = bumpStat s.stats job' now counts)
    (howed : t.owed = s.owed) (haudited : t.audited = s.audited) : ReportedOnce t := by
  intro job
  obtain ⟨hsum, hle⟩ := hs job
  have hreported : t.reported job = s.reported job := by rw [State.reported, hstats, reported_bumpStat, ← State.reported]
  have hstat : s.stat job .dropped ≤ t.stat job .dropped := by
    rw [State.stat, State.stat, hstats]
    exact stat_mono_bumpStat s.stats job job' .dropped now counts
  rw [howed, haudited, hreported]
  exact ⟨hsum, Nat.le_trans hle hstat⟩

theorem reportedOnce_same {s t : State} (hs : ReportedOnce s) (hstats : t.stats = s.stats) (howed : t.owed = s.owed) (haudited : t.audited = s.audited) : ReportedOnce t := by
  intro job
  rw [State.reported, State.stat, hstats, howed, haudited]
  exact hs job

theorem reportedOnce_report {s : State} (hs : ReportedOnce s) (job' : Job) : ReportedOnce (act s (.report job')) := by
  simp only [act]
  split
  · exact hs
  · rename_i row hrow
    split
    · exact hs
    · rename_i hmore
      intro job
      obtain ⟨hsum, hle⟩ := hs job
      simp only [State.reported, State.stat] at hsum hle ⊢
      rw [sumAt_append, sumAt_cons, sumAt_nil]
      by_cases h : job' = job
      · subst h
        rw [hrow] at hsum hle
        simp only [Dict.get_set_self, Option.map_some, Option.getD_some, if_true, id_eq, StatRow.count] at hsum hle ⊢
        omega
      · rw [Dict.get_set_of_ne h, if_neg h]
        exact ⟨hsum, hle⟩

theorem reportedOnce_audit {s : State} (hs : ReportedOnce s) (index : Nat) : ReportedOnce (act s (.audit index true)) := by
  simp only [act]
  split
  · exact hs
  · rename_i row hrow
    intro job
    obtain ⟨hsum, hle⟩ := hs job
    refine ⟨?_, hle⟩
    have herase := sum_eraseIdx (fun e : Job × Nat => if e.1 = job then id e.2 else 0) hrow
    simp only [if_true, State.reported, sumAt_append, sumAt_cons, sumAt_nil] at hsum ⊢
    simp only [sumAt] at hsum ⊢
    omega

theorem reportedOnce_step {s : State} {event : Event} (hs : ReportedOnce s) (h : StepOk s event) : ReportedOnce (step s event) := by
  have hact : ReportedOnce (act s event) := by
    cases event with
    | write index outcome now =>
      simp only [act]
      split
      · exact hs
      · unfold writeNext
        split
        · split
          · exact reportedOnce_bump hs rfl rfl rfl
          · exact reportedOnce_same hs rfl rfl rfl
          · exact absurd h id
        · exact hs
    | putBack index =>
      simp only [act]
      split
      · exact reportedOnce_same hs rfl rfl rfl
      · exact hs
    | elsewhere job' counts now => exact reportedOnce_bump hs rfl rfl rfl
    | report job' => exact reportedOnce_report hs job'
    | audit index recorded =>
      cases recorded with
      | true => exact reportedOnce_audit hs index
      | false => exact absurd h id
    | _ => exact reportedOnce_same hs rfl rfl rfl
  exact reportedOnce_same hact rfl rfl rfl

end CountAux

open CountAux

/-- Along a run in which no write ends without a stat row and every audit row is recorded: no count is lost or doubled, and the audit rows count every reported drop once. -/
theorem counts_are_kept {events : List Event} (h : Machine.Along step StepOk .start events) :
    Conserved (events.foldl step .start) ∧ ReportedOnce (events.foldl step .start) := by
  have hstep : ∀ s event, (Conserved s ∧ ReportedOnce s) → StepOk s event → Conserved (step s event) ∧ ReportedOnce (step s event) :=
    fun s event hs hok => ⟨conserved_step hs.1 hok, reportedOnce_step hs.2 hok⟩
  have hstart : Conserved .start ∧ ReportedOnce .start := ⟨fun _ _ => rfl, fun _ => ⟨rfl, Nat.le_refl 0⟩⟩
  exact Machine.keeps hstep hstart h

namespace CountAux

def sampleJob : Job := ("core", "core.sweep")

/-- A count, a flush that cannot write it, a count in between, and a flush that can; the drop is reported. -/
def retried : List Event :=
  [.count sampleJob .dropped 1, .take, .write 0 .raised 0, .count sampleJob .dropped 1, .putBack 0, .take, .write 1 .stored 0, .report sampleJob, .audit 0 true]

end CountAux

theorem retried_counts_are_kept :
    Conserved (retried.foldl step .start) ∧ ReportedOnce (retried.foldl step .start) ∧ (retried.foldl step .start).audited = [(sampleJob, 2)] := by
  have h := @counts_are_kept retried (by decide)
  exact ⟨h.1, h.2, by decide⟩

/-- A drop whose audit row is not recorded stays marked as reported, and a count that meets no stat row is gone. -/
theorem unrecorded_drop_is_reported : ¬ (∀ events : List Event, ReportedOnce (events.foldl step .start)) ∧ ¬ ∀ events : List Event, Conserved (events.foldl step .start) := by
  constructor
  · intro h
    have hsum := (h [.count sampleJob .dropped 1, .take, .write 0 .stored 0, .report sampleJob, .audit 0 false] sampleJob).1
    exact absurd hsum (by decide)
  · intro h
    have hsum := h [.count sampleJob .published 1, .take, .write 0 .noRow 0] sampleJob .published
    exact absurd hsum (by decide)

end EventCounters

end TecTac
