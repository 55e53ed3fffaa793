import TecTac.Publish

/-!
# What a duplicate answer promises

A publish that is answered `duplicate` is not stored, so another event has to stand for it: a row of the same job and
key that is pending, running or succeeded inside the dedupe window, or a hook of the open transaction. `_persist` looks
at the table, and its answer keeps the promise. The in-process memory does not look: it is written before the rate, the
backlog and the storage have decided, before the transaction commits, and it is not told when the row ends. In every run
in which no publish repeats a remembered pair that was lost (`NoLostRepeat`), every duplicate answer keeps the promise.
-/

namespace TecTac

open Timeline

namespace Publisher

/-- An event stands for a publish of the key: a row that covers it, or an earlier publish of the open transaction. -/
def Covered (clock : Int) (spec : EventJobSpec) (key : String) (p : Publisher) : Prop :=
  (∃ j ∈ p.table.jobs, j.covers clock spec key = true) ∨ ∃ h ∈ p.blocks.flatten, h.spec = spec ∧ h.key = key

/-- The publish that put the pair into the memory was lost: it was dropped by the rate or the backlog, it could not be
stored, it was rolled back, or the row it stored or found has ended since, other than by a success that still counts. -/
def lost (clock : Int) (spec : EventJobSpec) (key : String) (p : Publisher) : Bool :=
  match Dict.get (spec.id, key) p.fates with
  | some .dropped | some .failed | some .rolledBack => true
  | some (.row i) => !(p.table.jobs[i]?).any (JobSys.covers clock spec key)
  | some .waiting | none => false

end Publisher

/-- The job and the key an action publishes. -/
def PubAct.subject : PubAct → Option (String × String)
  | .publish jobId key _ _ _ _ => some (jobId, key)
  | .publishForCore jobId _ key _ _ _ _ => some (jobId, key)
  | _ => none

/-- The action is a publish that repeats, inside the three seconds, a pair whose remembered publish was lost. -/
def repeatsLost (jobs : Jobs) (clock : Int) (a : PubAct) (p : Publisher) : Bool :=
  match a with
  | .publish jobId key _ _ _ _ =>
    (jobs.find jobId).any fun spec => p.recent.fresh clock (spec.id, key) && p.lost clock spec key
  | _ => false

/-- No publish repeats a remembered pair that was lost. -/
def NoLostRepeat (jobs : Jobs) (clock : Int) (a : PubAct) (p : Publisher) : Prop := repeatsLost jobs clock a p = false

instance (jobs : Jobs) (clock : Int) (a : PubAct) (p : Publisher) : Decidable (NoLostRepeat jobs clock a p) :=
  inferInstanceAs (Decidable (_ = _))

/-- A publish that is answered `duplicate` is covered. -/
def DuplicateCovered (jobs : Jobs) (clock : Int) (a : PubAct) (p : Publisher) : Prop :=
  ∀ jobId key spec, a.subject = some (jobId, key) → jobs.find jobId = some spec →
    p.answer jobs clock a = some .duplicate → p.Covered clock spec key

/-- A process that has published nothing yet. -/
def Publisher.start (table : EventJobs) : Publisher := { table := table }

/-- The pairs of which a hook is the remembered publish. -/
def Hook.marks (h : Hook) : List (String × String) := if h.remembered then [h.name] else []

/-- What the history says of the memory, apart from some pairs: every pair in the memory has a fate, a pair that waits has
a hook in the pool, and the hooks are of registered jobs. -/
structure Tracked (jobs : Jobs) (except : List (String × String)) (pool : List Hook) (p : Publisher) : Prop where
  known : ∀ name ∉ except, ∀ stamp, Dict.get name p.recent.stamps = some stamp → (Dict.get name p.fates).isSome
  waiting : ∀ name ∉ except, Dict.get name p.fates = some .waiting → ∃ h ∈ pool, h.remembered = true ∧ h.name = name
  hooks : ∀ h ∈ pool, jobs.find h.spec.id = some h.spec

/-- The hooks that are still to run. -/
def Publisher.pool (p : Publisher) : List Hook := p.blocks.flatten ++ p.commits

namespace NoLostEventAux

variable {jobs : Jobs} {except : List (String × String)} {pool pool' : List Hook} {p q : Publisher}

/-! ### The table -/

/-- The answer of `_persist` is that of the table. -/
theorem isDuplicate_eq (clock : Int) (spec : EventJobSpec) (key : String) (payload : Json) (w : EventJobs) :
    w.isDuplicate clock spec key =
      (decide (0 < spec.dedupeSeconds ∧
          w.succeededSince (persistedRow spec key payload clock).identity (clock - seconds spec.dedupeSeconds) = true) ||
        w.activeExists (persistedRow spec key payload clock).identity) := by
  have hid : (persistedRow spec key payload clock).identity = (spec.moduleId, spec.id, key) := rfl
  rw [hid]
  unfold EventJobs.isDuplicate EventJobs.succeededSince EventJobs.activeExists
  rw [Bool.eq_iff_iff]
  simp only [List.any_eq_true, Bool.or_eq_true, decide_eq_true_eq, JobSys.covers, Bool.and_eq_true, beq_iff_eq]
  constructor
  · rintro ⟨j, hj, ⟨hlive, hident⟩, hactive | ⟨⟨hpos, hstatus⟩, hfin⟩⟩
    · exact Or.inr ⟨j, hj, ⟨hlive, hident⟩, hactive⟩
    · exact Or.inl ⟨hpos, j, hj, ⟨⟨hlive, hident⟩, hstatus⟩, hfin⟩
  · rintro (⟨hpos, j, hj, ⟨⟨hlive, hident⟩, hstatus⟩, hfin⟩ | ⟨j, hj, ⟨hlive, hident⟩, hactive⟩)
    · exact ⟨j, hj, ⟨hlive, hident⟩, Or.inr ⟨⟨hpos, hstatus⟩, hfin⟩⟩
    · exact ⟨j, hj, ⟨hlive, hident⟩, Or.inl hactive⟩

/-- `_persist` leaves the table when it answers that the publish is a duplicate, and else adds a row. -/
theorem persist_eq (clock : Int) (spec : EventJobSpec) (key : String) (payload : Json) (w : EventJobs) :
    w.persist clock spec key payload =
      if w.isDuplicate clock spec key then w else { jobs := w.jobs ++ [{ row := persistedRow spec key payload clock }] } := by
  rw [isDuplicate_eq clock spec key payload w]
  unfold EventJobs.persist
  by_cases hsince : 0 < spec.dedupeSeconds ∧
      w.succeededSince (persistedRow spec key payload clock).identity (clock - seconds spec.dedupeSeconds) = true
  · simp [hsince]
  · simp only [hsince, if_false, decide_false, Bool.false_or]

/-- Once `_persist` has stored, a row covers the key. -/
theorem isDuplicate_persist (clock : Int) (spec : EventJobSpec) (key : String) (payload : Json) (w : EventJobs) :
    (w.persist clock spec key payload).isDuplicate clock spec key = true := by
  rw [persist_eq]
  split
  · assumption
  · have hnew : JobSys.covers clock spec key { row := persistedRow spec key payload clock } = true := by
      simp [JobSys.covers, JobSys.live, JobRow.identity, persistedRow, JobStatus.active, JobStatus.finished]
    simp [EventJobs.isDuplicate, hnew]

/-! ### The history -/

theorem settle_recent (h : Hook) (fate : Fate) (p : Publisher) : (p.settle h fate).recent = p.recent := by
  unfold Publisher.settle
  split <;> rfl

theorem settle_pool (h : Hook) (fate : Fate) (p : Publisher) : (p.settle h fate).pool = p.pool := by
  unfold Publisher.settle
  split <;> rfl

theorem settle_fates_of_not_mem {name : String × String} {h : Hook} (hname : name ∉ h.marks) (fate : Fate) (p : Publisher) :
    Dict.get name (p.settle h fate).fates = Dict.get name p.fates := by
  unfold Publisher.settle
  split
  · rename_i hrem
    have hne : h.name ≠ name := by
      intro heq
      exact hname (by simp [Hook.marks, hrem, heq])
    exact Dict.get_set_of_ne hne fate p.fates
  · rfl

theorem settle_fates_of_mem {name : String × String} {h : Hook} (hname : name ∈ h.marks) (fate : Fate) (p : Publisher) :
    Dict.get name (p.settle h fate).fates = some fate := by
  unfold Hook.marks at hname
  split at hname
  · rename_i hrem
    rw [List.mem_singleton.1 hname, Publisher.settle, if_pos hrem]
    exact Dict.get_set_self h.name fate p.fates
  · cases hname

/-- A change of the table, of the rate or of the gauges does not touch the history. -/
theorem tracked_of_eq (h : Tracked jobs except pool p) (hrecent : q.recent = p.recent) (hfates : q.fates = p.fates) :
    Tracked jobs except pool q where
  known := by
    rw [hrecent, hfates]
    exact h.known
  waiting := by
    rw [hfates]
    exact h.waiting
  hooks := h.hooks

/-- The pool may grow by hooks of registered jobs. -/
theorem tracked_of_subset (h : Tracked jobs except pool p) (hsub : pool ⊆ pool')
    (hhooks : ∀ h ∈ pool', jobs.find h.spec.id = some h.spec) : Tracked jobs except pool' p where
  known := h.known
  waiting := by
    intro name hname hfate
    obtain ⟨hook, hmem, hhook⟩ := h.waiting name hname hfate
    exact ⟨hook, hsub hmem, hhook⟩
  hooks := hhooks

/-- A hook leaves the pool: its own pair is no longer tracked. -/
theorem tracked_drop {hook : Hook} (h : Tracked jobs [] (hook :: pool) p) : Tracked jobs hook.marks pool p where
  known := fun name _ => h.known name (List.not_mem_nil)
  waiting := by
    intro name hname hfate
    obtain ⟨hook', hmem, hrem, heq⟩ := h.waiting name List.not_mem_nil hfate
    rcases List.mem_cons.1 hmem with hsame | hpool
    · refine absurd ?_ hname
      subst hsame
      simp [Hook.marks, hrem, heq]
    · exact ⟨hook', hpool, hrem, heq⟩
  hooks := fun h' hmem => h.hooks h' (List.mem_cons_of_mem _ hmem)

/-- Once the fate of a hook is recorded, its pair is tracked again. -/
theorem tracked_settle {hook : Hook} {fate : Fate} (h : Tracked jobs hook.marks pool p)
    (hwait : fate = .waiting → hook ∈ pool) : Tracked jobs [] pool (p.settle hook fate) where
  known := by
    intro name _ stamp hstamp
    rw [settle_recent] at hstamp
    by_cases hname : name ∈ hook.marks
    · rw [settle_fates_of_mem hname]
      rfl
    · rw [settle_fates_of_not_mem hname]
      exact h.known name hname stamp hstamp
  waiting := by
    intro name _ hfate
    by_cases hname : name ∈ hook.marks
    · rw [settle_fates_of_mem hname] at hfate
      have hmem := hwait (Option.some.inj hfate)
      unfold Hook.marks at hname
      split at hname
      · rename_i hrem
        exact ⟨hook, hmem, hrem, (List.mem_singleton.1 hname).symm⟩
      · cases hname
    · rw [settle_fates_of_not_mem hname] at hfate
      exact h.waiting name hname hfate
  hooks := h.hooks

/-- What is tracked with no exception is tracked with any. -/
theorem tracked_except (h : Tracked jobs [] pool p) : Tracked jobs except pool p where
  known := fun name _ => h.known name List.not_mem_nil
  waiting := fun name _ => h.waiting name List.not_mem_nil
  hooks := h.hooks

/-- A pair that is put into the memory is the only one that has no fate yet. -/
theorem tracked_remember (clock : Int) (name : String × String) (h : Tracked jobs [] pool p) :
    Tracked jobs [name] pool { p with recent := p.recent.remember clock name } where
  known := by
    intro other hother stamp hstamp
    have hne : name ≠ other := fun heq => hother (by simp [heq])
    simp only [RecentKeys.remember, Dict.get_set_of_ne hne] at hstamp
    have hsome : (Dict.get other p.recent.stamps).isSome := by
      unfold RecentKeys.makeRoom at hstamp
      split at hstamp
      · dsimp only at hstamp
        split at hstamp
        · cases hstamp
        · have hmem := (List.mem_filter.1 (Dict.mem_of_get hstamp)).1
          exact Dict.get_isSome_of_mem hmem
      · rw [hstamp]
        rfl
    obtain ⟨stamp', hstamp'⟩ := Option.isSome_iff_exists.1 hsome
    exact h.known other List.not_mem_nil stamp' hstamp'
  waiting := fun other _ => h.waiting other List.not_mem_nil
  hooks := h.hooks

/-! ### The steps -/

/-- The row that covers a key is not a publish that waits. -/
theorem rowFate_ne_waiting (found : Option Nat) : found.elim Fate.failed Fate.row ≠ .waiting := by
  cases found <;> simp

theorem tracked_settleRow {clock : Int} {hook : Hook} (h : Tracked jobs hook.marks pool p) :
    Tracked jobs [] pool (p.settleRow clock hook) :=
  tracked_settle h fun hwait => absurd hwait (rowFate_ne_waiting _)

/-- Storing a row settles the fate of its hook. -/
theorem tracked_persistSafely {clock : Int} {hook : Hook} {storage : Storage} (h : Tracked jobs hook.marks pool p) :
    Tracked jobs [] pool (p.persistSafely clock hook storage).2 := by
  unfold Publisher.persistSafely
  cases storage with
  | fails => exact tracked_settle h nofun
  | answerLost => exact tracked_settleRow (tracked_of_eq h rfl rfl)
  | works counted =>
    dsimp only
    split
    · exact tracked_settleRow h
    · exact tracked_settleRow (tracked_of_eq h rfl rfl)

theorem persistSafely_pool (clock : Int) (hook : Hook) (storage : Storage) (p : Publisher) :
    (p.persistSafely clock hook storage).2.pool = p.pool := by
  unfold Publisher.persistSafely
  cases storage with
  | fails => exact settle_pool ..
  | answerLost => exact settle_pool ..
  | works counted =>
    dsimp only
    split
    · exact settle_pool ..
    · exact settle_pool ..

/-- The last part of a publish settles the fate of its hook, or adds it to the innermost block. -/
theorem tracked_admitEvent {clock : Int} {storage : Storage} (hook : Hook) (h : Tracked jobs hook.marks p.pool p)
    (hreg : jobs.find hook.spec.id = some hook.spec) :
    Tracked jobs [] (p.admitEvent clock hook storage).2.pool (p.admitEvent clock hook storage).2 := by
  unfold Publisher.admitEvent
  dsimp only
  split
  · rw [settle_pool]
    exact tracked_settle (tracked_of_eq h rfl rfl) nofun
  · split
    · rw [settle_pool]
      exact tracked_settle (tracked_of_eq h rfl rfl) nofun
    · split
      · rename_i block outer hblocks
        rw [settle_pool]
        have hpool : p.pool = (block :: outer).flatten ++ p.commits := congrArg (fun b => List.flatten b ++ p.commits) hblocks
        refine tracked_settle ?_ (fun _ => by simp [Publisher.pool])
        refine tracked_of_eq (p := p) (tracked_of_subset h ?_ ?_) rfl rfl
        · rw [hpool]
          intro x hx
          simp only [List.flatten_cons, List.append_assoc, List.mem_append] at hx
          simp only [Publisher.pool, List.flatten_cons, List.append_assoc, List.mem_append, List.mem_singleton]
          rcases hx with hx | hx | hx
          · exact Or.inl hx
          · exact Or.inr (Or.inr (Or.inl hx))
          · exact Or.inr (Or.inr (Or.inr hx))
        · intro x hx
          simp only [Publisher.pool, List.flatten_cons, List.append_assoc, List.mem_append, List.mem_singleton] at hx
          have hold : ∀ y ∈ p.pool, jobs.find y.spec.id = some y.spec := h.hooks
          simp only [hpool, List.flatten_cons, List.append_assoc, List.mem_append] at hold
          rcases hx with hx | rfl | hx | hx
          · exact hold x (Or.inl hx)
          · exact hreg
          · exact hold x (Or.inr (Or.inl hx))
          · exact hold x (Or.inr (Or.inr hx))
      · rw [persistSafely_pool]
        exact tracked_persistSafely (tracked_of_eq h rfl rfl)

/-- Rolling a hook back keeps what the other hooks of its block and of the outer blocks wait for. -/
theorem tracked_settleRolledBack {hook : Hook} {rest outer commits : List Hook}
    (h : Tracked jobs [] (hook :: rest ++ (outer ++ commits)) p) :
    Tracked jobs [] (rest ++ (outer ++ commits)) (p.settleRolledBack outer hook) := by
  unfold Publisher.settleRolledBack
  split
  · rename_i hany
    obtain ⟨other, hmem, hother⟩ := List.any_eq_true.1 hany
    simp only [Bool.and_eq_true, beq_iff_eq] at hother
    refine ⟨h.known, ?_, fun x hx => h.hooks x (List.mem_cons_of_mem _ hx)⟩
    intro name hname hfate
    obtain ⟨x, hx, hrem, heq⟩ := h.waiting name hname hfate
    rcases List.mem_cons.1 hx with hsame | hx
    · refine ⟨other, ?_, hother.1, ?_⟩
      · exact List.mem_append_right _ (List.mem_append_left _ hmem)
      · rw [hother.2, ← hsame, heq]
    · exact ⟨x, hx, hrem, heq⟩
  · exact tracked_settle (tracked_drop h) nofun

/-- Rolling back a block, hook by hook. -/
theorem tracked_foldl {block outer commits : List Hook} (h : Tracked jobs [] (block ++ (outer ++ commits)) p) :
    Tracked jobs [] (outer ++ commits) (block.foldl (Publisher.settleRolledBack outer) p) := by
  induction block generalizing p with
  | nil => exact h
  | cons hook rest ih => exact ih (tracked_settleRolledBack h)

theorem foldl_pool (outer block : List Hook) (p : Publisher) :
    (block.foldl (Publisher.settleRolledBack outer) p).pool = p.pool := by
  induction block generalizing p with
  | nil => rfl
  | cons hook rest ih =>
    rw [List.foldl_cons, ih]
    unfold Publisher.settleRolledBack
    split
    · rfl
    · exact settle_pool ..

/-- A publish keeps the history true. -/
theorem tracked_publish {clock : Int} {jobId key : String} {payload : Except String Json} {enabled : Bool}
    {caller : CallerDecision} {storage : Storage} (h : Tracked jobs [] p.pool p) :
    Tracked jobs [] (p.publish jobs clock jobId key payload enabled caller storage).2.pool
      (p.publish jobs clock jobId key payload enabled caller storage).2 := by
  unfold Publisher.publish
  split
  · exact h
  · rename_i spec hfind
    split
    · exact h
    · split
      · exact h
      · exact h
      · split
        · exact h
        · rename_i payload' _
          split
          · exact h
          · have hreg : jobs.find spec.id = some spec := by rw [jobs.find_id jobId spec hfind, hfind]
            have hmem := tracked_remember clock (spec.id, key) h
            exact tracked_admitEvent ⟨spec, key, payload', true⟩ hmem hreg

/-- So does a publish of Core. -/
theorem tracked_publishForCore {clock : Int} {jobId moduleId key : String} {payload : Except String Json} {core : Bool}
    {status : ModuleStatus} {storage : Storage} (h : Tracked jobs [] p.pool p) :
    Tracked jobs [] (p.publishForCore jobs clock jobId moduleId key payload core status storage).2.pool
      (p.publishForCore jobs clock jobId moduleId key payload core status storage).2 := by
  unfold Publisher.publishForCore
  split
  · exact h
  · split
    · exact h
    · rename_i spec hfind
      split
      · exact h
      · split
        · exact h
        · exact h
        · split
          · exact h
          · rename_i payload' _
            have hreg : jobs.find spec.id = some spec := by rw [jobs.find_id jobId spec hfind, hfind]
            exact tracked_admitEvent ⟨spec, key, payload', false⟩ (tracked_except h) hreg

/-- Every step keeps the history true. -/
theorem tracked_step (clock : Int) (a : PubAct) (h : Tracked jobs [] p.pool p) :
    Tracked jobs [] (p.step jobs clock a).pool (p.step jobs clock a) := by
  unfold Publisher.step
  split
  · exact tracked_publish h
  · exact tracked_publishForCore h
  · exact tracked_of_eq h rfl rfl
  · rename_i hcommits
    split
    · exact h
    · rename_i block hblocks
      have hpool : p.pool = block := by simp [Publisher.pool, hblocks, hcommits]
      rw [hpool] at h
      exact tracked_of_eq h rfl rfl
    · rename_i block next outer hblocks
      -- The hooks of the two blocks change places; the pool has the same members.
      have hsame : ∀ x, x ∈ Publisher.pool { p with blocks := (next ++ block) :: outer } ↔ x ∈ p.pool := by
        intro x
        simp only [Publisher.pool, hblocks, List.flatten_cons, List.mem_append]
        tauto
      refine tracked_of_eq (p := p) (tracked_of_subset h (fun x hx => (hsame x).2 hx) ?_) rfl rfl
      exact fun x hx => h.hooks x ((hsame x).1 hx)
  · split
    · exact h
    · rename_i block outer hblocks
      have hpool : p.pool = block ++ (outer.flatten ++ p.commits) := by simp [Publisher.pool, hblocks]
      rw [hpool] at h
      have hstart : Tracked jobs [] (block ++ (outer.flatten ++ p.commits)) { p with blocks := outer } :=
        tracked_of_eq h rfl rfl
      unfold Publisher.rollback
      rw [foldl_pool]
      exact tracked_foldl hstart
  · rename_i storage hook rest hcommits
    rw [persistSafely_pool]
    have hsub : ∀ x, x ∈ hook :: (p.blocks.flatten ++ rest) ↔ x ∈ p.pool := by
      intro x
      simp only [Publisher.pool, hcommits, List.mem_append, List.mem_cons]
      tauto
    have hcons : Tracked jobs [] (hook :: (p.blocks.flatten ++ rest)) p :=
      tracked_of_subset h (fun x hx => (hsub x).2 hx) fun x hx => h.hooks x ((hsub x).1 hx)
    exact tracked_persistSafely (tracked_of_eq (tracked_drop hcons) rfl rfl)
  · exact tracked_of_eq h rfl rfl
  · exact h

/-! ### Duplicate answers -/

/-- What `_persist` calls a duplicate is covered by a row. -/
theorem covered_of_isDuplicate {clock : Int} {spec : EventJobSpec} {key : String}
    (h : p.table.isDuplicate clock spec key = true) : p.Covered clock spec key :=
  Or.inl (List.any_eq_true.1 h)

/-- The last part of a publish answers `duplicate` only by the table. -/
theorem covered_of_admitEvent {clock : Int} {hook : Hook} {storage : Storage}
    (h : (p.admitEvent clock hook storage).1 = .duplicate) : p.table.isDuplicate clock hook.spec hook.key = true := by
  unfold Publisher.admitEvent at h
  dsimp only at h
  split at h
  · cases h
  · split at h
    · cases h
    · split at h
      · cases h
      · unfold Publisher.persistSafely at h
        cases storage with
        | fails => cases h
        | answerLost => cases h
        | works counted =>
          dsimp only at h
          split at h
          · assumption
          · cases h

/-- A remembered pair that was not lost is covered: its hook waits in the open transaction, or its row still counts. -/
theorem covered_of_not_lost {clock : Int} {spec : EventJobSpec} {key : String} (h : Tracked jobs [] p.pool p)
    (hreg : jobs.find spec.id = some spec) (hcommits : p.commits = [])
    (hfresh : p.recent.fresh clock (spec.id, key) = true) (hlost : p.lost clock spec key = false) :
    p.Covered clock spec key := by
  unfold RecentKeys.fresh at hfresh
  obtain ⟨stamp, hstamp, _⟩ := (Option.any_eq_true _ _).1 hfresh
  have hknown := h.known (spec.id, key) List.not_mem_nil stamp hstamp
  obtain ⟨fate, hfate⟩ := Option.isSome_iff_exists.1 hknown
  unfold Publisher.lost at hlost
  rw [hfate] at hlost
  cases fate with
  | waiting =>
    obtain ⟨hook, hmem, _, hname⟩ := h.waiting (spec.id, key) List.not_mem_nil hfate
    have hid : hook.spec.id = spec.id := congrArg Prod.fst hname
    have hkey : hook.key = key := congrArg Prod.snd hname
    have hspec := h.hooks hook hmem
    rw [hid, hreg] at hspec
    rw [Publisher.pool, hcommits, List.append_nil] at hmem
    exact Or.inr ⟨hook, hmem, (Option.some.inj hspec).symm, hkey⟩
  | row i =>
    simp only [Bool.not_eq_false'] at hlost
    obtain ⟨j, hj, hcovers⟩ := (Option.any_eq_true _ _).1 hlost
    exact Or.inl ⟨j, List.mem_of_getElem? hj, hcovers⟩
  | dropped => cases hlost
  | failed => cases hlost
  | rolledBack => cases hlost

/-- A publish that is answered `duplicate` and repeats no lost pair is covered. -/
theorem covered_of_publish {clock : Int} {jobId key : String} {payload : Except String Json} {enabled : Bool}
    {caller : CallerDecision} {storage : Storage} {spec : EventJobSpec} (h : Tracked jobs [] p.pool p)
    (hcommits : p.commits = []) (hfind : jobs.find jobId = some spec)
    (hkept : p.recent.fresh clock (spec.id, key) = true → p.lost clock spec key = false)
    (hanswer : (p.publish jobs clock jobId key payload enabled caller storage).1 = .duplicate) :
    p.Covered clock spec key := by
  have hreg : jobs.find spec.id = some spec := by rw [jobs.find_id jobId spec hfind, hfind]
  unfold Publisher.publish at hanswer
  rw [hfind] at hanswer
  dsimp only at hanswer
  split at hanswer
  · cases hanswer
  · split at hanswer
    · cases hanswer
    · cases hanswer
    · split at hanswer
      · cases hanswer
      · split at hanswer
        · rename_i hfresh
          exact covered_of_not_lost h hreg hcommits hfresh (hkept hfresh)
        · exact covered_of_isDuplicate (covered_of_admitEvent hanswer)

/-- A publish of Core that is answered `duplicate` is covered. -/
theorem covered_of_publishForCore {clock : Int} {jobId moduleId key : String} {payload : Except String Json} {core : Bool}
    {status : ModuleStatus} {storage : Storage} {spec : EventJobSpec} (hfind : jobs.find jobId = some spec)
    (hanswer : (p.publishForCore jobs clock jobId moduleId key payload core status storage).1 = .duplicate) :
    p.Covered clock spec key := by
  unfold Publisher.publishForCore at hanswer
  rw [hfind] at hanswer
  dsimp only at hanswer
  split at hanswer
  · cases hanswer
  · split at hanswer
    · cases hanswer
    · split at hanswer
      · cases hanswer
      · cases hanswer
      · split at hanswer
        · cases hanswer
        · exact covered_of_isDuplicate (covered_of_admitEvent hanswer)

/-- A step that repeats no lost pair answers `duplicate` only for what is covered. -/
theorem duplicateCovered {clock : Int} {a : PubAct} (h : Tracked jobs [] p.pool p) (hkept : NoLostRepeat jobs clock a p) :
    DuplicateCovered jobs clock a p := by
  intro jobId key spec hsubject hfind hanswer
  unfold Publisher.answer at hanswer
  split at hanswer
  · rename_i hcommits
    cases hsubject
    refine covered_of_publish h hcommits hfind ?_ (Option.some.inj hanswer)
    intro hfresh
    unfold NoLostRepeat repeatsLost at hkept
    simpa [hfind, hfresh] using hkept
  · cases hsubject
    exact covered_of_publishForCore hfind (Option.some.inj hanswer)
  · cases hanswer

end NoLostEventAux

open NoLostEventAux

/-- The hook of a waiting publish does what the duplicate answer relies on: when the storage works, the key is covered once
the hook has run. -/
theorem covered_runHook (jobs : Jobs) (clock : Int) (hook : Hook) (rest : List Hook) (counted : Bool) (p : Publisher)
    (h : p.commits = hook :: rest) :
    ((p.step jobs clock (.runHook (.works counted))).table.isDuplicate clock hook.spec hook.key) = true := by
  have hsettle : ∀ (q : Publisher) (fate : Fate), (q.settle hook fate).table = q.table := by
    intro q fate
    unfold Publisher.settle
    split <;> rfl
  simp only [Publisher.step, h, Publisher.persistSafely, Publisher.settleRow]
  split
  · rename_i hdup
    rw [hsettle]
    exact hdup
  · rw [hsettle]
    exact isDuplicate_persist clock hook.spec hook.key hook.payload p.table

/-- A process in which `m1` has registered its job. -/
def m1Jobs : Jobs where
  find := fun id => if id = "m1.notify" then some (.withDefaults "m1.notify" "m1") else none
  find_id := by
    intro id spec h
    split at h
    · rename_i hid
      rw [← Option.some.inj h, hid]
      rfl
    · nomatch h

/-- A publish of the key `order-1`, by `m1` itself, with a storage that works. -/
def publishOrder : PubAct := .publish "m1.notify" "order-1" (.ok .empty) true .ok (.works true)

end TecTac
