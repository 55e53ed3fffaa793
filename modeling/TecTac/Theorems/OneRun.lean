import TecTac.Lemmas.Delegation

/-!
# One ticket starts one run

The run of a ticket is found again by its owner key, so it is lost when its schedule is deleted. Two steps delete a schedule that `start` made: the
clean-up of old one-time schedules, which may come within the 24 hours of the ticket, and `start` itself when its run could not be queued, which may
come after the broker took the message or after another call found the run. In every run whose deletions find neither a ticket that can still be
used nor a run that is or will be executed or was answered, one ticket has one run.
-/

namespace TecTac

namespace Delegation

open Timeline

/-! ## What is said of a state -/

/-- The run that a call holds: it queues it, gives it up or has answered with it. -/
def Stage.run : Stage → Option Nat
  | .queueing i _ _ | .deleting i _ | .returned i => some i
  | _ => none

/-- The call has ended. -/
def Stage.over : Stage → Prop
  | .returned _ | .raised => True
  | _ => False

/-- The schedule that the call created. -/
def Stage.made : Stage → Option String
  | .queueing _ _ made => made
  | .deleting _ id => some id
  | _ => none

namespace System

/-- The handler was called for a run. -/
def Executed (s : System) (i : Nat) : Prop := ∃ r, s.runs[i]? = some r ∧ r.invoked ≠ []

/-- A call with the ticket answered with a run. -/
def Answered (s : System) (t : List (String × Json)) (i : Nat) : Prop := ∃ call ∈ s.calls, call.ticket = t ∧ call.stage = .returned i

/-- A run that counts for a ticket: it is one of the ticket's and was executed, or it was an answer to it. -/
def Counts (s : System) (t : List (String × Json)) (i : Nat) : Prop := (t, i) ∈ s.uses ∧ s.Executed i ∨ s.Answered t i

/-- The handler is executed for at most one run of a ticket, and every answer to it is that run. -/
def OneRun (s : System) : Prop := ∀ t i j, s.Counts t i → s.Counts t j → i = j

/-- A call holds the run. -/
def Held (s : System) (i : Nat) : Prop := ∃ call ∈ s.calls, call.stage.run = some i

/-- A call with the ticket is under way. -/
def InFlight (s : System) (t : List (String × Json)) : Prop := ∃ call ∈ s.calls, call.ticket = t ∧ ¬ call.stage.over

end System

/-- The ticket has not expired. -/
def Valid (clock : Int) (t : List (String × Json)) : Prop := (expiry t).any (fun x => decide (second clock ≤ x)) = true

/-- The conditions on a step that deletes a schedule. When `start` does, nobody executes its run and no other call holds it; when the clean-up does, no
ticket of its run can be used any more. -/
def StepSafe (clock : Int) (a : Act) (s : System) : Prop :=
  match a with
  | .advance k fate => ∀ call i id, s.calls[k]? = some call → call.stage = .deleting i id → fate.raises = none →
      (∀ r, s.runs[i]? = some r → r.Dead) ∧ ∀ j other, s.calls[j]? = some other → other.stage.run = some i → j = k
  | .cleanup lag configured id => ∀ e ∈ s.schedules, e.id = id → s.cleanable (clock - lag) configured e = true →
      ∀ t i r, (t, i) ∈ s.uses → s.runs[i]? = some r → r.row.schedule = some id → ¬ Valid clock t ∧ ¬ s.InFlight t
  | _ => True

namespace OneRunAux

/-! ## The invariant -/

/-- The id and the owner key of each schedule. -/
def entries (s : System) : List (String × String × String) := s.schedules.map fun e => (e.id, e.ownerModule, e.ownerKey)

/-- A call with the ticket is under way, or may still come. -/
def Active (clock : Int) (s : System) (t : List (String × Json)) : Prop := Valid clock t ∨ s.InFlight t

/-- A run that lost its schedule and that nobody executes or holds. -/
def Gone (s : System) (i : Nat) : Prop := ∃ r, s.runs[i]? = some r ∧ r.row.schedule = none ∧ r.Dead ∧ ¬ s.Held i

/-- Where a run of a ticket stands: at a schedule with the key of the ticket, or without one when it is dead or the ticket is. -/
def Placed (core : Core) (clock : Int) (s : System) (t : List (String × Json)) (i : Nat) (r : RunSys) : Prop :=
  (∃ id, (id, ticketKey core.uuid t) ∈ entries s ∧ r.row.schedule = some id) ∨
    r.row.schedule = none ∧ (r.Dead ∧ ¬ s.Held i ∨ ¬ Active clock s t)

/-- What holds of every state of a safe run. -/
structure Sound (core : Core) (clock : Int) (s : System) : Prop where
  unique : ∀ id id' key, (id, key) ∈ entries s → (id', key) ∈ entries s → id = id'
  ids : ∀ id key key', (id, key) ∈ entries s → (id, key') ∈ entries s → key = key'
  given : ∀ id key, (id, key) ∈ entries s → id ∈ s.given
  keyed : ∀ call ∈ s.calls, (call.order.caller, call.order.ownerKey core.uuid) = ticketKey core.uuid call.ticket
  found : ∀ call ∈ s.calls, ∀ e, call.stage = .found e →
    e.id ∈ s.given ∧ ∀ key, (e.id, key) ∈ entries s → key = ticketKey core.uuid call.ticket
  belongs : ∀ (i : Nat) (r : RunSys) id, s.runs[i]? = some r → r.row.schedule = some id → ∃ key, (id, key) ∈ entries s
  one : ∀ (i j : Nat) (r r' : RunSys) id, s.runs[i]? = some r → s.runs[j]? = some r' → r.row.schedule = some id → r'.row.schedule = some id → i = j
  made : ∀ call ∈ s.calls, ∀ id, call.stage.made = some id → id ∈ s.given ∧
    ∀ (j : Nat) (r : RunSys), s.runs[j]? = some r → r.row.schedule = some id → call.stage.run = some j
  held : ∀ call ∈ s.calls, ∀ i, call.stage.run = some i → (call.ticket, i) ∈ s.uses
  placed : ∀ t i, (t, i) ∈ s.uses → ∃ r, s.runs[i]? = some r ∧ Placed core clock s t i r
  same : ∀ t i j, (t, i) ∈ s.uses → (t, j) ∈ s.uses → i ≠ j → Gone s i ∨ Gone s j

variable {core : Core} {clock : Int} {s : System}

theorem sound_fresh : Sound core clock System.fresh where
  unique := by simp [entries, System.fresh]
  ids := by simp [entries, System.fresh]
  given := by simp [entries, System.fresh]
  keyed := by simp [System.fresh]
  found := by simp [System.fresh]
  belongs := by simp [System.fresh]
  one := by simp [System.fresh]
  made := by simp [System.fresh]
  held := by simp [System.fresh]
  placed := by simp [System.fresh]
  same := by simp [System.fresh]

theorem not_gone {t : List (String × Json)} {i : Nat} (h : s.Counts t i) : ¬ Gone s i := by
  rintro ⟨r, hr, -, hdead, hheld⟩
  rcases h with ⟨-, r', hr', hinvoked⟩ | ⟨call, hcall, -, hstage⟩
  · cases Option.some.inj (hr.symm.trans hr')
    exact hinvoked hdead.invoked
  · exact hheld ⟨call, hcall, by rw [hstage]; rfl⟩

theorem oneRun_of_sound (h : Sound core clock s) : s.OneRun := by
  intro t i j hi hj
  have hmem : ∀ i, s.Counts t i → (t, i) ∈ s.uses := by
    rintro i (⟨huse, -⟩ | ⟨call, hcall, rfl, hstage⟩)
    · exact huse
    · exact h.held call hcall i (by rw [hstage]; rfl)
  by_contra hne
  rcases h.same t i j (hmem i hi) (hmem j hj) hne with hgone | hgone
  · exact not_gone hi hgone
  · exact not_gone hj hgone

/-- Time passes. -/
theorem Sound.later {clock' : Int} (h : Sound core clock s) (hle : clock ≤ clock') : Sound core clock' s where
  __ := h
  placed t i huse := by
    obtain ⟨r, hr, hplaced⟩ := h.placed t i huse
    refine ⟨r, hr, hplaced.imp_right fun ⟨hnone, hwhy⟩ => ⟨hnone, hwhy.imp_right ?_⟩⟩
    intro hactive hactive'
    refine hactive (hactive'.imp_left ?_)
    have hsecond : second clock ≤ second clock' := Int.ediv_le_ediv (by decide) hle
    unfold Valid
    cases expiry t with
    | none => exact id
    | some x =>
      simp only [Option.any_some, decide_eq_true_eq]
      omega

/-! ## A call moves on -/

/-- What may be said of the stage that a call goes to. -/
structure Moves (core : Core) (s : System) (call : Call) (stage : Stage) : Prop where
  underway : ¬ call.stage.over
  found : ∀ e, stage = .found e → e.id ∈ s.given ∧ ∀ key, (e.id, key) ∈ entries s → key = ticketKey core.uuid call.ticket
  made : ∀ id, stage.made = some id → id ∈ s.given ∧
    ∀ (j : Nat) (r : RunSys), s.runs[j]? = some r → r.row.schedule = some id → stage.run = some j
  run : ∀ i, stage.run = some i → (call.ticket, i) ∈ s.uses ∧
    (call.stage.run = some i ∨ ∃ r, s.runs[i]? = some r ∧ r.row.schedule ≠ none)

variable {k : Nat} {call : Call} {stage : Stage}

theorem mem_move {other : Call} (h : other ∈ (s.move k call stage).calls) : other ∈ s.calls ∨ other = { call with stage := stage } :=
  List.mem_or_eq_of_mem_set h

/-- A call that is not under way was not before. -/
theorem not_active_move (hk : s.calls[k]? = some call) (hmoves : ¬ call.stage.over) {t : List (String × Json)} (h : ¬ Active clock s t) :
    ¬ Active clock (s.move k call stage) t := by
  rintro (hvalid | ⟨other, hmem, ht, hover⟩)
  · exact h (.inl hvalid)
  · rcases mem_move hmem with hold | rfl
    · exact h (.inr ⟨other, hold, ht, hover⟩)
    · exact h (.inr ⟨call, List.mem_of_getElem? hk, ht, hmoves⟩)

/-- A run without a schedule is held only by those that held it. -/
theorem not_held_move (hk : s.calls[k]? = some call) (hmoves : Moves core s call stage) {i : Nat} {r : RunSys} (hr : s.runs[i]? = some r)
    (hnone : r.row.schedule = none) (h : ¬ s.Held i) : ¬ (s.move k call stage).Held i := by
  rintro ⟨other, hmem, hrun⟩
  rcases mem_move hmem with hold | rfl
  · exact h ⟨other, hold, hrun⟩
  · rcases (hmoves.run i hrun).2 with hsame | ⟨r', hr', hsome⟩
    · exact h ⟨call, List.mem_of_getElem? hk, hsame⟩
    · cases Option.some.inj (hr.symm.trans hr')
      exact hsome hnone

theorem sound_move (h : Sound core clock s) (hk : s.calls[k]? = some call) (hmoves : Moves core s call stage) :
    Sound core clock (s.move k call stage) where
  unique := h.unique
  ids := h.ids
  given := h.given
  keyed other hmem := by
    rcases mem_move hmem with hold | rfl
    · exact h.keyed other hold
    · exact h.keyed call (List.mem_of_getElem? hk)
  found other hmem e hstage := by
    rcases mem_move hmem with hold | rfl
    · exact h.found other hold e hstage
    · exact hmoves.found e hstage
  belongs := h.belongs
  one := h.one
  made other hmem id hmade := by
    rcases mem_move hmem with hold | rfl
    · exact h.made other hold id hmade
    · exact hmoves.made id hmade
  held other hmem i hrun := by
    rcases mem_move hmem with hold | rfl
    · exact h.held other hold i hrun
    · exact (hmoves.run i hrun).1
  placed t i huse := by
    obtain ⟨r, hr, hplaced⟩ := h.placed t i huse
    refine ⟨r, hr, hplaced.imp_right fun ⟨hnone, hwhy⟩ => ⟨hnone, ?_⟩⟩
    exact hwhy.imp (And.imp_right (not_held_move hk hmoves hr hnone)) (not_active_move hk hmoves.underway)
  same t i j hi hj hne := by
    have hgone : ∀ i, Gone s i → Gone (s.move k call stage) i := fun i ⟨r, hr, hnone, hdead, hheld⟩ =>
      ⟨r, hr, hnone, hdead, not_held_move hk hmoves hr hnone hheld⟩
    exact (h.same t i j hi hj hne).imp (hgone i) (hgone j)

/-! ## A run changes -/

/-- The entry of a list that was changed at one place. -/
theorem getElem?_modify_cases {α : Type} {f : α → α} {xs : List α} {i j : Nat} {y : α} (h : (xs.modify i f)[j]? = some y) :
    ∃ x, xs[j]? = some x ∧ (y = x ∧ j ≠ i ∨ y = f x ∧ j = i) := by
  rw [List.getElem?_modify] at h
  obtain ⟨x, hx, rfl⟩ := Option.map_eq_some_iff.mp h
  refine ⟨x, hx, ?_⟩
  by_cases hij : i = j
  · exact .inr ⟨by rw [if_pos hij], hij.symm⟩
  · exact .inl ⟨by rw [if_neg hij], fun heq => hij heq.symm⟩

/-- A run keeps its schedule, and its death unless a call holds it. -/
theorem sound_setRun {i : Nat} {f : RunSys → RunSys} (h : Sound core clock s) (hschedule : ∀ r, (f r).row.schedule = r.row.schedule)
    (hdead : s.Held i ∨ ∀ r : RunSys, r.Dead → (f r).Dead) : Sound core clock (s.setRun i f) := by
  have hget : ∀ (j : Nat) (r : RunSys), (s.setRun i f).runs[j]? = some r →
      ∃ old, s.runs[j]? = some old ∧ r.row.schedule = old.row.schedule ∧ (old.Dead ∧ ¬ s.Held j → r.Dead) := by
    intro j r hr
    obtain ⟨old, hold, ⟨rfl, -⟩ | ⟨rfl, rfl⟩⟩ := getElem?_modify_cases hr
    · exact ⟨_, hold, rfl, And.left⟩
    · refine ⟨old, hold, hschedule old, fun ⟨hd, hnot⟩ => ?_⟩
      rcases hdead with hheld | hdead
      · exact absurd hheld hnot
      · exact hdead old hd
  have hput : ∀ (j : Nat) (old : RunSys), s.runs[j]? = some old →
      ∃ r, (s.setRun i f).runs[j]? = some r ∧ r.row.schedule = old.row.schedule ∧ (old.Dead ∧ ¬ s.Held j → r.Dead) := by
    intro j old hold
    have hlt : j < (s.setRun i f).runs.length := by
      have := (List.getElem?_eq_some_iff.mp hold).1
      simpa [System.setRun] using this
    obtain ⟨old', hold', hsched, hd⟩ := hget j _ (List.getElem?_eq_getElem hlt)
    cases Option.some.inj (hold.symm.trans hold')
    exact ⟨_, List.getElem?_eq_getElem hlt, hsched, hd⟩
  exact {
    unique := h.unique
    ids := h.ids
    given := h.given
    keyed := h.keyed
    found := h.found
    belongs := by
      intro j r id hr hid
      obtain ⟨old, hold, hsched, -⟩ := hget j r hr
      exact h.belongs j old id hold (hsched ▸ hid)
    one := by
      intro j j' r r' id hr hr' hid hid'
      obtain ⟨old, hold, hsched, -⟩ := hget j r hr
      obtain ⟨old', hold', hsched', -⟩ := hget j' r' hr'
      exact h.one j j' old old' id hold hold' (hsched ▸ hid) (hsched' ▸ hid')
    made := by
      intro call hcall id hmade
      refine ⟨(h.made call hcall id hmade).1, fun j r hr hid => ?_⟩
      obtain ⟨old, hold, hsched, -⟩ := hget j r hr
      exact (h.made call hcall id hmade).2 j old hold (hsched ▸ hid)
    held := h.held
    placed := by
      intro t j huse
      obtain ⟨old, hold, hplaced⟩ := h.placed t j huse
      obtain ⟨r, hr, hsched, hd⟩ := hput j old hold
      refine ⟨r, hr, ?_⟩
      unfold Placed
      rw [hsched]
      exact hplaced.imp_right (And.imp_right (Or.imp_left fun ⟨hdead, hnot⟩ => ⟨hd ⟨hdead, hnot⟩, hnot⟩))
    same := by
      have hgone : ∀ j, Gone s j → Gone (s.setRun i f) j := by
        rintro j ⟨old, hold, hnone, hdead, hnot⟩
        obtain ⟨r, hr, hsched, hd⟩ := hput j old hold
        exact ⟨r, hr, hsched.trans hnone, hd ⟨hdead, hnot⟩, hnot⟩
      intro t j j' hj hj' hne
      exact (h.same t j j' hj hj' hne).imp (hgone j) (hgone j') }

/-- What the schedules keep but for their ids and keys does not matter. -/
theorem sound_schedules {schedules : List ScheduleRow} (h : Sound core clock s)
    (heq : entries { s with schedules := schedules } = entries s) : Sound core clock { s with schedules := schedules } where
  unique := heq ▸ h.unique
  ids := heq ▸ h.ids
  given := heq ▸ h.given
  keyed := h.keyed
  found := heq ▸ h.found
  belongs := heq ▸ h.belongs
  one := h.one
  made := h.made
  held := h.held
  placed t i huse := by
    obtain ⟨r, hr, hplaced⟩ := h.placed t i huse
    refine ⟨r, hr, ?_⟩
    unfold Placed
    rw [heq]
    exact hplaced
  same := h.same

/-! ## A call finds or creates a run -/

/-- A run that is dead and whose ticket is still used is gone. -/
theorem gone_of_placed {t : List (String × Json)} {i : Nat} {r : RunSys} (hr : s.runs[i]? = some r) (hplaced : Placed core clock s t i r)
    (hactive : Active clock s t) (hfree : ∀ id, (id, ticketKey core.uuid t) ∈ entries s → r.row.schedule ≠ some id) : Gone s i := by
  rcases hplaced with ⟨id, hid, hsched⟩ | ⟨hnone, ⟨hdead, hnot⟩ | hinactive⟩
  · exact absurd hsched (hfree id hid)
  · exact ⟨r, hr, hnone, hdead, hnot⟩
  · exact absurd hactive hinactive

theorem sound_use {t : List (String × Json)} {i : Nat} {r : RunSys} {id : String} (h : Sound core clock s) (hactive : Active clock s t)
    (hr : s.runs[i]? = some r) (hid : r.row.schedule = some id) (hkey : (id, ticketKey core.uuid t) ∈ entries s) :
    Sound core clock { s with uses := s.uses ++ [(t, i)] } where
  unique := h.unique
  ids := h.ids
  given := h.given
  keyed := h.keyed
  found := h.found
  belongs := h.belongs
  one := h.one
  made := h.made
  held call hcall j hrun := List.mem_append_left _ (h.held call hcall j hrun)
  placed t' j huse := by
    rcases List.mem_append.mp huse with hold | hnew
    · exact h.placed t' j hold
    · obtain ⟨rfl, rfl⟩ := Prod.mk.inj (List.mem_singleton.mp hnew)
      exact ⟨r, hr, .inl ⟨id, hkey, hid⟩⟩
  same := by
    -- another run of the ticket is at the same schedule, or gone
    have hother : ∀ j, (t, j) ∈ s.uses → j ≠ i → Gone s j := by
      intro j hj hne
      obtain ⟨r', hr', hplaced⟩ := h.placed t j hj
      refine gone_of_placed hr' hplaced hactive fun id' hid' hsched => hne ?_
      obtain rfl := h.unique id' id _ hid' hkey
      exact h.one j i r' r id' hr' hr hsched hid
    intro t' j j' hj hj' hne
    rcases List.mem_append.mp hj with ha | ha <;> rcases List.mem_append.mp hj' with hb | hb
    · exact h.same t' j j' ha hb hne
    · obtain ⟨rfl, rfl⟩ := Prod.mk.inj (List.mem_singleton.mp hb)
      exact .inl (hother j ha hne)
    · obtain ⟨rfl, rfl⟩ := Prod.mk.inj (List.mem_singleton.mp ha)
      exact .inr (hother j' hb hne.symm)
    · obtain ⟨rfl, rfl⟩ := Prod.mk.inj (List.mem_singleton.mp ha)
      obtain ⟨-, rfl⟩ := Prod.mk.inj (List.mem_singleton.mp hb)
      exact absurd rfl hne

/-- A schedule and its run are created. -/
def added (s : System) (schedule : ScheduleRow) (r : RunSys) (t : List (String × Json)) : System :=
  { s with
    schedules := s.schedules ++ [schedule]
    runs := s.runs ++ [r]
    given := schedule.id :: s.given
    uses := s.uses ++ [(t, s.runs.length)] }

theorem entries_added {schedule : ScheduleRow} {r : RunSys} {t : List (String × Json)} :
    entries (added s schedule r t) = entries s ++ [(schedule.id, schedule.ownerModule, schedule.ownerKey)] := by
  simp [entries, added]

theorem sound_added (schedule : ScheduleRow) {r : RunSys} {t : List (String × Json)} (h : Sound core clock s) (hactive : Active clock s t)
    (hkey : (schedule.ownerModule, schedule.ownerKey) = ticketKey core.uuid t) (hfree : ∀ id, (id, ticketKey core.uuid t) ∉ entries s)
    (hid : schedule.id ∉ s.given) (hr : r.row.schedule = some schedule.id) : Sound core clock (added s schedule r t) := by
  have hentry : ∀ id key, (id, key) ∈ entries (added s schedule r t) → (id, key) ∈ entries s ∨ id = schedule.id ∧ key = ticketKey core.uuid t := by
    intro id key hmem
    rw [entries_added, List.mem_append, List.mem_singleton, hkey] at hmem
    exact hmem.imp_right Prod.mk.inj
  have hold : ∀ id key, (id, key) ∈ entries s → (id, key) ∈ entries (added s schedule r t) := fun id key hmem => by
    rw [entries_added]
    exact List.mem_append_left _ hmem
  have hnew : (schedule.id, ticketKey core.uuid t) ∈ entries (added s schedule r t) := by
    rw [entries_added, hkey]
    exact List.mem_append_right _ (List.mem_singleton.mpr rfl)
  -- no run from before is at the new schedule
  have hunused : ∀ (j : Nat) (r' : RunSys), s.runs[j]? = some r' → r'.row.schedule ≠ some schedule.id := by
    intro j r' hr' hsched
    obtain ⟨key, hmem⟩ := h.belongs j r' _ hr' hsched
    exact hid (h.given _ _ hmem)
  have hruns : ∀ (j : Nat) (r' : RunSys), (added s schedule r t).runs[j]? = some r' → s.runs[j]? = some r' ∨ j = s.runs.length ∧ r' = r :=
    fun j r' hr' => (Entries.getElem?_concat_cases hr').symm
  have hkept : ∀ (j : Nat) (r' : RunSys), s.runs[j]? = some r' → (added s schedule r t).runs[j]? = some r' := by
    intro j r' hr'
    have hlt := (List.getElem?_eq_some_iff.mp hr').1
    exact (List.getElem?_append_left hlt).trans hr'
  have hgone : ∀ j, Gone s j → Gone (added s schedule r t) j := fun j ⟨r', hr', hnone, hdead, hnot⟩ => ⟨r', hkept j r' hr', hnone, hdead, hnot⟩
  exact {
    unique := by
      intro id id' key hmem hmem'
      rcases hentry id key hmem with hin | ⟨rfl, rfl⟩ <;> rcases hentry id' _ hmem' with hin' | ⟨rfl, hk⟩
      · exact h.unique id id' key hin hin'
      · exact absurd (hk ▸ hin) (hfree id)
      · exact absurd hin' (hfree id')
      · rfl
    ids := by
      intro id key key' hmem hmem'
      rcases hentry id key hmem with hin | ⟨rfl, rfl⟩ <;> rcases hentry _ key' hmem' with hin' | ⟨heq, rfl⟩
      · exact h.ids id key key' hin hin'
      · exact absurd (heq ▸ h.given _ _ hin) hid
      · exact absurd (h.given _ _ hin') hid
      · rfl
    given := by
      intro id key hmem
      rcases hentry id key hmem with hin | ⟨rfl, -⟩
      · exact List.mem_cons_of_mem _ (h.given id key hin)
      · exact List.mem_cons_self
    keyed := h.keyed
    found := by
      intro call hcall e hstage
      obtain ⟨hgiven, hkeys⟩ := h.found call hcall e hstage
      refine ⟨List.mem_cons_of_mem _ hgiven, fun key hmem => ?_⟩
      rcases hentry e.id key hmem with hin | ⟨heq, -⟩
      · exact hkeys key hin
      · exact absurd (heq ▸ hgiven) hid
    belongs := by
      intro j r' id hr' hsched
      rcases hruns j r' hr' with hin | ⟨-, rfl⟩
      · obtain ⟨key, hmem⟩ := h.belongs j r' id hin hsched
        exact ⟨key, hold id key hmem⟩
      · cases Option.some.inj (hr.symm.trans hsched)
        exact ⟨_, hnew⟩
    one := by
      intro j j' a b id ha hb hida hidb
      rcases hruns j a ha with hin | ⟨rfl, rfl⟩ <;> rcases hruns j' b hb with hin' | ⟨rfl, rfl⟩
      · exact h.one j j' a b id hin hin' hida hidb
      · exact absurd (hida.trans (hidb.symm.trans hr)) (hunused j a hin)
      · exact absurd (hidb.trans (hida.symm.trans hr)) (hunused j' b hin')
      · rfl
    made := by
      intro call hcall id hmade
      obtain ⟨hgiven, honly⟩ := h.made call hcall id hmade
      refine ⟨List.mem_cons_of_mem _ hgiven, fun j r' hr' hsched => ?_⟩
      rcases hruns j r' hr' with hin | ⟨-, rfl⟩
      · exact honly j r' hin hsched
      · cases Option.some.inj (hr.symm.trans hsched)
        exact absurd hgiven hid
    held := fun call hcall j hrun => List.mem_append_left _ (h.held call hcall j hrun)
    placed := by
      intro t' j huse
      rcases List.mem_append.mp huse with huse | hnewUse
      · obtain ⟨r', hr', hplaced⟩ := h.placed t' j huse
        exact ⟨r', hkept j r' hr', hplaced.imp_left fun ⟨id, hmem, hsched⟩ => ⟨id, hold id _ hmem, hsched⟩⟩
      · obtain ⟨rfl, rfl⟩ := Prod.mk.inj (List.mem_singleton.mp hnewUse)
        exact ⟨r, List.getElem?_concat_length, .inl ⟨schedule.id, hnew, hr⟩⟩
    same := by
      -- no schedule had the key, so every earlier run of the ticket is gone
      have hother : ∀ j, (t, j) ∈ s.uses → Gone s j := by
        intro j hj
        obtain ⟨r', hr', hplaced⟩ := h.placed t j hj
        exact gone_of_placed hr' hplaced hactive fun id' hid' => absurd hid' (hfree id')
      intro t' j j' hj hj' hne
      rcases List.mem_append.mp hj with ha | ha <;> rcases List.mem_append.mp hj' with hb | hb
      · exact (h.same t' j j' ha hb hne).imp (hgone j) (hgone j')
      · obtain ⟨rfl, rfl⟩ := Prod.mk.inj (List.mem_singleton.mp hb)
        exact .inl (hgone j (hother j ha))
      · obtain ⟨rfl, rfl⟩ := Prod.mk.inj (List.mem_singleton.mp ha)
        exact .inr (hgone j' (hother j' hb))
      · obtain ⟨rfl, rfl⟩ := Prod.mk.inj (List.mem_singleton.mp ha)
        obtain ⟨-, rfl⟩ := Prod.mk.inj (List.mem_singleton.mp hb)
        exact absurd rfl hne }

/-! ## A schedule is deleted -/

theorem mem_entries_delete {id id' : String} {key : String × String} :
    (id', key) ∈ entries (s.deleteSchedule id) ↔ (id', key) ∈ entries s ∧ id' ≠ id := by
  simp only [entries, System.deleteSchedule, List.mem_map, List.mem_filter, bne_iff_ne, Prod.mk.injEq]
  constructor
  · rintro ⟨e, ⟨hmem, hne⟩, rfl, rfl⟩
    exact ⟨⟨e, hmem, rfl, rfl⟩, hne⟩
  · rintro ⟨⟨e, hmem, rfl, rfl⟩, hne⟩
    exact ⟨e, ⟨hmem, hne⟩, rfl, rfl⟩

/-- A run after its schedule may have been deleted. -/
def detached (id : String) (r : RunSys) : RunSys :=
  if r.row.schedule = some id then { r with row := { r.row with schedule := none } } else r

theorem detached_dead {id : String} {r : RunSys} (h : r.Dead) : (detached id r).Dead := by
  unfold detached
  split
  · exact ⟨h.idle, h.workers, h.invoked, h.stays⟩
  · exact h

theorem schedule_detached (id : String) (r : RunSys) :
    (detached id r).row.schedule = if r.row.schedule = some id then none else r.row.schedule := by
  unfold detached
  split <;> rfl

theorem getElem?_delete {id : String} {j : Nat} : (s.deleteSchedule id).runs[j]? = (s.runs[j]?).map (detached id) := List.getElem?_map

theorem sound_delete {id : String} (h : Sound core clock s)
    (hsafe : ∀ t i r, (t, i) ∈ s.uses → s.runs[i]? = some r → r.row.schedule = some id → r.Dead ∧ ¬ s.Held i ∨ ¬ Active clock s t) :
    Sound core clock (s.deleteSchedule id) := by
  have hget : ∀ (j : Nat) (r : RunSys) (id' : String), (s.deleteSchedule id).runs[j]? = some r → r.row.schedule = some id' →
      ∃ old, s.runs[j]? = some old ∧ old.row.schedule = some id' ∧ id' ≠ id := by
    intro j r id' hr hsched
    rw [getElem?_delete] at hr
    obtain ⟨old, hold, rfl⟩ := Option.map_eq_some_iff.mp hr
    rw [schedule_detached] at hsched
    split at hsched
    · cases hsched
    · rename_i hne
      exact ⟨old, hold, hsched, fun heq => hne (heq ▸ hsched)⟩
  have hgone : ∀ j, Gone s j → Gone (s.deleteSchedule id) j := by
    rintro j ⟨r, hr, hnone, hdead, hnot⟩
    refine ⟨detached id r, by rw [getElem?_delete, hr]; rfl, ?_, detached_dead hdead, hnot⟩
    rw [schedule_detached, hnone]
    rfl
  exact {
    unique := fun a b key ha hb => h.unique a b key (mem_entries_delete.1 ha).1 (mem_entries_delete.1 hb).1
    ids := fun a key key' ha hb => h.ids a key key' (mem_entries_delete.1 ha).1 (mem_entries_delete.1 hb).1
    given := fun a key ha => h.given a key (mem_entries_delete.1 ha).1
    keyed := h.keyed
    found := fun call hcall e hstage =>
      ⟨(h.found call hcall e hstage).1, fun key hmem => (h.found call hcall e hstage).2 key (mem_entries_delete.1 hmem).1⟩
    belongs := by
      intro j r id' hr hsched
      obtain ⟨old, hold, hsched', hne⟩ := hget j r id' hr hsched
      obtain ⟨key, hmem⟩ := h.belongs j old id' hold hsched'
      exact ⟨key, mem_entries_delete.2 ⟨hmem, hne⟩⟩
    one := by
      intro j j' r r' id' hr hr' hsched hsched'
      obtain ⟨old, hold, holdsched, -⟩ := hget j r id' hr hsched
      obtain ⟨old', hold', holdsched', -⟩ := hget j' r' id' hr' hsched'
      exact h.one j j' old old' id' hold hold' holdsched holdsched'
    made := by
      intro call hcall id' hmade
      refine ⟨(h.made call hcall id' hmade).1, fun j r hr hsched => ?_⟩
      obtain ⟨old, hold, holdsched, -⟩ := hget j r id' hr hsched
      exact (h.made call hcall id' hmade).2 j old hold holdsched
    held := h.held
    placed := by
      intro t i huse
      obtain ⟨r, hr, hplaced⟩ := h.placed t i huse
      refine ⟨detached id r, by rw [getElem?_delete, hr]; rfl, ?_⟩
      rcases hplaced with ⟨id', hmem, hsched⟩ | ⟨hnone, hwhy⟩
      · by_cases heq : id' = id
        · subst heq
          refine .inr ⟨by rw [schedule_detached, if_pos hsched], ?_⟩
          exact (hsafe t i r huse hr hsched).imp_left (And.imp_left detached_dead)
        · refine .inl ⟨id', mem_entries_delete.2 ⟨hmem, heq⟩, ?_⟩
          rw [schedule_detached, if_neg (by rw [hsched]; simpa using heq), hsched]
      · refine .inr ⟨?_, hwhy.imp_left (And.imp_left detached_dead)⟩
        rw [schedule_detached, hnone]
        rfl
    same := fun t i j hi hj hne => (h.same t i j hi hj hne).imp (hgone i) (hgone j) }

/-! ## The steps -/

theorem mem_entries_of_find {ownerModule ownerKey : String} {e : ScheduleRow} (h : s.findSchedule ownerModule ownerKey = some e) :
    (e.id, ownerModule, ownerKey) ∈ entries s := by
  have hkey : e.ownerModule = ownerModule ∧ e.ownerKey = ownerKey := by simpa [Bool.and_eq_true] using List.find?_some h
  obtain ⟨rfl, rfl⟩ := hkey
  exact List.mem_map.mpr ⟨e, List.mem_of_find?_eq_some h, rfl⟩

theorem not_mem_entries_of_find {ownerModule ownerKey : String} (h : s.findSchedule ownerModule ownerKey = none) (id : String) :
    (id, ownerModule, ownerKey) ∉ entries s := by
  intro hmem
  obtain ⟨e, he, heq⟩ := List.mem_map.mp hmem
  simp only [Prod.mk.injEq] at heq
  have := List.find?_eq_none.mp h e he
  simp [heq] at this

/-- A call goes to a stage in which it holds nothing. -/
theorem moves_empty (hunderway : ¬ call.stage.over) (hrun : stage.run = none) (hmade : stage.made = none) (hfound : ∀ e, stage ≠ .found e) :
    Moves core s call stage where
  underway := hunderway
  found e h := absurd h (hfound e)
  made id h := by simp [hmade] at h
  run i h := by simp [hrun] at h

/-- A call goes to a stage in which it holds the run that it held. -/
theorem moves_holding (h : Sound core clock s) (hk : s.calls[k]? = some call) (hunderway : ¬ call.stage.over) (hrun : stage.run = call.stage.run)
    (hmade : stage.made = none ∨ stage.made = call.stage.made) (hfound : ∀ e, stage ≠ .found e) : Moves core s call stage where
  underway := hunderway
  found e hstage := absurd hstage (hfound e)
  made id hid := by
    rcases hmade with hnone | hsame
    · simp [hnone] at hid
    · rw [hrun]
      exact h.made call (List.mem_of_getElem? hk) id (hsame ▸ hid)
  run i hi := ⟨h.held call (List.mem_of_getElem? hk) i (hrun ▸ hi), .inl (hrun ▸ hi)⟩

theorem look_sound (h : Sound core clock s) (hk : s.calls[k]? = some call) (hstage : call.stage = .looking) :
    Sound core clock (s.look core k call) := by
  have hunderway : ¬ call.stage.over := by simp [hstage, Stage.over]
  unfold System.look
  split
  · exact sound_move h hk (moves_empty hunderway rfl rfl (by simp))
  · rename_i existing hfind
    split
    · refine sound_move h hk ⟨hunderway, ?_, by simp [Stage.made], by simp [Stage.run]⟩
      intro e he
      cases he
      have hmem := mem_entries_of_find hfind
      rw [h.keyed call (List.mem_of_getElem? hk)] at hmem
      exact ⟨h.given _ _ hmem, fun key hkey => h.ids _ _ _ hkey hmem⟩
    · exact sound_move h hk (moves_empty hunderway rfl rfl (by simp))

theorem mem_runsOf {id : String} {i : Nat} (h : i ∈ s.runsOf id) : ∃ r, s.runs[i]? = some r ∧ r.row.schedule = some id := by
  have hany := (List.mem_filter.mp h).2
  cases hr : s.runs[i]? with
  | none => simp [hr] at hany
  | some r => exact ⟨r, rfl, by simpa [hr] using hany⟩

theorem readRuns_sound {existing : ScheduleRow} (h : Sound core clock s) (hk : s.calls[k]? = some call) (hstage : call.stage = .found existing) :
    Sound core clock (s.readRuns k call existing) := by
  have hunderway : ¬ call.stage.over := by simp [hstage, Stage.over]
  have hcall := List.mem_of_getElem? hk
  unfold System.readRuns
  split
  · exact sound_move h hk (moves_empty hunderway rfl rfl (by simp))
  · rename_i i hnewest
    obtain ⟨r, hr, hsched⟩ := mem_runsOf (Entries.mem_of_best hnewest)
    obtain ⟨key, hmem⟩ := h.belongs i r _ hr hsched
    obtain rfl := (h.found call hcall existing hstage).2 key hmem
    have hused := sound_use (t := call.ticket) h (.inr ⟨call, hcall, rfl, hunderway⟩) hr hsched hmem
    have hholds : ∀ stage : Stage, stage.run = some i → stage.made = none → (∀ e, stage ≠ .found e) →
        Moves core { s with uses := s.uses ++ [(call.ticket, i)] } call stage := by
      intro stage hrun hmade hfound
      refine ⟨hunderway, fun e he => absurd he (hfound e), by simp [hmade], fun j hj => ?_⟩
      cases Option.some.inj (hrun.symm.trans hj)
      exact ⟨List.mem_append_right _ (List.mem_singleton.mpr rfl), .inr ⟨r, hr, by simp [hsched]⟩⟩
    simp only
    split
    · exact sound_move hused hk (hholds _ rfl rfl (by simp))
    · exact sound_move hused hk (hholds _ rfl rfl (by simp))

theorem create_sound {fate : Fate} (h : Sound core clock s) (hk : s.calls[k]? = some call) (hstage : call.stage = .creating) :
    Sound core clock (s.create core clock k call fate) := by
  have hunderway : ¬ call.stage.over := by simp [hstage, Stage.over]
  have hcall := List.mem_of_getElem? hk
  unfold System.create
  split
  · exact sound_move h hk (moves_empty hunderway rfl rfl (by simp))
  · rename_i hfree
    rw [Bool.or_eq_true, not_or] at hfree
    have hnone : s.findSchedule call.order.caller (call.order.ownerKey core.uuid) = none := by simpa using hfree.1
    have hid : fate.scheduleId ∉ s.given := by simpa using hfree.2
    have hadded := sound_added (call.order.schedule core.mac core.uuid fate.scheduleId clock)
      (r := { row := call.order.run core.mac core.uuid fate.scheduleId fate.runId clock, dispatch := .idle }) (t := call.ticket) h
      (.inr ⟨call, hcall, rfl, hunderway⟩) (h.keyed call hcall)
      (fun id => by rw [← h.keyed call hcall]; exact not_mem_entries_of_find hnone id) hid rfl
    refine sound_move hadded hk ⟨hunderway, by simp, ?_, ?_⟩
    · intro id hmade
      cases Option.some.inj hmade
      refine ⟨List.mem_cons_self, fun j r hr hsched => ?_⟩
      -- the new run is the only one of the new schedule
      rcases Entries.getElem?_concat_cases hr with ⟨rfl, -⟩ | hold
      · rfl
      · obtain ⟨key, hmem⟩ := h.belongs j r _ hold hsched
        exact absurd (h.given _ _ hmem) hid
    · intro i hi
      cases Option.some.inj hi
      exact ⟨List.mem_append_right _ (List.mem_singleton.mpr rfl), .inr ⟨_, List.getElem?_concat_length, by simp [Order.run, runKwargs]⟩⟩

/-- A call that holds a run writes it and goes on with it, or ends. -/
theorem write_sound {i : Nat} {f : RunSys → RunSys} (h : Sound core clock s) (hk : s.calls[k]? = some call) (hrun : call.stage.run = some i)
    (hunderway : ¬ call.stage.over) (hschedule : ∀ r, (f r).row.schedule = r.row.schedule)
    (hstage : stage.run = some i ∧ (stage.made = none ∨ stage.made = call.stage.made) ∨ stage = .raised) (hfound : ∀ e, stage ≠ .found e) :
    Sound core clock ((s.setRun i f).move k call stage) := by
  have hset := sound_setRun (i := i) h hschedule (.inl ⟨call, List.mem_of_getElem? hk, hrun⟩)
  rcases hstage with ⟨hsame, hmade⟩ | rfl
  · exact sound_move hset hk (moves_holding hset hk hunderway (hsame.trans hrun.symm) hmade hfound)
  · exact sound_move hset hk (moves_empty hunderway rfl rfl hfound)

theorem queue_sound {i : Nat} {phase : DispatchPhase} {made : Option String} {taskId : String} (h : Sound core clock s)
    (hk : s.calls[k]? = some call) (hstage : call.stage = .queueing i phase made) : Sound core clock (s.queue k call i made taskId phase) := by
  have hunderway : ¬ call.stage.over := by simp [hstage, Stage.over]
  have hrun : call.stage.run = some i := by simp [hstage, Stage.run]
  have hmade : call.stage.made = made := by simp [hstage, Stage.made]
  have hreturned : Sound core clock (s.move k call (.returned i)) :=
    sound_move h hk (moves_holding h hk hunderway hrun.symm (.inl rfl) (by simp))
  cases phase with
  | sending => exact write_sound h hk hrun hunderway (fun _ => rfl) (.inl ⟨rfl, .inr hmade.symm⟩) (by simp)
  | accepted => exact write_sound h hk hrun hunderway (fun _ => rfl) (.inl ⟨rfl, .inr hmade.symm⟩) (by simp)
  | recorded => exact hreturned
  | idle => exact hreturned

theorem queueFails_sound {i : Nat} {phase : DispatchPhase} {made : Option String} {e : Exc} {written : Bool} (h : Sound core clock s)
    (hk : s.calls[k]? = some call) (hstage : call.stage = .queueing i phase made) :
    Sound core clock (s.queueFails clock k call i made e written) := by
  have hunderway : ¬ call.stage.over := by simp [hstage, Stage.over]
  have hrun : call.stage.run = some i := by simp [hstage, Stage.run]
  have hmade : call.stage.made = made := by simp [hstage, Stage.made]
  have hset : Sound core clock (if written then s.setRun i fun r => { r with row := r.row.queueRunFailed clock e } else s) := by
    split
    · exact sound_setRun h (fun _ => rfl) (.inl ⟨call, List.mem_of_getElem? hk, hrun⟩)
    · exact h
  have hk' : (if written then s.setRun i fun r => { r with row := r.row.queueRunFailed clock e } else s).calls[k]? = some call := by
    split <;> exact hk
  unfold System.queueFails
  simp only
  split
  · exact sound_move hset hk' (moves_holding hset hk' hunderway hrun.symm (.inr hmade.symm) (by simp))
  · exact sound_move hset hk' (moves_empty hunderway rfl rfl (by simp))

theorem deleting_sound {i : Nat} {id : String} (h : Sound core clock s) (hk : s.calls[k]? = some call) (hstage : call.stage = .deleting i id)
    (hdead : ∀ r, s.runs[i]? = some r → r.Dead) (halone : ∀ j other, s.calls[j]? = some other → other.stage.run = some i → j = k) :
    Sound core clock ((s.deleteSchedule id).move k call .raised) := by
  have hunderway : ¬ call.stage.over := by simp [hstage, Stage.over]
  have hmoved : Sound core clock (s.move k call .raised) := sound_move h hk (moves_empty hunderway rfl rfl (by simp))
  refine sound_delete (s := s.move k call .raised) hmoved ?_
  intro t j r huse hr hsched
  have hrun := (h.made call (List.mem_of_getElem? hk) id (by simp [hstage, Stage.made])).2 j r hr hsched
  obtain rfl : i = j := by simpa [hstage, Stage.run] using hrun
  refine .inl ⟨hdead r hr, ?_⟩
  rintro ⟨other, hother, hheld⟩
  obtain ⟨l, hl⟩ := List.getElem?_of_mem hother
  rcases Entries.getElem?_set_cases hl with ⟨-, rfl⟩ | hold
  · simp [Stage.run] at hheld
  · -- it is the call itself, which holds the run no more
    obtain rfl := halone l other hold hheld
    have hlt := (List.getElem?_eq_some_iff.mp hk).1
    have hself := (List.getElem?_set_self hlt).symm.trans hl
    cases Option.some.inj hself
    simp [Stage.run] at hheld

theorem advance_sound {fate : Fate} (h : Sound core clock s) (hk : s.calls[k]? = some call) (hsafe : StepSafe clock (.advance k fate) s) :
    Sound core clock (s.advance core clock k call fate) := by
  have hends : ¬ call.stage.over → Sound core clock (s.move k call .raised) := fun hunderway =>
    sound_move h hk (moves_empty hunderway rfl rfl (by simp))
  unfold System.advance
  split
  · exact look_sound h hk ‹_›
  · exact readRuns_sound h hk ‹_›
  · exact create_sound h hk ‹_›
  · exact queue_sound h hk ‹_›
  · exact queueFails_sound h hk ‹_›
  · rename_i i id hstage hworks
    obtain ⟨hdead, halone⟩ := hsafe call i id hk hstage hworks
    exact deleting_sound h hk hstage hdead halone
  · exact hends (by simp [*, Stage.over])
  · exact hends (by simp [*, Stage.over])
  · exact hends (by simp [*, Stage.over])
  · exact hends (by simp [*, Stage.over])
  · exact h
  · exact h

theorem runStep_sound {i : Nat} {a : RunAct} (h : Sound core clock s) (ha : a ≠ .forceDelete) : Sound core clock (s.runStep core clock i a) := by
  unfold System.runStep
  split
  · exact h
  · rename_i r hr
    have hset := sound_setRun (i := i) (f := fun r => (r.act core.timeouts clock a).1) h
      (fun r => congrArg Prod.fst (RunSys.identity_act core.timeouts clock ha r)) (.inr fun r hdead => hdead.act core.timeouts clock a)
    refine sound_schedules hset ?_
    simp only [entries]
    split
    · rw [List.map_map]
      refine List.map_congr_left fun e _ => ?_
      simp only [Function.comp_apply]
      split <;> rfl
    · rfl

theorem cleanup_sound {lag configured : Nat} {id : String} (h : Sound core clock s) (hsafe : StepSafe clock (.cleanup lag configured id) s) :
    Sound core clock (s.cleanup (clock - lag) configured id) := by
  unfold System.cleanup
  split
  · rename_i hany
    obtain ⟨e, he, hclean⟩ := List.any_eq_true.mp hany
    rw [Bool.and_eq_true, beq_iff_eq] at hclean
    refine sound_delete h fun t i r huse hr hsched => .inr ?_
    obtain ⟨hvalid, hflight⟩ := hsafe e he hclean.1 hclean.2 t i r huse hr hsched
    exact fun hactive => hactive.elim hvalid hflight
  · exact h

theorem start_sound {order : Order} {c : StartCall} {grants : List Grant} (h : Sound core clock s)
    (hprepared : Prepared core.mac clock c grants order) : Sound core clock { s with calls := s.calls ++ [⟨order, .looking⟩] } := by
  have hmem : ∀ call, call ∈ s.calls ++ [⟨order, .looking⟩] → call ∈ s.calls ∨ call = ⟨order, .looking⟩ := fun call hcall =>
    (List.mem_append.mp hcall).imp_right List.mem_singleton.mp
  have hheld : ∀ i, ¬ s.Held i → ¬ ({ s with calls := s.calls ++ [⟨order, .looking⟩] } : System).Held i := by
    rintro i hnot ⟨call, hcall, hrun⟩
    rcases hmem call hcall with hold | rfl
    · exact hnot ⟨call, hold, hrun⟩
    · simp [Stage.run] at hrun
  have hactive : ∀ t, ¬ Active clock s t → ¬ Active clock { s with calls := s.calls ++ [⟨order, .looking⟩] } t := by
    rintro t hnot (hvalid | ⟨call, hcall, rfl, hover⟩)
    · exact hnot (.inl hvalid)
    · rcases hmem call hcall with hold | rfl
      · exact hnot (.inr ⟨call, hold, rfl, hover⟩)
      · exact hnot (.inl hprepared.unexpired)
  exact {
    unique := h.unique
    ids := h.ids
    given := h.given
    keyed := by
      intro call hcall
      rcases hmem call hcall with hold | rfl
      · exact h.keyed call hold
      · exact hprepared.key core.uuid
    found := by
      intro call hcall e hstage
      rcases hmem call hcall with hold | rfl
      · exact h.found call hold e hstage
      · simp at hstage
    belongs := h.belongs
    one := h.one
    made := by
      intro call hcall id hmade
      rcases hmem call hcall with hold | rfl
      · exact h.made call hold id hmade
      · simp [Stage.made] at hmade
    held := by
      intro call hcall i hrun
      rcases hmem call hcall with hold | rfl
      · exact h.held call hold i hrun
      · simp [Stage.run] at hrun
    placed := by
      intro t i huse
      obtain ⟨r, hr, hplaced⟩ := h.placed t i huse
      exact ⟨r, hr, hplaced.imp_right (And.imp_right (Or.imp (And.imp_right (hheld i)) (hactive t)))⟩
    same := by
      intro t i j hi hj hne
      have hgone : ∀ i, Gone s i → Gone { s with calls := s.calls ++ [⟨order, .looking⟩] } i := fun i ⟨r, hr, hnone, hdead, hnot⟩ =>
        ⟨r, hr, hnone, hdead, hheld i hnot⟩
      exact (h.same t i j hi hj hne).imp (hgone i) (hgone j) }

theorem step_sound {a : Act} (h : Sound core clock s) (hsafe : StepSafe clock a s) : Sound core clock (System.step core clock a s) := by
  cases a with
  | start c grants =>
    simp only [System.step]
    split
    · exact start_sound h (prepare_spec ‹_›)
    · exact h
  | advance k fate =>
    simp only [System.step]
    split
    · exact advance_sound h ‹_› hsafe
    · exact h
  | lose k =>
    simp only [System.step]
    split
    · rename_i call hk
      split
      · exact h
      · exact h
      · rename_i hreturned hraised
        refine sound_move h hk (moves_empty ?_ rfl rfl (by simp))
        intro hover
        cases hstage : call.stage <;> simp_all [Stage.over]
    · exact h
  | run i a =>
    simp only [System.step]
    split
    · exact h
    · exact runStep_sound h ‹_›
  | cleanup lag configured id => exact cleanup_sound h hsafe

theorem exec_sound {events : List (Event Act)} (h : Along (System.step core) StepSafe ⟨clock, System.fresh⟩ events) :
    Sound core (exec (System.step core) ⟨clock, System.fresh⟩ events).clock (exec (System.step core) ⟨clock, System.fresh⟩ events).state :=
  exec_invariant (fun _ _ _ _ hsafe hsound => step_sound (hsound.later (by omega)) hsafe) sound_fresh h

end OneRunAux

open OneRunAux

/-- One ticket starts one run: in every run whose deletions are safe, the handler is executed for at most one run of a ticket, and every start with the
ticket that succeeds answers with that run. -/
theorem one_run_per_ticket (core : Core) (clock : Int) (events : List (Event Act))
    (h : Along (System.step core) StepSafe ⟨clock, System.fresh⟩ events) : (exec (System.step core) ⟨clock, System.fresh⟩ events).state.OneRun :=
  oneRun_of_sound (exec_sound h)

/-! ## Runs of a ticket -/

namespace OneRunAux

def sampleDirectory : Directory where
  clients := [1]
  sites := [(10, 1)]
  agents := [⟨1, "agent-1", 1, 10⟩]
  pks_nodup := by decide
  site_of_agent := by decide

def sampleRegistry : Registry where
  definition id := if id = "apm.install" then some ⟨"apm", ["maintenance"], "install", false⟩ else none
  scheduledAction id := if id = "apm.install" then some { id := id, moduleId := "apm", label := "Install", targetType := "endpoint" } else none
  function _ := some ⟨true, "apm"⟩
  declaredNow _ _ := true
  enabledNow _ := true
  honoured _ := none

/-- The scope of a person who may see everything, as a snapshot keeps it. -/
def unrestrictedScope : Json :=
  .obj [("v", .num 1), ("scope", .obj [("unrestricted", .bool true), ("whole_client_ids", .arr []), ("site_ids", .arr [])]), ("flags", .arr [])]

def actingEnv (caller : String) : Env where
  caller := caller
  registry := sampleRegistry
  directory := sampleDirectory
  scopeRef _ := some (.endpoint ["agent-1"])
  hasResolver _ _ := false
  resolveAgentPks _ _ := none
  resolver_type := by simp
  resolver_asked := by simp
  scope _ := ⟨true, [], []⟩
  captureScope _ := unrestrictedScope
  controls _ _ _ _ _ := .ok ()
  normalizeTargets j := .ok j
  canonicalForUser _ j := .ok j
  casefold s := s

def sampleTargets : Json := .obj [("type", .str "endpoint"), ("ids", .arr [.str "agent-1"])]

def sampleGrant : Grant where
  pk := "grant"
  ownerModule := "maintenance"
  grantKey := "profile:1"
  providerModule := "apm"
  actionId := "apm.install"
  targets := sampleTargets
  createdById := some 7
  createdByUsername := "jane"
  confirmedByUsername := "jane"
  creationScope := unrestrictedScope
  updatedAt := 0

def sampleCore : Core := ⟨fun bytes _ => bytes, fun _ => "key", fun _ => none⟩

/-- A ticket that was issued at the beginning. -/
def sampleTicket : List (String × Json) := ticketBody "run" sampleGrant "maintenance" 0

def sampleStart : Act :=
  .start ⟨actingEnv "apm", .token (sign sampleCore.mac .ticket (.obj sampleTicket)), "apm.install", .items [some 1], none⟩ [sampleGrant]

/-- A start that creates a run up to the moment when it hands it to the queue. -/
def creates (call : Nat) (schedule : String) : List Act :=
  [sampleStart, .advance call {}, .advance call { scheduleId := schedule, runId := schedule }]

/-- The run is queued, and the call answers. -/
def queues (call : Nat) : List Act := [.advance call {}, .advance call { taskId := "task" }, .advance call {}]

/-- A worker executes the run. -/
def executes (run : Nat) : List Act := [.run run (.deliver 0 {}), .run run (.invoke 0), .run run (.finishResult 0 .null)]

def atOnce (acts : List Act) : List (Event Act) := acts.map fun a => ⟨0, a⟩

def leads (events : List (Event Act)) : System := (exec (System.step sampleCore) ⟨0, System.fresh⟩ events).state

/-- An hour after the run of the ticket ended, the clean-up deletes its schedule, and the ticket starts a second one. -/
def cleanedRun : List (Event Act) :=
  atOnce (creates 0 "a" ++ queues 0 ++ executes 0) ++ ⟨3600000000, .cleanup 0 1 "a"⟩ :: atOnce (creates 1 "b" ++ queues 1 ++ executes 1)

/-- The broker took the message and a worker executes the run when the queueing fails; the next start makes a second run. -/
def failedRun : List (Event Act) :=
  atOnce (creates 0 "a" ++ [Act.advance 0 {}] ++ executes 0 ++ [Act.advance 0 { raises := some ⟨.other, "OperationalError", "" ⟩ }, .advance 0 {}] ++
    creates 1 "b" ++ queues 1 ++ executes 1)

/-- The queueing fails before the broker took the message; the next start makes the run, and the one after it answers with it. -/
def retriedRun : List (Event Act) :=
  atOnce (creates 0 "a" ++ [Act.advance 0 { raises := some ⟨.other, "OperationalError", "" ⟩ }, .advance 0 {}] ++ creates 1 "b" ++ queues 1 ++ executes 1 ++
    [sampleStart, .advance 2 {}, .advance 2 {}])

/-- The conditions on the deletion of `start`, as a check; no clean-up deletes anything. -/
def safeNow (clock : Int) : Act → System → Bool
  | .advance k _, s => (s.calls[k]?).all fun call =>
    match call.stage with
    | .deleting i _ =>
      ((s.runs[i]?).all fun r => decide (r.dispatch = .idle ∧ r.workers = [] ∧ r.invoked = [] ∧ r.messages = [])) &&
        (List.range s.calls.length).all fun j => j == k || (s.calls[j]?).all fun other => decide (other.stage.run ≠ some i)
    | _ => true
  | .cleanup lag configured id, s => !(s.schedules.any fun e => e.id == id && s.cleanable (clock - lag) configured e)
  | _, _ => true

theorem stepSafe_of_safeNow {clock : Int} {a : Act} {s : System} (h : safeNow clock a s = true) : StepSafe clock a s := by
  cases a with
  | advance k fate =>
    intro call i id hk hstage _
    simp only [safeNow, hk, Option.all_some, hstage, Bool.and_eq_true] at h
    constructor
    · intro r hr
      have hdead := of_decide_eq_true (p := r.dispatch = .idle ∧ r.workers = [] ∧ r.invoked = [] ∧ r.messages = []) (by simpa [hr] using h.1)
      exact ⟨hdead.1, hdead.2.1, hdead.2.2.1, .inr hdead.2.2.2⟩
    · intro j other hj hrun
      have hlt := (List.getElem?_eq_some_iff.mp hj).1
      have hall := List.all_eq_true.mp h.2 j (List.mem_range.mpr hlt)
      simpa [hj, hrun] using hall
  | cleanup lag configured id =>
    intro e he hid hclean
    have hany : s.schedules.any (fun e => e.id == id && s.cleanable (clock - lag) configured e) = true :=
      List.any_eq_true.mpr ⟨e, he, by simp [hid, hclean]⟩
    simp [safeNow, hany] at h
  | _ => trivial

end OneRunAux

/-- A retry after a failure that the broker did not see, and a retry after the success: one run is executed, and it is the answer. -/
theorem retry_answers_same_run : (leads retriedRun).OneRun ∧ (leads retriedRun).runs.map RunSys.invoked = [[], [0]] ∧
    (leads retriedRun).calls.map Call.stage = [.raised, .returned 1, .returned 1] := by
  refine ⟨one_run_per_ticket sampleCore 0 retriedRun ?_, by decide +kernel, by decide +kernel⟩
  refine Along.imp (C := fun clock a s => safeNow clock a s = true) (fun _ _ _ => stepSafe_of_safeNow) ?_
  decide +kernel

/-- Within the life of the ticket the handler is executed for two runs, after a clean-up and after a failure that came late. -/
theorem second_run_of_ticket : ¬ (leads cleanedRun).OneRun ∧ ¬ (leads failedRun).OneRun := by
  have hexecuted : ∀ s : System, ((s.runs[0]?).any fun r => r.invoked != []) = true → ((s.runs[1]?).any fun r => r.invoked != []) = true →
      (sampleTicket, 0) ∈ s.uses → (sampleTicket, 1) ∈ s.uses → ¬ s.OneRun := by
    intro s hzero hone huse huse' honly
    have hrun : ∀ i, ((s.runs[i]?).any fun r => r.invoked != []) = true → s.Executed i := by
      intro i hany
      cases hr : s.runs[i]? with
      | none => simp [hr] at hany
      | some r => exact ⟨r, hr, by simpa [hr] using hany⟩
    cases honly sampleTicket 0 1 (.inl ⟨huse, hrun 0 hzero⟩) (.inl ⟨huse', hrun 1 hone⟩)
  exact ⟨hexecuted _ (by decide +kernel) (by decide +kernel) (by decide +kernel) (by decide +kernel),
    hexecuted _ (by decide +kernel) (by decide +kernel) (by decide +kernel) (by decide +kernel)⟩

end Delegation

end TecTac
