import TecTac.ScheduleWriters
import TecTac.Lemmas.ScheduleEdit

/-!
# A module cannot rewire a person's schedule

A call of `reconcile_schedule` without a person's request, for a schedule that a person created, either raises and leaves
the stored row and the row in memory, or returns and changes nothing that is locked, but that it may switch the schedule
off (`LeavesSchedule`). The call assigns first and decides afterwards, so the rule fails where it raises in between: at an
anchor that is no datetime, at a text time that is no time, and at a save that fails while it switches the schedule off
(`RaisesMidway`). The creator, the confirmer and the stored scope never change.
-/

namespace TecTac

open Timeline Raise

/-- The locked fields of a stored row are as they were, but that it may have been switched off. -/
structure LockedKept (row after : ScheduleRow) : Prop where
  actionId : after.actionId = row.actionId
  targetMode : after.targetMode = row.targetMode
  targets : after.targets = row.targets
  parameters : after.parameters = row.parameters
  timing : after.toTiming = row.toTiming
  enabled : after.enabled = row.enabled ∨ (row.enabled = true ∧ after.enabled = false)
  missedPolicy : after.missedPolicy = row.missedPolicy
  missedGraceMinutes : after.missedGraceMinutes = row.missedGraceMinutes
  concurrencyPolicy : after.concurrencyPolicy = row.concurrencyPolicy
  retryCount : after.retryCount = row.retryCount
  retryDelaySeconds : after.retryDelaySeconds = row.retryDelaySeconds

/-- How a call should end: it raises and the row is exactly as before, stored and in memory, or it returns and the locked
fields are kept. -/
def LeavesSchedule (row : ScheduleRow) (r : Reconciled) : Prop :=
  match r.answer with
  | .error _ => r.saved = none ∧ r.memory = some (Draft.ofRow row)
  | .ok _ => LockedKept row (r.saved.getD row)

/-- A text time of the call raises when it is compared with the stored one: `run_at`, or `run_time` when `run_at` compares
equal. -/
def TimeRaises (rt : Runtime) (a : ReconcileArgs) (row : ScheduleRow) : Prop :=
  (∃ e, comparableMoment rt a.runAt = .error e) ∨
    (timeChanged (comparableMoment rt) (some a.runAt) (.ofMoment row.runAt) = .ok false ∧ ∃ e, comparableTime rt a.runTime = .error e)

/-- The call passes its checks and raises after its first assignment. -/
inductive RaisesMidway (env : Env) (now : Int) (fault : Option Raised) (a : ReconcileArgs) (o : Owned) (row : ScheduleRow) : Prop
  | save (data : ScheduleData) (hdata : reconcileData env a o (some row) = .ok data) (hoff : o.enabled = false)
      (hon : row.enabled = true) (hfault : fault ≠ none)
  | anchor (data : ScheduleData) (hdata : reconcileData env a o (some row) = .ok data) (hon : o.enabled = true)
      (hanchor : ∃ e, anchorAttribute (reconcileAnchor now a (some row)) = .error e)
      (hassigned : (Draft.ofRow row).setFields data ≠ Draft.ofRow row)
  | time (data : ScheduleData) (hdata : reconcileData env a o (some row) = .ok data) (hon : o.enabled = true)
      (hanchor : ∃ v, anchorAttribute (reconcileAnchor now a (some row)) = .ok v)
      (hearly : (Draft.ofRow row).earlyChanged ((Draft.ofRow row).setFields data) = false)
      (htime : TimeRaises env.toRuntime a row)

/-- What the table says of a person: who created a row, who confirmed it, and what the creator could reach. -/
structure PersonColumns where
  id : String
  createdById : Option Nat
  createdBy : String
  confirmedBy : String
  creationScope : Json
  deriving DecidableEq

/-- The person's columns of a row. -/
def ScheduleRow.person (row : ScheduleRow) : PersonColumns :=
  ⟨row.id, row.createdById, row.createdBy, row.confirmedBy, row.creationScope⟩

/-- The call is one of `reconcile_schedule` without a person's request. -/
def ModuleCall (_ : Int) (a : WriteAct) (_ : List ScheduleRow) : Prop :=
  match a with
  | .reconcile _ _ none _ _ _ => True
  | _ => False

namespace PersonScheduleAux

variable {env : Env} {now : Int} {fault : Option Raised} {a : ReconcileArgs} {o : Owned} {row : ScheduleRow}
  {data : ScheduleData}

/-- The row is the one of the call's owner and key. -/
structure OwnedBy (o : Owned) (row : ScheduleRow) : Prop where
  type : row.ownerType = .module
  module : row.ownerModule = o.module
  key : row.ownerKey = o.key

/-- The owner columns of the row are already those of the call. -/
theorem assign_eq (h : OwnedBy o row) : (Draft.ofRow row).assign o data = (Draft.ofRow row).setFields data := by
  unfold Draft.assign
  rw [← h.module, ← h.key, ← h.type]
  rfl

/-- The refusal puts the row back exactly as it was loaded. -/
theorem restore_complete (h : OwnedBy o row) (data : ScheduleData) (anchor : Value) (previous : Option Draft) :
    (Draft.ofRow row).restore (((Draft.ofRow row).assign o data).complete o anchor previous) = Draft.ofRow row := by
  rw [assign_eq h]
  unfold Draft.complete Draft.clearInterval Draft.markValid
  dsimp only
  split
  · split <;> rfl
  · split <;> rfl

/-- The later assignments touch no locked field before `run_at`, nor the two times. -/
theorem complete_early (s t : Draft) (anchor : Value) (previous : Option Draft) :
    s.earlyChanged (t.complete o anchor previous) = s.earlyChanged t ∧ (t.complete o anchor previous).runAt = t.runAt ∧
      (t.complete o anchor previous).runTime = t.runTime := by
  unfold Draft.complete Draft.clearInterval Draft.markValid
  dsimp only
  split
  · split <;> exact ⟨rfl, rfl, rfl⟩
  · split <;> exact ⟨rfl, rfl, rfl⟩

/-- A comparison of times raises only at one of the two times. -/
theorem timeChanged_error_iff {comparable : Value → Except Raised Comparable} {v old : Value} {c : Comparable}
    (hold : comparable old = .ok c) :
    (∃ e, timeChanged comparable (some v) old = .error e) ↔ ∃ e, comparable v = .error e := by
  have heq : timeChanged comparable (some v) old = (comparable v >>= fun a => Except.ok (a != c)) := by
    simp only [timeChanged, hold, ok_bind]
    rfl
  rw [heq]
  cases hv : comparable v with
  | error e => exact ⟨fun _ => ⟨e, rfl⟩, fun _ => ⟨e, rfl⟩⟩
  | ok b =>
    constructor
    · rintro ⟨e, he⟩
      cases he
    · rintro ⟨e, he⟩
      cases he

theorem comparableMoment_ofMoment (rt : Runtime) (t : Option Int) : ∃ c, comparableMoment rt (.ofMoment t) = .ok c := by
  cases t with
  | none => exact ⟨_, rfl⟩
  | some t => exact ⟨_, rfl⟩

theorem comparableTime_ofRunTime (rt : Runtime) (t : Option RunTime) : ∃ c, comparableTime rt (.ofRunTime t) = .ok c := by
  cases t with
  | none => exact ⟨_, rfl⟩
  | some t => exact ⟨_, rfl⟩

/-- The comparison of the locked fields raises exactly when it reaches a text time that raises. -/
theorem lockedChanged_error_iff (rt : Runtime) (row : ScheduleRow) {s : Draft} (hat : s.runAt = a.runAt)
    (htime : s.runTime = a.runTime) :
    (∃ e, lockedChanged rt (Draft.ofRow row) s = .error e) ↔
      (Draft.ofRow row).earlyChanged s = false ∧ TimeRaises rt a row := by
  obtain ⟨c, hc⟩ := comparableMoment_ofMoment rt row.runAt
  obtain ⟨c', hc'⟩ := comparableTime_ofRunTime rt row.runTime
  have hmoment := timeChanged_error_iff (v := a.runAt) hc
  have hrunTime := timeChanged_error_iff (v := a.runTime) hc'
  unfold lockedChanged TimeRaises
  rw [hat, htime]
  cases hearly : (Draft.ofRow row).earlyChanged s with
  | true =>
    constructor
    · rintro ⟨e, he⟩
      cases he
    · rintro ⟨hfalse, _⟩
      cases hfalse
  | false =>
    simp only [Bool.false_eq_true, if_false, true_and]
    rw [← hmoment, ← hrunTime]
    show (∃ e, (timeChanged (comparableMoment rt) (some a.runAt) (.ofMoment row.runAt) >>= _) = Except.error e) ↔ _
    cases hfirst : timeChanged (comparableMoment rt) (some a.runAt) (.ofMoment row.runAt) with
    | error e => exact ⟨fun _ => Or.inl ⟨e, rfl⟩, fun _ => ⟨e, rfl⟩⟩
    | ok changed =>
      cases changed with
      | true =>
        constructor
        · rintro ⟨e, he⟩
          cases he
        · rintro (⟨e, he⟩ | ⟨hfalse, _⟩)
          · cases he
          · cases hfalse
      | false =>
        show (∃ e, (timeChanged (comparableTime rt) (some a.runTime) (.ofRunTime row.runTime) >>= _) = Except.error e) ↔ _
        cases hsecond : timeChanged (comparableTime rt) (some a.runTime) (.ofRunTime row.runTime) with
        | error e => exact ⟨fun _ => Or.inr ⟨rfl, e, rfl⟩, fun _ => ⟨e, rfl⟩⟩
        | ok changed =>
          constructor
          · rintro ⟨e, he⟩
            cases changed <;> cases he
          · rintro (⟨e, he⟩ | ⟨_, e, he⟩)
            · cases he
            · cases he

/-- A time that raises is a text, and no stored time is loaded as a text. -/
theorem ne_of_timeRaises {s : Draft} {rt : Runtime} (hat : s.runAt = a.runAt) (htime : s.runTime = a.runTime)
    (h : TimeRaises rt a row) : s ≠ Draft.ofRow row := by
  intro heq
  rcases h with ⟨e, he⟩ | ⟨_, e, he⟩
  · obtain ⟨c, hc⟩ := comparableMoment_ofMoment rt row.runAt
    rw [← hat, heq] at he
    cases hc.symm.trans he
  · obtain ⟨c, hc⟩ := comparableTime_ofRunTime rt row.runTime
    rw [← htime, heq] at he
    cases hc.symm.trans he

/-- The two times of the data are those of the call. -/
theorem reconcileData_times {existing : Option ScheduleRow} (h : reconcileData env a o existing = .ok data) :
    data.runAt = some a.runAt ∧ data.runTime = some a.runTime := by
  unfold reconcileData at h
  obtain ⟨checked, hchecked, h⟩ := bind_ok h
  obtain ⟨targets, _, h⟩ := bind_ok h
  obtain ⟨_, _, h⟩ := bind_ok h
  obtain ⟨_, _, h⟩ := bind_ok h
  obtain ⟨_, _, h⟩ := bind_ok h
  obtain ⟨_, _, h⟩ := bind_ok h
  obtain ⟨_, _, h⟩ := bind_ok h
  cases h
  exact ⟨(validated_of_ok hchecked).runAt, (validated_of_ok hchecked).runTime⟩

/-- A row that is not written keeps its locked fields. -/
theorem lockedKept_refl (row : ScheduleRow) : LockedKept row row :=
  ⟨rfl, rfl, rfl, rfl, rfl, Or.inl rfl, rfl, rfl, rfl, rfl, rfl⟩

/-- Switching off keeps the rule unless its save fails. -/
theorem leaves_switchPersonOff_iff : LeavesSchedule row (switchPersonOff now fault row) ↔ ¬ (row.enabled = true ∧ fault ≠ none) := by
  unfold switchPersonOff
  by_cases hon : row.enabled = true
  · rw [if_pos hon]
    cases fault with
    | none =>
      refine ⟨fun _ h => h.2 rfl, fun _ => ?_⟩
      exact ⟨rfl, rfl, rfl, rfl, rfl, Or.inr ⟨hon, rfl⟩, rfl, rfl, rfl, rfl, rfl⟩
    | some e =>
      refine ⟨fun h => ?_, fun h => absurd ⟨hon, fun hnone => by cases hnone⟩ h⟩
      have hsame := congrArg (fun d : Draft => d.row.enabled) (Option.some.inj h.2)
      have hrow : false = row.enabled := hsame
      rw [hon] at hrow
      cases hrow
  · rw [if_neg hon]
    exact ⟨fun _ h => hon h.1, fun _ => lockedKept_refl row⟩

/-- The assignments keep the rule unless one of them or the comparison after them raises. -/
theorem leaves_assign_iff {id : String} (howned : OwnedBy o row) (hcreator : creatorName env row ≠ "")
    (hdata : reconcileData env a o (some row) = .ok data) :
    LeavesSchedule row (reconcileAssign env now fault a o (some row) id data none) ↔
      ¬ ((∃ e, anchorAttribute (reconcileAnchor now a (some row)) = .error e) ∧
          (Draft.ofRow row).setFields data ≠ Draft.ofRow row) ∧
        ¬ ((∃ v, anchorAttribute (reconcileAnchor now a (some row)) = .ok v) ∧
          (Draft.ofRow row).earlyChanged ((Draft.ofRow row).setFields data) = false ∧ TimeRaises env.toRuntime a row) := by
  obtain ⟨hat, htime⟩ := reconcileData_times hdata
  unfold reconcileAssign
  simp only [Option.map_some, Option.getD_some]
  rw [assign_eq howned]
  cases hanchor : anchorAttribute (reconcileAnchor now a (some row)) with
  | error e =>
    simp only [LeavesSchedule, true_and, Option.some.injEq]
    constructor
    · intro heq
      exact ⟨fun h => h.2 heq, fun h => h.1.elim fun _ he => (by cases he)⟩
    · rintro ⟨hsame, _⟩
      by_contra hne
      exact hsame ⟨⟨e, rfl⟩, hne⟩
  | ok anchor =>
    dsimp only
    obtain ⟨hearly, hatKept, htimeKept⟩ := complete_early (o := o) (Draft.ofRow row) ((Draft.ofRow row).setFields data) anchor
      (some (Draft.ofRow row))
    have hrestore := restore_complete howned data anchor (some (Draft.ofRow row))
    rw [assign_eq howned] at hrestore
    generalize ((Draft.ofRow row).setFields data).complete o anchor (some (Draft.ofRow row)) = s at *
    have hrunAt : s.runAt = a.runAt := by simp [hatKept, Draft.setFields, hat]
    have hrunTime : s.runTime = a.runTime := by simp [htimeKept, Draft.setFields, htime]
    have herror := lockedChanged_error_iff env.toRuntime row hrunAt hrunTime
    rw [hearly] at herror
    cases hchanged : lockedChanged env.toRuntime (Draft.ofRow row) s with
    | error e =>
      have hraises := herror.1 ⟨e, hchanged⟩
      simp only [LeavesSchedule, true_and, Option.some.injEq]
      constructor
      · intro heq
        exact absurd heq (ne_of_timeRaises hrunAt hrunTime hraises.2)
      · rintro ⟨_, hnot⟩
        exact absurd ⟨⟨anchor, rfl⟩, hraises⟩ hnot
    | ok changed =>
      have hquiet : ¬ ((Draft.ofRow row).earlyChanged ((Draft.ofRow row).setFields data) = false ∧
          TimeRaises env.toRuntime a row) := by
        intro hraises
        obtain ⟨e, he⟩ := herror.2 hraises
        rw [hchanged] at he
        cases he
      dsimp only
      rw [if_neg (show ¬ creatorName env (Draft.ofRow row).row = "" from hcreator)]
      refine ⟨fun _ => ⟨fun h => h.1.elim fun _ he => (by cases he), fun h => hquiet h.2⟩, fun _ => ?_⟩
      cases changed with
      | true =>
        rw [if_pos rfl, hrestore]
        exact ⟨rfl, rfl⟩
      | false => exact lockedKept_refl row

/-- What a call without a request does to the rule: it fails exactly when the call raises midway. -/
theorem leaves_reconcileRow_iff {removed : Bool} {id : String} (howned : OwnedBy o row) (hcreator : creatorName env row ≠ "") :
    LeavesSchedule row (reconcileRow env now fault a o none removed id (some row)) ↔ ¬ RaisesMidway env now fault a o row := by
  unfold reconcileRow
  simp only [Option.isNone_some, Bool.false_and, Bool.false_eq_true, if_false]
  cases hdata : reconcileData env a o (some row) with
  | error e =>
    have hquiet : ¬ RaisesMidway env now fault a o row := by
      rintro (⟨_, h, _⟩ | ⟨_, h, _⟩ | ⟨_, h, _⟩) <;> cases hdata.symm.trans h
    exact ⟨fun _ => hquiet, fun _ => ⟨rfl, rfl⟩⟩
  | ok data =>
    have hsame : ∀ {data'}, reconcileData env a o (some row) = .ok data' → data' = data :=
      fun h => Except.ok.inj (h.symm.trans hdata)
    cases hon : o.enabled with
    | false =>
      simp only [ne_eq, hcreator, not_false_eq_true, and_self, if_true]
      rw [leaves_switchPersonOff_iff]
      refine not_congr ⟨fun h => .save data hdata hon h.1 h.2, ?_⟩
      rintro (⟨_, _, _, hrow, hfault⟩ | ⟨_, _, hon', _⟩ | ⟨_, _, hon', _⟩)
      · exact ⟨hrow, hfault⟩
      · cases hon.symm.trans hon'
      · cases hon.symm.trans hon'
    | true =>
      simp only [ne_eq, hcreator, not_false_eq_true, Bool.true_eq_false, and_false, if_false]
      rw [leaves_assign_iff howned hcreator hdata, ← not_or]
      refine not_congr ⟨?_, ?_⟩
      · rintro (⟨hanchor, hne⟩ | ⟨hanchor, hearly, htime⟩)
        · exact .anchor data hdata hon hanchor hne
        · exact .time data hdata hon hanchor hearly htime
      · rintro (⟨_, _, hoff, _⟩ | ⟨_, h, _, hanchor, hne⟩ | ⟨_, h, _, hanchor, hearly, htime⟩)
        · cases hon.symm.trans hoff
        · exact Or.inl ⟨hanchor, hsame h ▸ hne⟩
        · exact Or.inr ⟨hanchor, hsame h ▸ hearly, htime⟩

/-! ### The person's columns -/

/-- The assignments do not touch the person's columns. -/
theorem person_complete (s : Draft) (anchor : Value) (previous : Option Draft) :
    ((s.assign o data).complete o anchor previous).row.person = s.row.person := by
  unfold Draft.complete Draft.clearInterval Draft.markValid
  dsimp only
  split
  · split <;> rfl
  · split <;> rfl

/-- A saved row has the person's columns of the row in memory. -/
theorem person_saved {rt : Runtime} {s : Draft} {saved : ScheduleRow} (h : StoredFrom rt s saved) : saved.person = s.row.person := by
  rw [h.rest]
  rfl

/-- A call without a request keeps the person's columns of the row it saves. -/
theorem person_reconcileRow {removed : Bool} {id : String} {saved : ScheduleRow}
    (h : (reconcileRow env now fault a o none removed id (some row)).saved = some saved) : saved.person = row.person := by
  have hassign : ∀ {data}, (reconcileAssign env now fault a o (some row) id data none).saved = some saved →
      saved.person = row.person := by
    intro data h
    unfold reconcileAssign saveReconciled at h
    dsimp only [Option.map_some, Option.getD_some] at h
    split at h
    · cases h
    · split at h
      · cases h
      · split at h
        · split at h
          · rename_i hok
            cases h
            exact (person_saved (saved_of_ok hok)).trans (person_complete _ _ _)
          · cases h
        · split at h <;> cases h
      · rename_i hperson
        cases hperson
  unfold reconcileRow at h
  dsimp only at h
  split at h
  · cases h
  · split at h
    · cases h
    · split at h
      · unfold switchPersonOff at h
        split at h
        · split at h
          · cases h
          · cases h
            rfl
        · cases h
      · exact hassign h

/-- The table has an id once, and its rows begin with those of `people`. -/
def Holds (people : List PersonColumns) (rows : List ScheduleRow) : Prop :=
  (rows.map (·.id)).Nodup ∧ people <+: rows.map (·.person)

/-- Replacing a row by one with its person's columns leaves the columns of the table. -/
theorem persons_replace {rows : List ScheduleRow} {old new : ScheduleRow} (hnodup : (rows.map (·.id)).Nodup)
    (hmem : old ∈ rows) (hsame : new.person = old.person) :
    (ScheduleTable.replace new rows).map (·.person) = rows.map (·.person) := by
  unfold ScheduleTable.replace
  rw [List.map_map]
  refine List.map_congr_left ?_
  intro r hr
  have hid : new.id = old.id := congrArg PersonColumns.id hsame
  dsimp only [Function.comp]
  split
  · rename_i heq
    have hrow : r = old := List.inj_on_of_nodup_map hnodup hr hmem (heq.trans hid)
    rw [hsame, hrow]
  · rfl

/-- The ids of the table are part of its person's columns. -/
theorem ids_eq (rows : List ScheduleRow) : rows.map (·.id) = (rows.map (·.person)).map (·.id) := by
  rw [List.map_map]
  rfl

/-- One call without a request keeps the person's columns of every row. -/
theorem holds_step {people : List PersonColumns} {act : WriteAct} {rows : List ScheduleRow} (hcall : ModuleCall now act rows)
    (h : Holds people rows) : Holds people (ScheduleTable.step now act rows) := by
  cases act with
  | post => exact hcall.elim
  | patch => exact hcall.elim
  | reconcile env args request removed id fault =>
    cases request with
    | some request => exact hcall.elim
    | none =>
      unfold ScheduleTable.step
      dsimp only
      split
      · exact h
      · rename_i o _
        cases hfound : ScheduleTable.owned o rows with
        | none =>
          cases (reconcileRow env now fault args o none removed id none).saved with
          | none => exact h
          | some saved =>
            show Holds people (if saved.id ∈ rows.map (·.id) then rows else rows ++ [saved])
            split
            · exact h
            · rename_i hnew
              refine ⟨?_, ?_⟩
              · rw [List.map_append, List.nodup_append]
                refine ⟨h.1, by simp, ?_⟩
                intro x hx y hy heq
                rw [List.map_singleton, List.mem_singleton] at hy
                exact hnew (hy ▸ heq ▸ hx)
              · rw [List.map_append]
                exact h.2.trans (List.prefix_append _ _)
        | some row =>
          cases hsaved : (reconcileRow env now fault args o none removed id (some row)).saved with
          | none => exact h
          | some saved =>
            have hkept := persons_replace h.1 (List.mem_of_find?_eq_some hfound) (person_reconcileRow hsaved)
            show Holds people (ScheduleTable.replace saved rows)
            refine ⟨?_, ?_⟩
            · rw [ids_eq, hkept, ← ids_eq]
              exact h.1
            · rw [hkept]
              exact h.2

end PersonScheduleAux

/-- A module cannot rewire a person's schedule: a call without a request, for a module's schedule with a stored creator,
leaves the schedule exactly when it does not raise after its first assignment; and no sequence of such calls changes a
creator, a confirmer or a stored scope. -/
theorem module_leaves_person_schedule_iff (env : Env) (now : Int) (fault : Option Raised) (a : ReconcileArgs) (o : Owned)
    (removed : Bool) (id : String) (row : ScheduleRow) (_ho : reconcileOwner env a = .ok o) (htype : row.ownerType = .module)
    (hmodule : row.ownerModule = o.module) (hkey : row.ownerKey = o.key) (hcreator : creatorName env row ≠ "")
    (rows : List ScheduleRow) (clock : Int) (es : List (Event WriteAct)) (hids : (rows.map (·.id)).Nodup)
    (hcalls : Along ScheduleTable.step ModuleCall ⟨clock, rows⟩ es) :
    (LeavesSchedule row (reconcileRow env now fault a o none removed id (some row)) ↔ ¬ RaisesMidway env now fault a o row) ∧
      rows.map (·.person) <+: (exec ScheduleTable.step ⟨clock, rows⟩ es).state.map (·.person) := by
  refine ⟨PersonScheduleAux.leaves_reconcileRow_iff ⟨htype, hmodule, hkey⟩ hcreator, ?_⟩
  have hholds := exec_invariant (P := fun _ rows' => PersonScheduleAux.Holds (rows.map ScheduleRow.person) rows')
    (fun _ _ _ _ hcall h => PersonScheduleAux.holds_step hcall h) ⟨hids, List.prefix_refl _⟩ hcalls
  exact hholds.2

/-- A daily schedule of the module that Alice created. -/
def samplePersonRow : ScheduleRow where
  id := "s1"
  name := "Nightly"
  moduleId := "backup"
  actionId := "backup.run"
  scheduleType := .daily
  runTime := some ⟨3, 0, RunTime.at_three, RunTime.on_the_hour⟩
  targets := .obj [("type", .str "none")]
  ownerType := .module
  ownerModule := "backup"
  ownerKey := "nightly"
  createdById := some 1
  createdBy := "alice"
  confirmedBy := "alice"
  updatedAt := 0

/-- The owner of `sampleCall`. -/
def sampleOwner : Owned := ⟨"backup", "nightly", sampleAction, true⟩

theorem module_leaves_person_schedule_iff_sample :
    (LeavesSchedule samplePersonRow (reconcileRow sampleEnv 0 none sampleCall sampleOwner none false "s2" (some samplePersonRow)) ↔
        ¬ RaisesMidway sampleEnv 0 none sampleCall sampleOwner samplePersonRow) ∧
      [samplePersonRow].map (·.person) <+: (exec ScheduleTable.step ⟨0, [samplePersonRow]⟩
        [⟨0, .reconcile sampleEnv { sampleCall with enabled := .json (.bool false) } none false "s2" none⟩]).state.map (·.person) :=
  module_leaves_person_schedule_iff sampleEnv 0 none sampleCall sampleOwner false "s2" samplePersonRow rfl rfl rfl rfl (by decide)
    [samplePersonRow] 0 _ (by simp) ⟨trivial, trivial⟩

/-- A call with the time 25:00 raises, and the row in memory then holds that text. -/
theorem text_time_leaves_row_changed :
    reconcileOwner sampleEnv { sampleCall with runTime := .text "25:00" } = .ok sampleOwner ∧
      creatorName sampleEnv samplePersonRow ≠ "" ∧
      ¬ LeavesSchedule samplePersonRow (reconcileRow sampleEnv 0 none { sampleCall with runTime := .text "25:00" } sampleOwner none
        false "s2" (some samplePersonRow)) := by
  refine ⟨rfl, by decide, ?_⟩
  intro h
  have hmemory : (reconcileRow sampleEnv 0 none { sampleCall with runTime := .text "25:00" } sampleOwner none false "s2"
      (some samplePersonRow)).memory = some (Draft.ofRow samplePersonRow) := h.2
  exact absurd hmemory (by decide +kernel)

end TecTac
