import Mathlib
import TecTac.RemovedSchedules
import TecTac.Lemmas.ScheduleEdit

/-!
# A removed schedule stays away

`reconcile_schedule` runs at every start of a module. A schedule that an administrator removed is remembered in the transaction that deletes it, and nothing
adds a schedule under that owner and key while it is remembered.
-/

namespace TecTac.RemovedSchedules

open Raise

namespace RemovedStaysAux

/-- What of a row no save changes. -/
structure Tag where
  id : String
  type : OwnerType
  module : String
  key : String

def tag (row : ScheduleRow) : Tag := ⟨row.id, row.ownerType, row.ownerModule, row.ownerKey⟩

/-! ### The owner of a saved row -/

theorem tag_saved {rt : Runtime} {s : Draft} {row : ScheduleRow} (h : StoredFrom rt s row) : tag row = tag s.row := by
  rw [h.rest]
  rfl

theorem tag_complete (o : Owned) (data : ScheduleData) (anchor : Value) (previous : Option Draft) (s : Draft) :
    tag ((s.assign o data).complete o anchor previous).row = ⟨s.row.id, .module, o.module, o.key⟩ := by
  unfold Draft.complete Draft.clearInterval Draft.markValid
  dsimp only
  split
  · split <;> rfl
  · split <;> rfl

theorem tag_confirmedBy (env : Env) (person : Person) (existing : Option ScheduleRow) (takeover : Bool) (s : Draft) :
    tag (s.confirmedBy env person existing takeover).row = tag s.row := by
  unfold Draft.confirmedBy
  dsimp only
  split
  · split <;> rfl
  · split <;> rfl

section Reconcile

variable {env : Env} {now : Int} {fault : Option Raised} {a : ReconcileArgs} {o : Owned} {request : Option (Except Raised Person)} {removed : Bool}
  {id : String} {existing : Option ScheduleRow} {row : ScheduleRow}

theorem tag_saveReconciled {loaded : Option Draft} {s : Draft} (h : (saveReconciled env now fault loaded s).saved = some row) : tag row = tag s.row := by
  unfold saveReconciled at h
  split at h
  · rename_i hok
    cases h
    exact tag_saved (saved_of_ok hok)
  · cases h

theorem tag_assign {data : ScheduleData} {person : Option (Person × Bool)} (h : (reconcileAssign env now fault a o existing id data person).saved = some row) :
    tag row = ⟨existing.elim id (·.id), .module, o.module, o.key⟩ := by
  have hid : ((existing.map Draft.ofRow).getD (.ofRow (newModuleRow o id now))).row.id = existing.elim id (·.id) := by
    cases existing <;> rfl
  unfold reconcileAssign at h
  dsimp only at h
  split at h
  · cases h
  · split at h
    · cases h
    · split at h
      · rw [tag_saveReconciled h, tag_complete, hid]
      · split at h
        · rw [tag_saveReconciled h, tag_complete, hid]
        · split at h <;> cases h
    · rw [tag_saveReconciled h, tag_confirmedBy, tag_complete, hid]

/-- The row that a call saves is that of its owner and key; a new one is saved only where no removal is remembered, or for a person. -/
theorem tag_reconcileRow (hmodule : ∀ old, existing = some old → tag old = ⟨old.id, .module, o.module, o.key⟩)
    (h : (reconcileRow env now fault a o request removed id existing).saved = some row) :
    tag row = ⟨existing.elim id (·.id), .module, o.module, o.key⟩ ∧ (existing = none → request = none → removed = false) := by
  unfold reconcileRow at h
  dsimp only at h
  split at h
  · cases h
  · rename_i hallowed
    refine ⟨?_, ?_⟩
    · split at h
      · cases h
      · split at h
        · split at h
          · cases h
          · exact tag_assign h
        · split at h
          · rename_i old _
            split at h
            · unfold switchPersonOff at h
              split at h
              · split at h
                · cases h
                · cases h
                  exact hmodule old rfl
              · cases h
            · exact tag_assign h
          · exact tag_assign h
    · rintro rfl rfl
      simp only [Option.isNone_none, Bool.true_and, Bool.or_eq_true, not_or, Bool.not_eq_true] at hallowed
      exact hallowed.2

theorem not_oneOff_of_owner (h : reconcileOwner env a = .ok o) : o.module ≠ "" ∧ o.key ≠ "" ∧ isOneOffKey o.key = false := by
  unfold reconcileOwner at h
  obtain ⟨owner, howner, h⟩ := bind_ok h
  dsimp only at h
  obtain ⟨_, hoff, h⟩ := bind_ok h
  obtain ⟨action, -, h⟩ := bind_ok h
  obtain ⟨_, -, h⟩ := bind_ok h
  unfold validateOwner at howner
  obtain ⟨_, hmodule, howner⟩ := bind_ok howner
  obtain ⟨_, hkey, howner⟩ := bind_ok howner
  obtain ⟨_, -, howner⟩ := bind_ok howner
  obtain ⟨_, -, howner⟩ := bind_ok howner
  cases howner
  split at h
  · cases h
    exact ⟨by simpa using of_require hmodule, by simpa using of_require hkey, by simpa using of_require hoff⟩
  · cases h

end Reconcile

/-! ### The table -/

/-- What holds of the tags of the table and of what is remembered. -/
structure Kept (tags : List Tag) (removed : List (String × String)) : Prop where
  ids : (tags.map Tag.id).Nodup
  kind : ∀ t ∈ tags, t.type = .module ∧ t.module ≠ "" ∧ t.key ≠ "" ∨ t.type = .user ∧ t.module = ""
  owners : ∀ a ∈ tags, ∀ b ∈ tags, a.module ≠ "" → (a.module, a.key) = (b.module, b.key) → a.id = b.id
  gone : ∀ owner ∈ removed, owner.1 ≠ "" ∧ (isOneOffKey owner.2 = false → ∀ t ∈ tags, (t.module, t.key) ≠ owner)

variable {tags tags' : List Tag} {removed removed' : List (String × String)}

theorem kept_less (h : Kept tags removed) (htags : tags'.Sublist tags) (hremoved : removed' ⊆ removed) : Kept tags' removed' where
  ids := h.ids.sublist (htags.map _)
  kind := fun t ht => h.kind t (htags.subset ht)
  owners := fun a ha b hb => h.owners a (htags.subset ha) b (htags.subset hb)
  gone := fun owner ho => ⟨(h.gone owner (hremoved ho)).1, fun hkey t ht => (h.gone owner (hremoved ho)).2 hkey t (htags.subset ht)⟩

theorem kept_add (h : Kept tags removed) {t : Tag} (hid : t.id ∉ tags.map Tag.id)
    (hkind : t.type = .module ∧ t.module ≠ "" ∧ t.key ≠ "" ∨ t.type = .user ∧ t.module = "")
    (hfree : t.module ≠ "" → ∀ a ∈ tags, (a.module, a.key) ≠ (t.module, t.key)) (hgone : isOneOffKey t.key = false → (t.module, t.key) ∉ removed) :
    Kept (tags ++ [t]) removed where
  ids := by
    rw [List.map_append, List.map_singleton]
    exact h.ids.append (List.nodup_singleton _) (List.disjoint_singleton.2 hid)
  kind := fun a ha => by
    rcases List.mem_append.1 ha with ha | ha
    · exact h.kind a ha
    · exact List.mem_singleton.1 ha ▸ hkind
  owners := fun a ha b hb hne heq => by
    rcases List.mem_append.1 ha with ha | ha <;> rcases List.mem_append.1 hb with hb | hb
    · exact h.owners a ha b hb hne heq
    · cases List.mem_singleton.1 hb
      exact absurd heq (hfree (fun hempty => hne ((congrArg Prod.fst heq).trans hempty)) a ha)
    · cases List.mem_singleton.1 ha
      exact absurd heq.symm (hfree hne b hb)
    · rw [List.mem_singleton.1 ha, List.mem_singleton.1 hb]
  gone := fun owner ho => ⟨(h.gone owner ho).1, fun hkey a ha heq => by
    rcases List.mem_append.1 ha with ha | ha
    · exact (h.gone owner ho).2 hkey a ha heq
    · cases List.mem_singleton.1 ha
      subst heq
      exact hgone hkey ho⟩

theorem tags_delete (id : String) (rows : List ScheduleRow) : (deleteRow id rows).map tag = (rows.map tag).filter fun t => decide (t.id ≠ id) := by
  rw [List.filter_map]
  rfl

/-- A row that is saved in the place of one with its tag. -/
theorem tags_replace {rows : List ScheduleRow} (hids : ((rows.map tag).map Tag.id).Nodup) {row : ScheduleRow} (h : tag row ∈ rows.map tag) :
    (ScheduleTable.replace row rows).map tag = rows.map tag := by
  unfold ScheduleTable.replace
  rw [List.map_map]
  refine List.map_congr_left fun r hr => ?_
  dsimp only [Function.comp]
  split
  · rename_i hid
    exact (List.inj_on_of_nodup_map hids (List.mem_map_of_mem hr) h hid).symm
  · rfl

theorem remember_subset (row : ScheduleRow) (removed : List (String × String)) : removed ⊆ remember row removed := by
  unfold remember
  split
  · exact fun _ h => h
  · exact List.subset_append_left _ _

/-- The rows of the owner of a removed row go with it: they are the same row. -/
theorem kept_removed {rows : List ScheduleRow} (h : Kept (rows.map tag) removed) {row : ScheduleRow} (hrow : row ∈ rows) :
    Kept ((deleteRow row.id rows).map tag) (remember row removed) := by
  have hless := kept_less h (tags_delete row.id rows ▸ List.filter_sublist) (List.Subset.refl removed)
  refine { hless with gone := fun owner ho => ?_ }
  unfold remember at ho
  split at ho
  · exact hless.gone owner ho
  · rename_i hnamed
    rcases List.mem_append.1 ho with ho | ho
    · exact hless.gone owner ho
    · have hmodule : row.ownerModule ≠ "" := fun hempty => hnamed (Or.inr (Or.inl hempty))
      rw [List.mem_singleton.1 ho]
      refine ⟨hmodule, fun _ t ht heq => ?_⟩
      rw [tags_delete, List.mem_filter, decide_eq_true_eq] at ht
      exact ht.2 (h.owners (tag row) (List.mem_map_of_mem hrow) t ht.1 hmodule heq.symm).symm

theorem rowOf_spec {owner : String × String} {rows : List ScheduleRow} {row : ScheduleRow} (h : rowOf owner rows = some row) : row ∈ rows ∧ ownerOf row = owner := by
  have hfound : row.ownerModule = owner.1 ∧ row.ownerKey = owner.2 := by simpa using List.find?_some h
  exact ⟨List.mem_of_find?_eq_some h, Prod.ext hfound.1 hfound.2⟩

theorem not_mem_of_rowOf {owner : String × String} {rows : List ScheduleRow} (h : rowOf owner rows = none) : ∀ t ∈ rows.map tag, (t.module, t.key) ≠ owner := by
  intro t ht heq
  obtain ⟨row, hrow, rfl⟩ := List.mem_map.1 ht
  have hnone := List.find?_eq_none.1 h row hrow
  subst heq
  simp [tag] at hnone

def Sound (s : Shelf) : Prop := Kept (s.rows.map tag) s.removed

theorem sound_reconcile {s : Shelf} (h : Sound s) (now : Int) (env : Env) (args : ReconcileArgs) (request : Option (Except Raised Person)) (id : String)
    (fault : Option Raised) : Sound (reconcile now env args request id fault s) := by
  unfold reconcile
  split
  · exact h
  · rename_i o howner
    obtain ⟨hmodule, hkey, hplain⟩ := not_oneOff_of_owner howner
    dsimp only
    split
    · exact h
    · rename_i row hsaved
      split
      · exact h
      · rename_i hfresh
        have hless : (if request.isSome then clearRemoved (o.module, o.key) s.removed else s.removed) ⊆ s.removed := by
          split
          · exact List.filter_sublist.subset
          · exact List.Subset.refl _
        cases hexisting : rowOf (o.module, o.key) s.rows with
        | none =>
          rw [hexisting] at hsaved hfresh
          obtain ⟨htag, hallowed⟩ := tag_reconcileRow (fun old hold => by cases hold) hsaved
          have hnew : row.id ∉ s.rows.map (·.id) := fun hmem => hfresh ⟨rfl, hmem⟩
          show Kept ((if row.id ∈ s.rows.map (·.id) then s.rows else s.rows ++ [row]).map tag) _
          rw [if_neg hnew, List.map_append, List.map_singleton, htag]
          rw [show row.id = id from congrArg Tag.id htag] at hnew
          refine kept_add (kept_less h (List.Sublist.refl _) hless) (by rwa [List.map_map]) (Or.inl ⟨rfl, hmodule, hkey⟩) (fun _ => not_mem_of_rowOf hexisting) fun _ => ?_
          cases request with
          | none => simpa using hallowed rfl rfl
          | some request => simp [clearRemoved]
        | some old =>
          rw [hexisting] at hsaved
          obtain ⟨hmem, howned⟩ := rowOf_spec hexisting
          have hold : tag old = ⟨old.id, .module, o.module, o.key⟩ := by
            rcases h.kind (tag old) (List.mem_map_of_mem hmem) with ⟨htype, -⟩ | ⟨-, hnone⟩
            · rw [tag, show old.ownerType = .module from htype, show old.ownerModule = o.module from congrArg Prod.fst howned,
                show old.ownerKey = o.key from congrArg Prod.snd howned]
            · exact absurd ((congrArg Prod.fst howned).symm.trans hnone) hmodule
          obtain ⟨htag, -⟩ := tag_reconcileRow (fun other hother => by cases hother; exact hold) hsaved
          have hsame : tag row ∈ s.rows.map tag := (htag.trans hold.symm) ▸ List.mem_map_of_mem hmem
          exact kept_less h (tags_replace h.ids hsame ▸ List.Sublist.refl _) hless

theorem tags_switchRowOff {s : Shelf} (h : Sound s) (now : Int) {row : ScheduleRow} (hrow : row ∈ s.rows) : (switchRowOff now row s.rows).map tag = s.rows.map tag :=
  tags_replace h.ids (show tag { row with enabled := false, updatedAt := now } ∈ s.rows.map tag from List.mem_map.2 ⟨row, hrow, rfl⟩)

theorem sound_step {s : Shelf} (h : Sound s) (now : Int) (e : Event) : Sound (step now s e) := by
  have hdelete (id : String) : ((deleteRow id s.rows).map tag).Sublist (s.rows.map tag) := tags_delete id s.rows ▸ List.filter_sublist
  cases e with
  | reconcile env args request id fault => exact sound_reconcile h now env args request id fault
  | disableOwned rt ownerModule ownerKey =>
    unfold step disableOwned
    dsimp only
    split
    · exact h
    · refine kept_less h ?_ List.filter_sublist.subset
      dsimp only
      split
      · exact List.Sublist.refl _
      · rename_i hrow
        split
        · exact tags_switchRowOff h now (rowOf_spec hrow).1 ▸ List.Sublist.refl _
        · exact List.Sublist.refl _
  | removeOwned rt ownerModule ownerKey busy =>
    unfold step removeOwned
    dsimp only
    split
    · exact h
    · split
      · exact kept_less h (List.Sublist.refl _) List.filter_sublist.subset
      · split
        · exact h
        · exact kept_less h (hdelete _) List.filter_sublist.subset
  | orphanSingle c id =>
    unfold step orphanSingle
    dsimp only
    split
    · exact h
    · rename_i row hrow
      split
      · exact h
      · unfold orphanApply
        split
        · exact kept_less h (tags_switchRowOff h now (List.mem_of_find?_eq_some hrow) ▸ List.Sublist.refl _) (List.Subset.refl _)
        · exact kept_removed h (List.mem_of_find?_eq_some hrow)
  | add row =>
    unfold step addRow
    dsimp only
    split
    · rename_i hnew
      obtain ⟨hid, hkind⟩ := hnew
      show Kept ((s.rows ++ [row]).map tag) s.removed
      rw [List.map_append]
      rcases hkind with ⟨htype, howner⟩ | howned
      · refine kept_add h (by rwa [List.map_map]) (Or.inr ⟨htype, congrArg Prod.fst howner⟩) (fun hne => absurd (congrArg Prod.fst howner) hne) fun _ hmem => ?_
        exact (h.gone _ hmem).1 (congrArg Prod.fst howner)
      · simp only [Bool.and_eq_true, decide_eq_true_eq, Option.isNone_iff_eq_none] at howned
        obtain ⟨⟨hnamed, hprefixed⟩, hfree⟩ := howned
        exact kept_add h (by rwa [List.map_map]) (Or.inl hnamed) (fun _ => not_mem_of_rowOf hfree) fun hplain => absurd (hplain.symm.trans hprefixed) Bool.false_ne_true
    · exact h
  | save id f =>
    refine kept_less h ?_ (List.Subset.refl _)
    show ((s.rows.map _).map tag).Sublist (s.rows.map tag)
    rw [List.map_map, List.map_congr_left fun r _ => ?_]
    dsimp only [Function.comp]
    split <;> rfl
  | delete id => exact kept_less h (hdelete id) (List.Subset.refl _)

/-- What is remembered stays, until a call gives the schedule back. -/
theorem remembered_step {s : Shelf} {owner : String × String} (ho : owner ∈ s.removed) {now : Int} {e : Event} (hquiet : ¬ GivesBack owner now s e) :
    owner ∈ (step now s e).removed := by
  cases e with
  | reconcile env args request id fault =>
    unfold step reconcile
    dsimp only
    split
    · exact ho
    · rename_i o howner
      split
      · exact ho
      · rename_i row hsaved
        split
        · exact ho
        · dsimp only
          split
          · rename_i hperson
            refine List.mem_filter.2 ⟨ho, decide_eq_true fun heq => hquiet ⟨hperson, o, howner, heq.symm, ?_⟩⟩
            rw [heq, hsaved]
            rfl
          · exact ho
  | disableOwned rt ownerModule ownerKey =>
    unfold step disableOwned
    dsimp only
    split
    · exact ho
    · rename_i hother
      exact List.mem_filter.2 ⟨ho, decide_eq_true fun heq => hquiet (hother.trans (congrArg Except.ok heq.symm))⟩
  | removeOwned rt ownerModule ownerKey busy =>
    unfold step removeOwned
    dsimp only
    split
    · exact ho
    · rename_i other hother
      have hkept : owner ∈ clearRemoved other s.removed := List.mem_filter.2 ⟨ho, decide_eq_true fun heq => hquiet (hother.trans (congrArg Except.ok heq.symm))⟩
      split
      · exact hkept
      · split
        · exact ho
        · exact hkept
  | orphanSingle c id =>
    unfold step orphanSingle
    dsimp only
    split
    · exact ho
    · split
      · exact ho
      · unfold orphanApply
        split
        · exact ho
        · exact remember_subset _ _ ho
  | add | save | delete => exact ho

theorem run_append (s : Shelf) (front back : List (Int × Event)) : run s (front ++ back) = run (run s front) back := List.foldl_append

theorem sound_run (events : List (Int × Event)) {s : Shelf} (h : Sound s) : Sound (run s events) := by
  induction events generalizing s with
  | nil => exact h
  | cons e events ih => exact ih (sound_step h e.1 e.2)

theorem away_of_remembered {events : List (Int × Event)} {owner : String × String} (hplain : isOneOffKey owner.2 = false) {s : Shelf} (h : Sound s)
    (ho : owner ∈ s.removed) (hquiet : Quiet owner s events) : ∀ row ∈ (run s events).rows, ownerOf row ≠ owner := by
  induction events generalizing s with
  | nil => exact fun row hrow => (h.gone owner ho).2 hplain (tag row) (List.mem_map_of_mem hrow)
  | cons e events ih => exact ih (sound_step h e.1 e.2) (remembered_step ho hquiet.1) hquiet.2

/-- A module's row that an administrator's call takes away is remembered. -/
theorem remembered_of_gone {s : Shelf} (h : Sound s) {now : Int} {c : OrphanCall} {id : String} {row : ScheduleRow} (hrow : row ∈ s.rows)
    (hmodule : row.ownerType = .module) (hgone : row.id ∉ (orphanSingle now c id s).rows.map (·.id)) : ownerOf row ∈ (orphanSingle now c id s).removed := by
  have hthere : row.id ∈ s.rows.map (·.id) := List.mem_map_of_mem hrow
  cases hfind : ScheduleTable.byId id s.rows with
  | none =>
    simp only [orphanSingle, hfind] at hgone
    exact absurd hthere hgone
  | some other =>
    have hother := List.mem_of_find?_eq_some hfind
    simp only [orphanSingle, hfind] at hgone ⊢
    split_ifs at hgone ⊢ with hrefused
    · exact absurd hthere hgone
    · cases hmode : c.mode with
      | disable =>
        have hids := congrArg (List.map Tag.id) (tags_switchRowOff h now hother)
        rw [List.map_map, List.map_map] at hids
        rw [hmode] at hgone
        exact absurd (hids ▸ hthere) hgone
      | remove =>
        rw [hmode] at hgone
        have hid : row.id = other.id := by
          by_contra hne
          exact hgone (List.mem_map_of_mem (List.mem_filter.2 ⟨hrow, decide_eq_true hne⟩))
        have hids := h.ids
        rw [List.map_map] at hids
        obtain rfl := List.inj_on_of_nodup_map hids hrow hother hid
        obtain ⟨-, hnamed, hkey⟩ | ⟨huser, -⟩ := h.kind (tag row) (List.mem_map_of_mem hrow)
        · show ownerOf row ∈ remember row s.removed
          unfold remember
          split
          · rename_i hkept
            rcases hkept with hne | hempty | hempty | hmem
            · exact absurd hmodule hne
            · exact absurd hempty hnamed
            · exact absurd hempty hkey
            · exact List.contains_iff_mem.1 hmem
          · exact List.mem_append_right _ (List.mem_singleton_self _)
        · cases hmodule.symm.trans huser

end RemovedStaysAux

/-- The calls come in any order. Once an administrator removed a schedule of a module, other than one of a one-off run, the table has no schedule of that
owner and key, until a person saves it in the module or the module itself switches it off or removes it. -/
theorem removed_schedule_stays_away (front back : List (Int × Event)) (now : Int) (c : OrphanCall) (id : String) (owner : String × String)
    (hplain : isOneOffKey owner.2 = false)
    (hgone : ∃ row ∈ (run empty front).rows, row.ownerType = .module ∧ ownerOf row = owner ∧ row.id ∉ (orphanSingle now c id (run empty front)).rows.map (·.id))
    (hquiet : Quiet owner (orphanSingle now c id (run empty front)) back) :
    ∀ row ∈ (run empty (front ++ (now, .orphanSingle c id) :: back)).rows, ownerOf row ≠ owner := by
  have hsound : RemovedStaysAux.Sound (run empty front) :=
    RemovedStaysAux.sound_run front (show RemovedStaysAux.Kept [] [] from
      ⟨List.nodup_nil, fun _ h => absurd h List.not_mem_nil, fun _ h => absurd h List.not_mem_nil, fun _ h => absurd h List.not_mem_nil⟩)
  obtain ⟨row, hrow, hmodule, rfl, hgone⟩ := hgone
  rw [RemovedStaysAux.run_append]
  show ∀ r ∈ (run (orphanSingle now c id (run empty front)) back).rows, ownerOf r ≠ ownerOf row
  exact RemovedStaysAux.away_of_remembered hplain (RemovedStaysAux.sound_step hsound now (.orphanSingle c id))
    (RemovedStaysAux.remembered_of_gone hsound hrow hmodule hgone) hquiet

/-- The administrator's call of the example: its module is not installed any more. -/
def sampleRemoval : OrphanCall := ⟨{ installed := some ["reports"] }, .remove, fun _ => true, fun _ => false, true⟩

/-- The module comes back and runs its start again. -/
theorem sample_removed_schedule_stays_away :
    ((run empty ([(0, .reconcile sampleEnv sampleCall none "s1" none)] ++ (1, .orphanSingle sampleRemoval "s1") ::
      [(2, .reconcile sampleEnv sampleCall none "s2" none)])).rows.all fun row => decide (ownerOf row ≠ ("backup", "nightly"))) = true :=
  List.all_eq_true.2 fun row hrow => decide_eq_true <|
    removed_schedule_stays_away [(0, .reconcile sampleEnv sampleCall none "s1" none)] [(2, .reconcile sampleEnv sampleCall none "s2" none)] 1 sampleRemoval
      "s1" ("backup", "nightly") (by decide +kernel) (by decide +kernel) ⟨fun h => Bool.false_ne_true h.1, trivial⟩ row hrow

end TecTac.RemovedSchedules
