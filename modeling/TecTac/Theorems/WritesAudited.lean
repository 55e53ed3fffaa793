import Mathlib
import TecTac.SystemWrites
import TecTac.Theorems.ProvenanceKept

/-!
# Only what was audited is written

The rows that are saved were locked when their decisions were compared, so they are what the audit rows say. But an audit row says it only as far as the audit log has room
for it.
-/

namespace TecTac

namespace SystemWrites

variable {Columns : Type}

/-- A stored row holds a change: the update, its decision before and after. -/
def Holds (row : Audit.StoredRow) (id : Nat) (before after : String) : Prop :=
  ∃ metadata changes, Dict.get "metadata" row.debugInfo = some (.dict metadata) ∧ Dict.get "changes" metadata = some (.list changes) ∧ line (id, before, after) ∈ changes

/-- The audit log has room for the row of a part. -/
def RowFits (context : AuditContext) (part parts : Nat) (chunk : List Planned) : Prop :=
  ∃ n a : Nat, JsonValue.bytes (.dict (Audit.original context.texts context.fresh (.record .null) (context.call part parts chunk))) = some n ∧ (n : Int) ≤ context.limit ∧
    JsonValue.bytes (.dict (context.metadata part parts chunk)) = some a ∧ (a : Int) ≤ Audit.budget context.limit

/-- What is promised of a group: every row that is saved is, when it is saved, what an audit row written before says of it; no other row and no other column changes; the
counts are those of the distinct updates; and a write that raises changes nothing. -/
structure GroupSafe (start : Store Columns) (group : List Nat) (result : GroupResult) (s : State Columns) : Prop where
  replayed : s.store = replay start s.history
  audited : ∀ before saves after, s.history = before ++ Event.committed saves :: after → ∀ save ∈ saves,
    replay start before save.id = some save.row ∧ ∃ row, .audited row ∈ before ∧ Holds row save.id save.row.text save.after
  saved : ∀ before saves after, s.history = before ++ Event.committed saves :: after → ∀ save ∈ saves,
    replay start (before ++ [Event.committed saves]) save.id = some { save.row with action := some save.after }
  others : ∀ before saves after, s.history = before ++ Event.committed saves :: after → ∀ id, (∀ save ∈ saves, save.id ≠ id) →
    replay start (before ++ [Event.committed saves]) id = replay start before id
  counts : ∀ outcome, result = .written outcome → outcome.written + outcome.unchanged + outcome.changedMeanwhile + outcome.vanished = group.dedup.length
  raised : (∀ outcome, result ≠ .written outcome) → ∀ saves, .committed saves ∉ s.history

namespace WriteAux

/-! ## Steps -/

theorem replay_append (start : Store Columns) (as bs : List (Event Columns)) : replay start (as ++ bs) = replay (replay start as) bs := List.foldl_append

/-- The rows are those of the history, and nothing is committed yet. -/
structure Quiet (start : Store Columns) (s : State Columns) : Prop where
  replayed : s.store = replay start s.history
  none : ∀ saves, .committed saves ∉ s.history

theorem Quiet.perform {start : Store Columns} {s : State Columns} (h : Quiet start s) {e : Event Columns} (he : ∀ saves, e ≠ .committed saves) : Quiet start (s.perform e) where
  replayed := by
    change e.apply s.store = replay start (s.history ++ [e])
    rw [replay_append, ← h.replayed]
    rfl
  none saves hmem := by
    rcases List.mem_append.1 hmem with hmem | hmem
    · exact h.none saves hmem
    · exact he saves (List.mem_singleton.1 hmem).symm

/-- What happened stays in the history. -/
def Grows (s s' : State Columns) : Prop := ∃ events, s'.history = s.history ++ events

theorem Grows.refl (s : State Columns) : Grows s s := ⟨[], (List.append_nil _).symm⟩

theorem Grows.trans {s s' s'' : State Columns} (h : Grows s s') (h' : Grows s' s'') : Grows s s'' := by
  obtain ⟨events, hevents⟩ := h
  obtain ⟨events', hevents'⟩ := h'
  exact ⟨events ++ events', by rw [hevents', hevents, List.append_assoc]⟩

theorem Grows.mem {s s' : State Columns} (h : Grows s s') {e : Event Columns} (he : e ∈ s.history) : e ∈ s'.history := by
  obtain ⟨events, hevents⟩ := h
  rw [hevents]
  exact List.mem_append_left _ he

/-- What a step of other writers leaves. -/
structure Elapsed (start : Store Columns) (locked : List Nat) (s s' : State Columns) : Prop where
  quiet : Quiet start s → Quiet start s'
  grows : Grows s s'
  locked : ∀ id ∈ locked, s'.store id = s.store id

theorem elapse_elapsed (start : Store Columns) (world : World Columns) (locked : List Nat) (s : State Columns) : Elapsed start locked s (s.elapse world locked) := by
  unfold State.elapse
  dsimp only
  have hchanges : ∀ change ∈ (world.others s.clock).filter (fun change => decide (change.1 ∉ locked)), change.1 ∉ locked :=
    fun change hchange => of_decide_eq_true (List.mem_filter.1 hchange).2
  generalize (world.others s.clock).filter (fun change => decide (change.1 ∉ locked)) = changes at hchanges
  have hstart : Elapsed start locked s { s with clock := s.clock + 1 } := ⟨fun h => ⟨h.replayed, h.none⟩, ⟨[], (List.append_nil _).symm⟩, fun _ _ => rfl⟩
  generalize ({ s with clock := s.clock + 1 } : State Columns) = s' at hstart
  induction changes generalizing s' with
  | nil => exact hstart
  | cons change changes ih =>
    refine ih (fun c hc => hchanges c (List.mem_cons_of_mem _ hc)) (s'.perform (.other change.1 change.2)) ⟨fun h => ?_, ?_, fun id hid => ?_⟩
    · exact (hstart.quiet h).perform nofun
    · exact hstart.grows.trans ⟨[_], rfl⟩
    · rw [← hstart.locked id hid]
      have hne : id ≠ change.1 := fun heq => hchanges change List.mem_cons_self (heq ▸ hid)
      exact if_neg hne

/-! ## Reading and auditing -/

theorem readActions_quiet {start : Store Columns} {world : World Columns} {blocks : List (List Nat)} {found : List (Nat × String)} {s : State Columns} (h : Quiet start s) :
    Quiet start (readActions world blocks found s).2 := by
  induction blocks generalizing found s with
  | nil => exact h
  | cons block blocks ih =>
    rw [readActions]
    have helapsed := (elapse_elapsed start world [] s).quiet h
    split
    · exact helapsed
    · exact ih helapsed

/-- The audit rows: the history keeps them all, and when all were written there is one for every part. -/
theorem writeAuditRows_spec {start : Store Columns} {world : World Columns} {context : AuditContext} {parts : Nat} {rows : List (Nat × List Planned)} {s : State Columns}
    (h : Quiet start s) :
    Quiet start (writeAuditRows world context parts rows s).2 ∧ Grows s (writeAuditRows world context parts rows s).2 ∧
      ((writeAuditRows world context parts rows s).1 = true → ∀ p ∈ rows, ∃ row, context.row p.1 parts p.2 = .ok row ∧
        .audited row ∈ (writeAuditRows world context parts rows s).2.history) := by
  induction rows generalizing s with
  | nil => exact ⟨h, .refl s, fun _ => nofun⟩
  | cons p rows ih =>
    obtain ⟨part, chunk⟩ := p
    have helapsed := elapse_elapsed start world [] s
    simp only [writeAuditRows]
    split
    · exact ⟨helapsed.quiet h, helapsed.grows, nofun⟩
    · rename_i row hrow
      split
      · exact ⟨helapsed.quiet h, helapsed.grows, nofun⟩
      · obtain ⟨hquiet, hgrows, hall⟩ := ih ((helapsed.quiet h).perform (e := .audited row) nofun)
        have hperform : Grows (s.elapse world []) ((s.elapse world []).perform (.audited row)) := ⟨[.audited row], rfl⟩
        refine ⟨hquiet, helapsed.grows.trans (hperform.trans hgrows), fun htrue q hq => ?_⟩
        rcases List.mem_cons.1 hq with rfl | hq
        · exact ⟨row, hrow, hgrows.mem (List.mem_append_right _ (List.mem_singleton_self _))⟩
        · exact hall htrue q hq

/-! ## Locking and saving -/

/-- Locked rows are the rows of the table. -/
def Locked (rows : List (Nat × UpdateRow Columns)) (s : State Columns) : Prop := ∀ p ∈ rows, s.store p.1 = some p.2

theorem Locked.elapse (start : Store Columns) {world : World Columns} {rows : List (Nat × UpdateRow Columns)} {s : State Columns} (h : Locked rows s) :
    Locked rows (s.elapse world (rows.map Prod.fst)) := by
  intro p hp
  rw [(elapse_elapsed start world (rows.map Prod.fst) s).locked p.1 (List.mem_map_of_mem hp)]
  exact h p hp

theorem lockRows_spec {start : Store Columns} {world : World Columns} {blocks : List (List Nat)} {rows : List (Nat × UpdateRow Columns)} {s : State Columns}
    (h : Quiet start s) (hlocked : Locked rows s) :
    Quiet start (lockRows world blocks rows s).2 ∧ Grows s (lockRows world blocks rows s).2 ∧
      ∀ rows', (lockRows world blocks rows s).1 = some rows' → Locked rows' (lockRows world blocks rows s).2 := by
  induction blocks generalizing rows s with
  | nil =>
    refine ⟨h, .refl s, fun rows' hrows' => ?_⟩
    obtain rfl := Option.some.inj hrows'
    exact hlocked
  | cons block blocks ih =>
    have helapsed := elapse_elapsed start world (rows.map Prod.fst) s
    rw [lockRows]
    split
    · exact ⟨helapsed.quiet h, helapsed.grows, nofun⟩
    · have hmore : Locked (rows ++ block.filterMap fun id => ((s.elapse world (rows.map Prod.fst)).store id).map fun row => (id, row)) (s.elapse world (rows.map Prod.fst)) := by
        intro p hp
        rcases List.mem_append.1 hp with hp | hp
        · exact hlocked.elapse start p hp
        · obtain ⟨id, -, hid⟩ := List.mem_filterMap.1 hp
          obtain ⟨row, hrow, rfl⟩ := Option.map_eq_some_iff.1 hid
          exact hrow
      obtain ⟨hquiet, hgrows, hrows⟩ := ih (helapsed.quiet h) hmore
      exact ⟨hquiet, helapsed.grows.trans hgrows, hrows⟩

/-- What was done with some updates: each saved row is a locked one whose decision was the planned one, and every update is counted once. -/
structure SavedWell (wanted : List Planned) (rows : List (Nat × UpdateRow Columns)) (ids : List Nat) (written : Written Columns) : Prop where
  row : ∀ save ∈ written.saved, (save.id, save.row) ∈ rows
  planned : ∀ save ∈ written.saved, Dict.get save.id wanted = some (save.row.text, save.after)
  sublist : (written.saved.map Save.id).Sublist ids
  count : written.saved.length + written.changed.length + written.vanished.length = ids.length

theorem saveRows_spec {start : Store Columns} {world : World Columns} {wanted : List Planned} {rows : List (Nat × UpdateRow Columns)} {done ids : List Nat}
    {written : Written Columns} {s : State Columns} (h : Quiet start s) (hlocked : Locked rows s) (hwritten : SavedWell wanted rows done written) :
    Quiet start (saveRows world wanted rows ids written s).2 ∧ Grows s (saveRows world wanted rows ids written s).2 ∧
      ∀ written', (saveRows world wanted rows ids written s).1 = some written' →
        SavedWell wanted rows (done ++ ids) written' ∧ Locked rows (saveRows world wanted rows ids written s).2 := by
  induction ids generalizing done written s with
  | nil =>
    refine ⟨h, .refl s, fun written' hwritten' => ?_⟩
    obtain rfl := Option.some.inj hwritten'
    rw [List.append_nil]
    exact ⟨hwritten, hlocked⟩
  | cons id ids ih =>
    have helapsed := elapse_elapsed start world (rows.map Prod.fst) s
    have hlocked' : Locked rows (s.elapse world (rows.map Prod.fst)) := hlocked.elapse start
    have hrest : ∀ {written' : Written Columns}, SavedWell wanted rows (done ++ [id]) written' →
        Quiet start (saveRows world wanted rows ids written' (s.elapse world (rows.map Prod.fst))).2 ∧
          Grows s (saveRows world wanted rows ids written' (s.elapse world (rows.map Prod.fst))).2 ∧
          ∀ written'', (saveRows world wanted rows ids written' (s.elapse world (rows.map Prod.fst))).1 = some written'' →
            SavedWell wanted rows (done ++ id :: ids) written'' ∧ Locked rows (saveRows world wanted rows ids written' (s.elapse world (rows.map Prod.fst))).2 := by
      intro written' hwell
      obtain ⟨hquiet, hgrows, hall⟩ := ih (helapsed.quiet h) hlocked' hwell
      rw [List.append_assoc, List.singleton_append] at hall
      exact ⟨hquiet, helapsed.grows.trans hgrows, hall⟩
    simp only [saveRows]
    split
    · rename_i row before after hrow hwanted
      split
      · exact hrest ⟨hwritten.row, hwritten.planned, hwritten.sublist.trans (List.sublist_append_left ..), by
          have hcount := hwritten.count
          simp only [List.length_append, List.length_singleton]
          omega⟩
      · rename_i htext
        split
        · exact ⟨helapsed.quiet h, helapsed.grows, nofun⟩
        · refine hrest ⟨fun save hsave => ?_, fun save hsave => ?_, ?_, ?_⟩
          · rcases List.mem_append.1 hsave with hsave | hsave
            · exact hwritten.row save hsave
            · obtain rfl := List.mem_singleton.1 hsave
              exact Dict.mem_of_get hrow
          · rcases List.mem_append.1 hsave with hsave | hsave
            · exact hwritten.planned save hsave
            · obtain rfl := List.mem_singleton.1 hsave
              rw [hwanted, not_not.1 htext]
          · rw [List.map_append]
            exact hwritten.sublist.append (List.Sublist.refl _)
          · have hcount := hwritten.count
            simp only [List.length_append, List.length_singleton]
            omega
    · exact hrest ⟨hwritten.row, hwritten.planned, hwritten.sublist.trans (List.sublist_append_left ..), by
        have hcount := hwritten.count
        simp only [List.length_append, List.length_singleton]
        omega⟩

/-! ## The plan -/

/-- What a plan is for some updates of a group. -/
structure PlanOf (found decisions : List (Nat × String)) (ids : List Nat) (plan : Plan) : Prop where
  sublist : (plan.write.map Prod.fst).Sublist ids
  count : plan.write.length + plan.same.length + plan.vanished.length = ids.length

theorem planUpdate_spec {found decisions : List (Nat × String)} {done : List Nat} {plan plan' : Plan} {id : Nat} (h : PlanOf found decisions done plan)
    (hplan : planUpdate found decisions plan id = some plan') : PlanOf found decisions (done ++ [id]) plan' := by
  have hcount := h.count
  have hlater : (plan.write.map Prod.fst).Sublist (done ++ [id]) := h.sublist.trans (List.sublist_append_left ..)
  unfold planUpdate at hplan
  split at hplan
  · obtain rfl := Option.some.inj hplan
    refine ⟨hlater, ?_⟩
    simp only [List.length_append, List.length_singleton]
    omega
  · split at hplan
    · cases hplan
    · split at hplan
      · obtain rfl := Option.some.inj hplan
        refine ⟨hlater, ?_⟩
        simp only [List.length_append, List.length_singleton]
        omega
      · obtain rfl := Option.some.inj hplan
        refine ⟨?_, ?_⟩
        · rw [List.map_append]
          exact h.sublist.append (List.Sublist.refl _)
        · simp only [List.length_append, List.length_singleton]
          omega

theorem plan_spec {found decisions : List (Nat × String)} {done ids : List Nat} {plan plan' : Plan} (h : PlanOf found decisions done plan)
    (hplan : ids.foldlM (planUpdate found decisions) plan = some plan') : PlanOf found decisions (done ++ ids) plan' := by
  induction ids generalizing done plan with
  | nil =>
    obtain rfl := Option.some.inj hplan
    rwa [List.append_nil]
  | cons id ids ih =>
    rw [List.foldlM_cons] at hplan
    obtain ⟨next, hnext, hplan⟩ := Option.bind_eq_some_iff.1 hplan
    have hrest := ih (planUpdate_spec h hnext) hplan
    rwa [List.append_assoc, List.singleton_append] at hrest

theorem planGroup_spec {start : Store Columns} {world : World Columns} {group : List Nat} {decisions : List (Nat × String)} {s : State Columns} (h : Quiet start s) :
    Quiet start (planGroup world group decisions s).2 ∧
      ∀ plan, (planGroup world group decisions s).1 = some plan → ∃ found, PlanOf found decisions group plan := by
  refine ⟨readActions_quiet h, fun plan hplan => ?_⟩
  obtain ⟨found, -, hplan⟩ := Option.bind_eq_some_iff.1 hplan
  exact ⟨found, plan_spec ⟨List.Sublist.refl _, rfl⟩ hplan⟩

/-- Every planned change is in a part. -/
theorem mem_parts {plan : Plan} {planned : Planned} (h : planned ∈ plan.write) : ∃ p ∈ plan.parts, planned ∈ p.2 := by
  rw [← Ranges.flatten_cut (show 0 < auditChunk by decide) plan.write] at h
  obtain ⟨chunk, hchunk, hmem⟩ := List.mem_flatten.1 h
  obtain ⟨i, hi, rfl⟩ := List.getElem_of_mem hchunk
  refine ⟨(1 + i, _), ?_, hmem⟩
  refine List.mem_iff_getElem.2 ⟨i, ?_, ?_⟩
  · simpa [Plan.parts] using hi
  · simp [Plan.parts, Nat.add_comm]

/-! ## The commit -/

/-- What the saves of a commit leave of one row. -/
theorem foldl_save {saves : List (Save Columns)} (hnodup : (saves.map Save.id).Nodup) (store : Store Columns) :
    (∀ save ∈ saves, saves.foldl Save.apply store save.id = some { save.row with action := some save.after }) ∧
      ∀ id, (∀ save ∈ saves, save.id ≠ id) → saves.foldl Save.apply store id = store id := by
  induction saves generalizing store with
  | nil => exact ⟨nofun, fun _ _ => rfl⟩
  | cons first saves ih =>
    obtain ⟨hfirst, hnodup⟩ := List.nodup_cons.1 hnodup
    obtain ⟨hsaved, hothers⟩ := ih hnodup (first.apply store)
    refine ⟨fun save hsave => ?_, fun id hid => ?_⟩
    · rcases List.mem_cons.1 hsave with rfl | hsave
      · rw [List.foldl_cons, hothers save.id fun other hother heq => hfirst (heq ▸ List.mem_map_of_mem hother)]
        exact if_pos rfl
      · exact hsaved save hsave
    · rw [List.foldl_cons, hothers id fun save hsave => hid save (List.mem_cons_of_mem _ hsave)]
      exact if_neg (hid first List.mem_cons_self).symm

/-- What the write of a plan leaves: nothing is committed when it raises; else the last event is the commit of rows that are there, as planned. -/
theorem writeLocked_spec {start : Store Columns} {world : World Columns} {write : List Planned} (hwrite : (write.map Prod.fst).Nodup) {s : State Columns} (h : Quiet start s) :
    ((writeLocked world write s).1 = none → Quiet start (writeLocked world write s).2) ∧
      ∀ written, (writeLocked world write s).1 = some written → ∃ before, Quiet start before ∧ Grows s before ∧ (writeLocked world write s).2 = before.perform (.committed written.saved) ∧
        (∀ save ∈ written.saved, before.store save.id = some save.row ∧ (save.id, save.row.text, save.after) ∈ write) ∧ (written.saved.map Save.id).Nodup ∧
        written.saved.length + written.changed.length + written.vanished.length = write.length := by
  have hids : ((write.map Prod.fst).insertionSort (· ≤ ·)).Nodup := (List.perm_insertionSort ..).nodup_iff.2 hwrite
  obtain ⟨hquiet, hgrows, hlocked⟩ := lockRows_spec h
    (show Locked [] s from nofun)
  unfold writeLocked
  dsimp only
  generalize lockRows world (Ranges.cut readBlock ((write.map Prod.fst).insertionSort (· ≤ ·))) [] s = locked at hquiet hgrows hlocked
  obtain ⟨rows, s₁⟩ := locked
  cases rows with
  | none => exact ⟨fun _ => hquiet, nofun⟩
  | some rows =>
    have hnothing : SavedWell write rows [] ⟨[], [], []⟩ := ⟨nofun, nofun, List.Sublist.refl _, rfl⟩
    obtain ⟨hquiet', hgrows', hsaved⟩ := saveRows_spec hquiet (hlocked rows rfl) hnothing
    dsimp only at hquiet' hgrows' hsaved ⊢
    generalize saveRows world write rows ((write.map Prod.fst).insertionSort (· ≤ ·)) ⟨[], [], []⟩ s₁ = saved at hquiet' hgrows' hsaved
    obtain ⟨written, s₂⟩ := saved
    cases written with
    | none => exact ⟨fun _ => hquiet', nofun⟩
    | some written =>
      obtain ⟨hwell, hheld⟩ := hsaved written rfl
      have helapsed := elapse_elapsed start world (rows.map Prod.fst) s₂
      dsimp only [commit]
      split
      · exact ⟨fun _ => helapsed.quiet hquiet', nofun⟩
      · refine ⟨nofun, fun written' hwritten' => ?_⟩
        obtain rfl := Option.some.inj hwritten'
        refine ⟨s₂.elapse world (rows.map Prod.fst), helapsed.quiet hquiet', hgrows.trans (hgrows'.trans helapsed.grows), rfl, fun save hsave => ⟨?_, ?_⟩, ?_, ?_⟩
        · exact hheld.elapse start _ (hwell.row save hsave)
        · exact Dict.mem_of_get (hwell.planned save hsave)
        · exact hwell.sublist.nodup hids
        · rw [hwell.count, List.nil_append, List.length_insertionSort, List.length_map]

/-- The commit is the last event. -/
theorem commit_last {history before after : List (Event Columns)} {saves saves' : List (Save Columns)} (hnone : ∀ saves, .committed saves ∉ history)
    (h : history ++ [.committed saves] = before ++ .committed saves' :: after) : history = before ∧ saves = saves' := by
  rcases List.eq_nil_or_concat after with rfl | ⟨rest, last, rfl⟩
  · obtain ⟨hhistory, hlast⟩ := List.append_inj' h rfl
    exact ⟨hhistory, Event.committed.inj (List.cons.inj hlast).1⟩
  · rw [List.concat_eq_append, ← List.cons_append, ← List.append_assoc] at h
    obtain ⟨hhistory, -⟩ := List.append_inj' h rfl
    exact absurd (by rw [hhistory]; simp) (hnone saves')

/-- A group without a commit. -/
theorem safe_of_quiet {start : Store Columns} {group : List Nat} {result : GroupResult} {s : State Columns} (h : Quiet start s)
    (hcounts : ∀ outcome, result = .written outcome → outcome.written + outcome.unchanged + outcome.changedMeanwhile + outcome.vanished = group.dedup.length) :
    GroupSafe start group result s where
  replayed := h.replayed
  audited before saves after hhistory := absurd (by rw [hhistory]; simp) (h.none saves)
  saved before saves after hhistory := absurd (by rw [hhistory]; simp) (h.none saves)
  others before saves after hhistory := absurd (by rw [hhistory]; simp) (h.none saves)
  counts := hcounts
  raised _ := h.none

/-- A group with a commit of rows that are there, each held by an audit row. -/
theorem safe_of_commit {start : Store Columns} {group : List Nat} {outcome : Outcome} {s : State Columns} (h : Quiet start s) {saves : List (Save Columns)}
    (hrows : ∀ save ∈ saves, s.store save.id = some save.row) (hnodup : (saves.map Save.id).Nodup)
    (haudited : ∀ save ∈ saves, ∃ row, .audited row ∈ s.history ∧ Holds row save.id save.row.text save.after)
    (hcounts : outcome.written + outcome.unchanged + outcome.changedMeanwhile + outcome.vanished = group.dedup.length) :
    GroupSafe start group (.written outcome) (s.perform (.committed saves)) := by
  have hlast : ∀ {before saves' after}, s.history ++ [.committed saves] = before ++ .committed saves' :: after → before = s.history ∧ saves' = saves := by
    intro before saves' after hhistory
    obtain ⟨rfl, rfl⟩ := commit_last h.none hhistory
    exact ⟨rfl, rfl⟩
  have hcommit : replay start (s.history ++ [.committed saves]) = saves.foldl Save.apply s.store := by
    rw [replay_append, ← h.replayed]
    rfl
  exact {
    replayed := by
      change saves.foldl Save.apply s.store = replay start (s.history ++ [.committed saves])
      rw [hcommit]
    audited := by
      intro before saves' after hhistory save hsave
      obtain ⟨rfl, rfl⟩ := hlast hhistory
      rw [← h.replayed]
      exact ⟨hrows save hsave, haudited save hsave⟩
    saved := by
      intro before saves' after hhistory save hsave
      obtain ⟨rfl, rfl⟩ := hlast hhistory
      rw [hcommit]
      exact (foldl_save hnodup s.store).1 save hsave
    others := by
      intro before saves' after hhistory id hid
      obtain ⟨rfl, rfl⟩ := hlast hhistory
      rw [hcommit, ← h.replayed]
      exact (foldl_save hnodup s.store).2 id hid
    counts := by
      intro outcome' houtcome
      obtain rfl := GroupResult.written.inj houtcome
      exact hcounts
    raised := fun hraised => absurd rfl (hraised outcome) }

/-- A row of a part that the audit log has room for holds every change of the part. -/
theorem holds_of_fits {context : AuditContext} {part parts : Nat} {chunk : List Planned} (hfits : RowFits context part parts chunk) {row : Audit.StoredRow}
    (hrow : context.row part parts chunk = .ok row) {planned : Planned} (hplanned : planned ∈ chunk) : Holds row planned.1 planned.2.1 planned.2.2 := by
  obtain ⟨n, a, hn, hle, ha, hbudget⟩ := hfits
  have hempty : JsonValue.bytes (.dict (Audit.given (Audit.Writer.record .null).context)) = some 2 := by
    rw [JsonValue.bytes_dict]
    rfl
  have hstored := Audit.ProvenanceAux.stored_eq_original hrow hn hle ha hbudget hempty (by unfold Audit.budget; omega)
  refine ⟨context.metadata part parts chunk, chunk.map line, ?_, Dict.get_set_self .., List.mem_map_of_mem hplanned⟩
  rw [hstored, Audit.original, Audit.ProvenanceAux.get_metadata]
  rfl

theorem nodup_of_mem_groups {decisions : Decisions} {size : Nat} {group : List Nat} (h : group ∈ decisions.groups size) : group.Nodup := by
  obtain ⟨i, -, rfl⟩ := List.mem_map.1 h
  have hitems : decisions.items.Nodup := (List.perm_insertionSort ..).nodup_iff.2 decisions.nodup
  exact hitems.sublist ((List.take_sublist _ _).trans (List.drop_sublist _ _))

end WriteAux

open WriteAux

/-- However other writers act, a group of a call changes only what was audited, as long as the audit log has room for the row of each of its parts. -/
theorem writes_are_audited (world : World Columns) (context : AuditContext) (decisions : Decisions) (size : Nat) (group : List Nat) (hgroup : group ∈ decisions.groups size)
    (start : Store Columns)
    (hfits : ∀ plan s, planGroup world group decisions.actions ⟨start, [], 0⟩ = (some plan, s) → ∀ p ∈ plan.parts, RowFits context p.1 plan.parts.length p.2) :
    GroupSafe start group (writeGroup world context group decisions.actions ⟨start, [], 0⟩).1 (writeGroup world context group decisions.actions ⟨start, [], 0⟩).2 := by
  have hdistinct := nodup_of_mem_groups hgroup
  have hdedup : group.dedup.length = group.length := by rw [List.Nodup.dedup hdistinct]
  obtain ⟨hquiet, hplan⟩ := planGroup_spec (s := ⟨start, [], 0⟩) ⟨rfl, fun _ => List.not_mem_nil⟩
  unfold writeGroup
  generalize planGroup world group decisions.actions ⟨start, [], 0⟩ = planned at hquiet hplan hfits
  obtain ⟨plan, s₁⟩ := planned
  cases plan with
  | none => exact safe_of_quiet hquiet nofun
  | some plan =>
    obtain ⟨found, hof⟩ := hplan plan rfl
    obtain ⟨hquiet', hgrows, hrows⟩ := writeAuditRows_spec hquiet
    dsimp only at hquiet' hgrows hrows ⊢
    generalize writeAuditRows world context plan.parts.length plan.parts s₁ = audited at hquiet' hgrows hrows
    obtain ⟨complete, s₂⟩ := audited
    cases complete with
    | false => exact safe_of_quiet hquiet' nofun
    | true =>
      dsimp only [applyGroup]
      split
      · rename_i happly
        split at happly
        · cases happly
        · obtain ⟨hnone, -⟩ := writeLocked_spec (hof.sublist.nodup hdistinct) hquiet'
          obtain ⟨hresult, rfl⟩ := Prod.mk.inj happly
          exact safe_of_quiet (hnone (Option.map_eq_none_iff.1 hresult)) nofun
      · rename_i outcome s₃ happly
        split at happly
        · rename_i hempty
          obtain ⟨houtcome, rfl⟩ := Prod.mk.inj happly
          obtain rfl := Option.some.inj houtcome
          refine safe_of_quiet hquiet' fun outcome houtcome => ?_
          obtain rfl := GroupResult.written.inj houtcome
          have hcount := hof.count
          rw [hempty, List.length_nil] at hcount
          simp only [outcomeOf, List.length_nil]
          omega
        · obtain ⟨-, hsome⟩ := writeLocked_spec (hof.sublist.nodup hdistinct) hquiet'
          obtain ⟨hresult, rfl⟩ := Prod.mk.inj happly
          obtain ⟨written, hwritten, rfl⟩ := Option.map_eq_some_iff.1 hresult
          obtain ⟨before, hbefore, hgrows', hstate, hsaves, hnodup, hcount⟩ := hsome written hwritten
          rw [hstate]
          refine safe_of_commit hbefore (fun save hsave => (hsaves save hsave).1) hnodup (fun save hsave => ?_) ?_
          · obtain ⟨p, hp, hmem⟩ := mem_parts (hsaves save hsave).2
            obtain ⟨row, hrow, haudit⟩ := hrows rfl p hp
            exact ⟨row, hgrows'.mem haudit, holds_of_fits (hfits plan s₁ rfl p hp) hrow hmem⟩
          · have hplanCount := hof.count
            simp only [outcomeOf]
            omega

namespace WriteAux

def sampleTexts : Audit.Texts where
  str v :=
    match v with
    | .str s => s
    | _ => ""
  lower s := s

/-- A run of a schedule under a limit of the audit log. -/
def sampleContext (limit : Int) : AuditContext where
  limit := limit
  texts := sampleTexts
  fresh := "request-1"
  coreVersion := "1.17.101"
  owner := "ada"
  definitionId := "patching.decisions"
  fields := [("requested_by", .str "scheduler"), ("run_id", .str "run-1")]
  index := 1
  groupsTotal := 1

/-- So many updates that are approved. -/
def approvals (count : Nat) : Decisions where
  actions := (List.range count).map fun n => (n + 1, "approve")
  nodup := by
    rw [List.map_map]
    exact List.nodup_range.map fun a b h => Nat.succ.inj h

/-- Every row is there, without a decision of its own. -/
def inherited : Store Unit := fun _ => some ⟨some "inherit", ()⟩

/-- A world in which a person ignores the second update before the third step. -/
def personDecides : World Unit where
  others clock := if clock = 2 then [(2, some ⟨some "ignore", ()⟩)] else []
  raises _ := false

def quietWorld : World Unit := ⟨fun _ => [], fun _ => false⟩

/-- Whether the audit log has room, as a computation. -/
def hasRoom (context : AuditContext) (part parts : Nat) (chunk : List Planned) : Bool :=
  ((JsonValue.bytes (.dict (Audit.original context.texts context.fresh (.record .null) (context.call part parts chunk)))).any fun n : Nat => decide ((n : Int) ≤ context.limit)) &&
    (JsonValue.bytes (.dict (context.metadata part parts chunk))).any fun a : Nat => decide ((a : Int) ≤ Audit.budget context.limit)

theorem fits_of_hasRoom {context : AuditContext} {part parts : Nat} {chunk : List Planned} (h : hasRoom context part parts chunk = true) :
    RowFits context part parts chunk := by
  rw [hasRoom, Bool.and_eq_true, Option.any_eq_true, Option.any_eq_true] at h
  obtain ⟨⟨n, hn, hle⟩, a, ha, hle'⟩ := h
  exact ⟨n, a, hn, of_decide_eq_true hle, ha, of_decide_eq_true hle'⟩

/-- No audit row names a change. -/
def namesNone : Event Unit → Bool
  | .audited row => (Dict.get "changes" (Audit.given ((Dict.get "metadata" row.debugInfo).getD .null))).isNone
  | _ => true

def savesSome : Event Unit → Bool
  | .committed saves => !saves.isEmpty
  | _ => false

end WriteAux

theorem person_decides_later :
    GroupSafe inherited [1, 2, 3] (writeGroup personDecides (sampleContext 4096) [1, 2, 3] (approvals 3).actions ⟨inherited, [], 0⟩).1
      (writeGroup personDecides (sampleContext 4096) [1, 2, 3] (approvals 3).actions ⟨inherited, [], 0⟩).2 := by
  refine writes_are_audited personDecides (sampleContext 4096) (approvals 3) 2000 [1, 2, 3] (by decide_cbv) inherited fun plan s hplan p hp => ?_
  have hread : (planGroup personDecides [1, 2, 3] (approvals 3).actions ⟨inherited, [], 0⟩).1 =
      some ⟨[(1, "inherit", "approve"), (2, "inherit", "approve"), (3, "inherit", "approve")], [], []⟩ := by decide_cbv
  rw [hplan] at hread
  obtain rfl := Option.some.inj hread
  have hroom : ∀ p ∈ Plan.parts ⟨[(1, "inherit", "approve"), (2, "inherit", "approve"), (3, "inherit", "approve")], [], []⟩, hasRoom (sampleContext 4096) p.1 1 p.2 = true := by
    decide +kernel
  exact fits_of_hasRoom (hroom p hp)

/-- Where the audit log has no room for the changes, they are written all the same. -/
theorem written_without_changes :
    ¬ ∀ (world : World Unit) (context : AuditContext) (decisions : Decisions) (size : Nat) (group : List Nat), group ∈ decisions.groups size → ∀ start : Store Unit,
      GroupSafe start group (writeGroup world context group decisions.actions ⟨start, [], 0⟩).1 (writeGroup world context group decisions.actions ⟨start, [], 0⟩).2 := by
  intro hclaim
  have hsafe := hclaim quietWorld (sampleContext 1024) (approvals 30) 2000 (approvals 30).items (by decide +kernel) inherited
  have hrun : let history := (writeGroup quietWorld (sampleContext 1024) (approvals 30).items (approvals 30).actions ⟨inherited, [], 0⟩).2.history
      (history.all namesNone && history.any savesSome) = true := by decide +kernel
  obtain ⟨hnone, hsome⟩ := Bool.and_eq_true_iff.1 hrun
  generalize (writeGroup quietWorld (sampleContext 1024) (approvals 30).items (approvals 30).actions ⟨inherited, [], 0⟩).2 = s at hsafe hnone hsome
  obtain ⟨e, he, hsaves⟩ := List.any_eq_true.1 hsome
  cases e with
  | other id row => cases hsaves
  | audited row => cases hsaves
  | committed saves =>
    obtain ⟨before, after, hhistory⟩ := List.append_of_mem he
    cases saves with
    | nil => cases hsaves
    | cons save saves =>
      obtain ⟨-, row, hrow, metadata, changes, hmetadata, hchanges, -⟩ := hsafe.audited before _ after hhistory save List.mem_cons_self
      have hnames := List.all_eq_true.1 hnone (.audited row) (by rw [hhistory]; exact List.mem_append_left _ hrow)
      rw [namesNone, hmetadata, Option.getD_some, Audit.given, hchanges] at hnames
      cases hnames

end SystemWrites

end TecTac
