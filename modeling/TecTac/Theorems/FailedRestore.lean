import Mathlib
import TecTac.RestoreRollback

/-!
# A failed restore is put back

After a rollback the server is as it was before the restore exactly where this job had moved the Tactical tree away before it failed, and nothing stood in the way of
the phases that follow. Where nothing was moved yet the rollback quarantines the original tree itself and has nothing to put in its place; where the preservation
path was taken by an earlier job it puts the tree of that job in place.
-/

namespace TecTac

namespace Restore

open FileTree

variable {Content Data : Type}

/-- The server is put back: the Tactical tree is the one that the restore found, the snapshotted paths and databases are as in the snapshot, the rollback is reported,
and no tree was put in place that this job did not preserve. -/
structure PutBack (server : Server Content Data) (snapshot : Snapshot Content Data) (left : World Content Data) (result : Result) (preserved : Bool) : Prop where
  tree : below left.fs server.layout.root = below server.world.fs server.layout.root
  host : ∀ record ∈ snapshot.hostPaths, below left.fs record.path = record.tree
  databases : ∀ row ∈ snapshot.databases, left.db row.1 = some row.2
  performed : result.rollbackPerformed = true
  own : result.rollbackTreeRestored = true → preserved = true

/-- The files when the trees are exchanged: the original tree is back, and what stood in its place is in quarantine. -/
def exchanged (server : Server Content Data) (stamp stamp' : List Char) (fs : Files Content) : Files Content := fun q =>
  let l := server.layout
  if l.root <+: q then server.world.fs q
  else if l.failedRoot stamp' <+: q ∧ (fs l.root).isSome then fs (l.root ++ q.drop (l.failedRoot stamp').length)
  else if l.movedRoot stamp <+: q then none
  else fs q

/-- The failure comes after the Tactical tree was moved away, and nothing is in the way of the later phases: the commands succeed, no file or link stands where a folder
above a snapshotted path was, no such folder is made inside the Tactical tree, and the name of the quarantine is free in what was snapshotted. -/
structure Meets (server : Server Content Data) (snapshot : Snapshot Content Data) (stamp stamp' : List Char) (failure : Failure Content Data) (commands : Commands) : Prop where
  installed : (server.world.fs server.layout.backend).isSome
  free : server.world.fs (server.layout.movedRoot stamp) = none
  stop : commands.stop = true
  sudoers : snapshot.hostPaths = [] ∨ commands.sudoers = true
  start : commands.start = true
  verify : commands.verify = true
  later : ∃ left, failure = .later left ∧ ∀ record ∈ snapshot.hostPaths, ∀ q c, IsParent [] record.path q → exchanged server stamp stamp' left.fs q ≠ some (.leaf c)
  inside : ∀ record ∈ snapshot.hostPaths, ∀ q, IsParent [] record.path q → server.layout.root <+: q → (server.world.fs q).isSome
  quarantine : ∀ record ∈ snapshot.hostPaths, (record.path <+: server.layout.failedRoot stamp' → server.world.fs (server.layout.failedRoot stamp') = none) ∧
    (server.layout.failedRoot stamp' <+: record.path → record.slot = none)

namespace RestoreAux

/-! ### Paths that are not nested -/

/-- Neither path is at or below the other. -/
def Apart (a b : Path) : Prop := ¬ a <+: b ∧ ¬ b <+: a

theorem Apart.symm {a b : Path} (h : Apart a b) : Apart b a := ⟨h.2, h.1⟩

instance : Std.Symm Apart := ⟨fun _ _ h => h.symm⟩

theorem Apart.not_both {a b q : Path} (h : Apart a b) (ha : a <+: q) : ¬ b <+: q := fun hb =>
  (List.prefix_or_prefix_of_prefix ha hb).elim h.1 h.2

theorem IsParent.path_prefix {path q : Path} (h : IsParent [] path q) : q <+: path := by simpa using h.2.2.1

theorem apart_siblings {parent : Path} {a b : List Char} (h : a ≠ b) : Apart (parent ++ [a]) (parent ++ [b]) := by
  refine ⟨fun hp => h ?_, fun hp => h.symm ?_⟩ <;> simpa using (List.prefix_append_right_inj parent).1 hp

theorem apart_failed (l : Layout) (stamp : List Char) : Apart l.root (l.failedRoot stamp) := by
  refine apart_siblings fun h => ?_
  have := congrArg List.length h
  simp at this

theorem apart_moved (l : Layout) (stamp : List Char) : Apart l.root (l.movedRoot stamp) := by
  refine apart_siblings fun h => ?_
  have := congrArg List.length h
  simp at this

theorem apart_moved_failed (l : Layout) (stamp stamp' : List Char) : Apart (l.movedRoot stamp) (l.failedRoot stamp') := by
  refine apart_siblings fun h => ?_
  rw [List.append_assoc, List.append_assoc, List.append_cancel_left_eq] at h
  have := congrArg (fun s => s.take 9) h
  simp at this

theorem withoutNested_apart {result paths : List Path} (hresult : result.Pairwise Apart) (hlength : ∀ a ∈ result, ∀ b ∈ paths, a.length ≤ b.length)
    (hsorted : paths.Pairwise fun a b => a.length ≤ b.length) : (withoutNested result paths).Pairwise Apart := by
  induction paths generalizing result with
  | nil => exact hresult
  | cons path paths ih =>
    obtain ⟨hfirst, hsorted⟩ := List.pairwise_cons.1 hsorted
    unfold withoutNested
    split
    · exact ih hresult (fun a ha b hb => hlength a ha b (List.mem_cons_of_mem _ hb)) hsorted
    · rename_i hnot
      refine ih ?_ ?_ hsorted
      · refine List.pairwise_append.2 ⟨hresult, List.pairwise_singleton _ _, ?_⟩
        intro a ha b hb
        obtain rfl := List.mem_singleton.1 hb
        have hab : ¬ a <+: b := fun hunder => hnot (List.any_eq_true.2 ⟨a, ha, List.isPrefixOf_iff_prefix.2 hunder⟩)
        -- the one that comes later is no shorter, so it is below the earlier one only where they are the same
        refine ⟨hab, fun hunder => hab ?_⟩
        rw [hunder.eq_of_length (Nat.le_antisymm hunder.length_le (hlength a ha b List.mem_cons_self))]
      · intro a ha b hb
        rcases List.mem_append.1 ha with ha | ha
        · exact hlength a ha b (List.mem_cons_of_mem _ hb)
        · rw [List.mem_singleton.1 ha]
          exact hfirst b hb

instance : Std.Total before where
  total a b := by
    unfold before
    rcases Nat.lt_trichotomy a.length b.length with h | h | h
    · exact .inl (.inl h)
    · rcases le_total (PosixPath.join a) (PosixPath.join b) with h' | h'
      · exact .inl (.inr ⟨h, h'⟩)
      · exact .inr (.inr ⟨h.symm, h'⟩)
    · exact .inr (.inl h)

instance : IsTrans Path before where
  trans a b c := by
    rintro (h | ⟨h, h'⟩) (k | ⟨k, k'⟩)
    · exact .inl (by omega)
    · exact .inl (by omega)
    · exact .inl (by omega)
    · exact .inr ⟨by omega, le_trans h' k'⟩

theorem canonical_apart {paths targets : List Path} (h : canonicalSnapshotTargets paths = some targets) : targets.Pairwise Apart := by
  unfold canonicalSnapshotTargets at h
  split at h
  · cases h
  · cases h
    refine withoutNested_apart List.Pairwise.nil (fun a ha => by cases ha) ?_
    refine (List.pairwise_insertionSort before _).imp fun hab => ?_
    unfold before at hab
    omega

/-! ### The snapshot -/

/-- What a snapshot holds: the records are of paths that are not nested, and hold what stood there. -/
structure Holds (t : Files Content) (records : List (HostRecord Content)) : Prop where
  apart : (records.map HostRecord.path).Pairwise Apart
  slot : ∀ record ∈ records, record.slot = if (t record.path).isSome then some (below t record.path) else none

theorem mapM_snapshot {t : Files Content} {paths : List Path} {records : List (HostRecord Content)} (h : paths.mapM (snapshotHostPath t) = some records) :
    records.map HostRecord.path = paths ∧ ∀ record ∈ records, record.slot = if (t record.path).isSome then some (below t record.path) else none := by
  induction paths generalizing records with
  | nil =>
    cases h
    simp
  | cons path paths ih =>
    rw [List.mapM_cons] at h
    obtain ⟨record, hrecord, h⟩ := Option.bind_eq_some_iff.1 h
    obtain ⟨rest, hrest, h⟩ := Option.bind_eq_some_iff.1 h
    cases h
    obtain ⟨hpaths, hslots⟩ := ih hrest
    unfold snapshotHostPath at hrecord
    split at hrecord
    · cases hrecord
      refine ⟨by rw [List.map_cons, hpaths], fun record hmem => ?_⟩
      rcases List.mem_cons.1 hmem with rfl | hmem
      · rfl
      · exact hslots record hmem
    · cases hrecord

theorem holds_of_snapshot {w : World Content Data} {paths : List Path} {snapshot : Snapshot Content Data} (h : createPreRestoreSnapshot w paths = some snapshot) :
    Holds w.fs snapshot.hostPaths ∧ (snapshot.databases.map Prod.fst).Nodup := by
  unfold createPreRestoreSnapshot at h
  obtain ⟨hostPaths, hhost, h⟩ := Option.bind_eq_some_iff.1 h
  obtain ⟨tactical, -, h⟩ := Option.bind_eq_some_iff.1 h
  cases h
  unfold snapshotHostPaths at hhost
  obtain ⟨targets, htargets, hhost⟩ := Option.bind_eq_some_iff.1 hhost
  obtain ⟨hpaths, hslots⟩ := mapM_snapshot hhost
  refine ⟨⟨hpaths ▸ canonical_apart htargets, hslots⟩, ?_⟩
  cases w.db .meshcentral <;> simp

/-- A record holds what stood below its path, also where nothing did. -/
theorem Holds.tree {t : Files Content} {records : List (HostRecord Content)} (h : Holds t records) (hclosed : Closed t) {record : HostRecord Content} (hmem : record ∈ records) :
    record.tree = below t record.path := by
  rw [HostRecord.tree, h.slot record hmem]
  split
  · rfl
  · rename_i hnone
    funext q
    exact (hclosed.none_of_append (by simpa using hnone)).symm

theorem Holds.slot_none {t : Files Content} {records : List (HostRecord Content)} (h : Holds t records) {record : HostRecord Content} (hmem : record ∈ records) :
    record.slot = none ↔ t record.path = none := by
  rw [h.slot record hmem]
  cases ht : t record.path <;> simp

/-! ### The host phase -/

theorem restored_last (u : Files Content) (record : HostRecord Content) :
    (match record.slot with
      | none => some (remove u record.path)
      | some slot => some (graft (remove u record.path) record.path slot)) = some (graft u record.path record.tree) := by
  rw [HostRecord.tree]
  cases record.slot with
  | none => rfl
  | some slot =>
    refine congrArg some (funext fun q => ?_)
    by_cases hq : record.path <+: q
    · rw [graft_of_under hq, graft_of_under hq]
      rfl
    · rw [graft_of_apart hq, remove, graft_of_apart hq, graft_of_apart hq]

theorem restoreHostPath_eq_some {t t' : Files Content} {record : HostRecord Content} :
    restoreHostPath t record = some t' ↔
      (∀ q c, IsParent [] record.path q → t q ≠ some (.leaf c)) ∧ t' = graft (withParents t [] record.path) record.path record.tree := by
  have heq : restoreHostPath t record = (makeParents t [] record.path).bind fun u => some (graft u record.path record.tree) := by
    unfold restoreHostPath
    refine congrArg _ (funext fun u => ?_)
    exact restored_last u record
  rw [heq, Option.bind_eq_some_iff]
  constructor
  · rintro ⟨u, hu, h⟩
    obtain ⟨hsafe, rfl⟩ := makeParents_eq_some.1 hu
    exact ⟨hsafe, (Option.some.inj h).symm⟩
  · rintro ⟨hsafe, rfl⟩
    exact ⟨_, makeParents_eq_some.2 ⟨hsafe, rfl⟩, rfl⟩

/-- The files when every record is restored. -/
def settled (records : List (HostRecord Content)) (t : Files Content) : Files Content := fun q =>
  match records.find? fun record => record.path.isPrefixOf q with
  | some record => record.tree (q.drop record.path.length)
  | none => if t q = none ∧ ∃ record ∈ records, IsParent [] record.path q then some .dir else t q

/-- One record restored, then the others. -/
theorem settled_cons {t : Files Content} {record : HostRecord Content} {records : List (HostRecord Content)} (hapart : ∀ r ∈ records, Apart record.path r.path) :
    settled records (graft (withParents t [] record.path) record.path record.tree) = settled (record :: records) t := by
  funext q
  unfold settled
  by_cases hq : record.path <+: q
  · -- no other record is at or below the path
    have hfind : (records.find? fun r => r.path.isPrefixOf q) = none :=
      List.find?_eq_none.2 fun r hr => by simpa using (hapart r hr).not_both hq
    have hparent : ¬ ∃ r ∈ records, IsParent [] r.path q := by
      rintro ⟨r, hr, hparent⟩
      exact (hapart r hr).1 (hq.trans (IsParent.path_prefix hparent))
    rw [hfind, List.find?_cons_of_pos (by simpa using hq)]
    simp only [hparent, and_false, if_false, graft_of_under hq]
  · rw [List.find?_cons_of_neg (by simpa using hq)]
    cases hfind : records.find? fun r => r.path.isPrefixOf q with
    | some r => rfl
    | none =>
      simp only [graft_of_apart hq, withParents, List.exists_mem_cons_iff]
      by_cases hnone : t q = none <;> by_cases hparent : IsParent [] record.path q <;> simp [hnone, hparent]

/-- The host phase goes through where no file or link is above a path, and then every record is restored. -/
theorem restoreRecords_eq {t : Files Content} {records : List (HostRecord Content)} (hapart : (records.map HostRecord.path).Pairwise Apart) :
    ((restoreRecords t records).2 = true ↔ ∀ record ∈ records, ∀ q c, IsParent [] record.path q → t q ≠ some (.leaf c)) ∧
      ((restoreRecords t records).2 = true → (restoreRecords t records).1 = settled records t) := by
  induction records generalizing t with
  | nil =>
    refine ⟨by simp [restoreRecords], fun _ => funext fun q => ?_⟩
    simp [restoreRecords, settled]
  | cons record records ih =>
    obtain ⟨hfirst, hrest⟩ := List.pairwise_cons.1 (List.map_cons ▸ hapart)
    have hfirst : ∀ r ∈ records, Apart record.path r.path := fun r hr => hfirst _ (List.mem_map_of_mem hr)
    unfold restoreRecords
    cases hone : restoreHostPath t record with
    | none =>
      refine ⟨⟨nofun, fun hall => ?_⟩, nofun⟩
      rw [restoreHostPath_eq_some.2 ⟨hall record List.mem_cons_self, rfl⟩] at hone
      cases hone
    | some u =>
      obtain ⟨hsafe, rfl⟩ := restoreHostPath_eq_some.1 hone
      obtain ⟨hiff, heq⟩ := @ih (graft (withParents t [] record.path) record.path record.tree) hrest
      refine ⟨hiff.trans ?_, fun h => (heq h).trans (settled_cons hfirst)⟩
      rw [List.forall_mem_cons, and_iff_right hsafe]
      refine forall₂_congr fun r hr => forall₂_congr fun q c => forall_congr' fun hparent => ?_
      have hq : ¬ record.path <+: q := fun hq => (hfirst r hr).1 (hq.trans (IsParent.path_prefix hparent))
      rw [graft_of_apart hq, withParents]
      by_cases hnone : IsParent [] record.path q ∧ t q = none
      · simp [hnone]
      · rw [if_neg hnone]

theorem byDepth_mem {records : List (HostRecord Content)} {record : HostRecord Content} : record ∈ byDepth records ↔ record ∈ records := List.mem_insertionSort _

theorem byDepth_apart {records : List (HostRecord Content)} (h : (records.map HostRecord.path).Pairwise Apart) : ((byDepth records).map HostRecord.path).Pairwise Apart :=
  (((List.perm_insertionSort _ records).map HostRecord.path).pairwise_iff fun h => h.symm).2 h

/-- At and below the path of a record stands what the record holds. -/
theorem settled_of_prefix {t : Files Content} {records : List (HostRecord Content)} (hapart : (records.map HostRecord.path).Pairwise Apart) {record : HostRecord Content}
    (hmem : record ∈ records) {q : Path} (hq : record.path <+: q) : settled records t q = record.tree (q.drop record.path.length) := by
  obtain ⟨r, hr⟩ : ∃ r, (records.find? fun r => r.path.isPrefixOf q) = some r :=
    Option.isSome_iff_exists.1 (List.find?_isSome.2 ⟨record, hmem, by simpa using hq⟩)
  have hrmem := List.mem_of_find?_eq_some hr
  have hrq : r.path <+: q := by simpa using List.find?_some hr
  have hsame : r = record := by
    by_contra hne
    have : Std.Symm fun a b : HostRecord Content => Apart a.path b.path := ⟨fun _ _ h => h.symm⟩
    exact ((List.pairwise_map.1 hapart).forall hrmem hmem hne).not_both hrq hq
  rw [settled, hr, hsame]

theorem settled_of_not_prefix {t : Files Content} {records : List (HostRecord Content)} {q : Path} (h : ∀ record ∈ records, ¬ record.path <+: q) :
    settled records t q = if t q = none ∧ ∃ record ∈ records, IsParent [] record.path q then some .dir else t q := by
  have hfind : (records.find? fun r => r.path.isPrefixOf q) = none := List.find?_eq_none.2 fun r hr => by simpa using h r hr
  rw [settled, hfind]

/-! ### The tree phase -/

theorem root_isSome (server : Server Content Data) : (server.world.fs server.layout.root).isSome := by
  rw [server.closed _ _ server.script]
  rfl

/-- Where this job preserved the tree, the trees are exchanged. -/
theorem rollbackTree_preserved (server : Server Content Data) (stamp stamp' : List Char) (left : Files Content) :
    rollbackTree server.layout (server.layout.failedRoot stamp') (some (server.layout.movedRoot stamp))
        (graft left (server.layout.movedRoot stamp) (below (move server.world.fs server.layout.root (server.layout.movedRoot stamp)) (server.layout.movedRoot stamp))) =
      (exchanged server stamp stamp' left, true, false) := by
  have hrm := apart_moved server.layout stamp
  have hrf := apart_failed server.layout stamp'
  have hmf := apart_moved_failed server.layout stamp stamp'
  have hroot := root_isSome server
  rw [move, below_graft]
  generalize hl : server.layout = l at *
  generalize hmoved' : l.movedRoot stamp = moved at *
  generalize hfailed' : l.failedRoot stamp' = failed at *
  generalize hfs : server.world.fs = fs at *
  have hkeep : graft left moved (below fs l.root) l.root = left l.root := graft_of_apart hrm.2
  -- what stands at the preserved path is the original tree, also after the quarantine
  have hmoved : ∀ u : Files Content, (u = if (left l.root).isSome then move (remove (graft left moved (below fs l.root)) failed) l.root failed
      else graft left moved (below fs l.root)) → below u moved = below fs l.root := by
    intro u hu
    rw [hu]
    split
    · rw [move, below_graft_of_apart hmf.2 hmf.1, remove, below_graft_of_apart hrm.1 hrm.2, remove, below_graft_of_apart hmf.2 hmf.1, below_graft]
    · rw [below_graft]
  unfold rollbackTree
  simp only [hkeep]
  have hat := hmoved _ rfl
  have hexists : ((if (left l.root).isSome then move (remove (graft left moved (below fs l.root)) failed) l.root failed else graft left moved (below fs l.root)) moved).isSome := by
    have := congrFun hat []
    simp only [below_apply, List.append_nil] at this
    rw [this]
    exact hroot
  rw [if_pos hexists, move, hat]
  refine Prod.ext (funext fun q => ?_) rfl
  simp only [exchanged, hl, hfs, hmoved', hfailed']
  by_cases hq : l.root <+: q
  · obtain ⟨x, rfl⟩ := hq
    simp
  rw [graft_of_apart hq, if_neg hq]
  by_cases hqm : moved <+: q
  · rw [remove, graft_of_under hqm, if_neg fun h => hmf.not_both hqm h.1, if_pos hqm]
    rfl
  rw [remove, graft_of_apart hqm, if_neg hqm]
  by_cases hsome : (left l.root).isSome
  · rw [if_pos hsome, move]
    by_cases hqf : failed <+: q
    · obtain ⟨x, rfl⟩ := hqf
      have hnotf : ¬ failed <+: l.root ++ x := hrf.not_both (List.prefix_append _ _)
      have hnotm : ¬ moved <+: l.root ++ x := hrm.not_both (List.prefix_append _ _)
      simp only [graft_append, below_apply, List.drop_left, List.prefix_append, hsome, and_self, if_true]
      rw [remove, graft_of_apart hnotf, graft_of_apart hnotm]
    · rw [graft_of_apart hqf, remove, graft_of_apart hq, remove, graft_of_apart hqf, graft_of_apart hqm, if_neg fun h => hqf h.1]
  · rw [if_neg hsome, graft_of_apart hqm, if_neg fun h => hsome h.2]

/-- Where it did not, the original tree is lost, or the tree of another job is put in place. -/
theorem rollbackTree_other (l : Layout) (failed : Path) (hfailed : Apart l.root failed) (t : Files Content) (moved : Option Path) :
    (rollbackTree l failed moved t).2.2 = true ∨ (rollbackTree l failed moved t).2.1 = true := by
  have hgone : ((if (t l.root).isSome then move (remove t failed) l.root failed else t) l.root).isNone := by
    split
    · rw [move, graft_of_apart hfailed.2, remove, graft_self]
      rfl
    · rename_i hnone
      simpa using hnone
  unfold rollbackTree
  generalize (if (t l.root).isSome then move (remove t failed) l.root failed else t) = u at hgone
  cases moved with
  | none => exact .inl hgone
  | some moved =>
    simp only
    split
    · exact .inr rfl
    · exact .inl hgone

/-! ### The phases together -/

/-- What the rollback leaves where it is reported as performed, and when that is. -/
theorem rollback_performed {l : Layout} {stamp : List Char} {commands : Commands} {moved : Option Path} {snapshot : Snapshot Content Data} {w : World Content Data}
    {t u : Files Content} {restored lost host : Bool} (htree : rollbackTree l (l.failedRoot stamp) moved w.fs = (t, restored, lost))
    (hhost : restoreHostPaths t snapshot.hostPaths = (u, host)) :
    ((rollbackFailedRestore l stamp commands moved snapshot w).2.rollbackPerformed = true ↔
      commands.stop = true ∧ host = true ∧ (snapshot.hostPaths = [] ∨ commands.sudoers = true) ∧ lost = false ∧ commands.start = true ∧ commands.verify = true) ∧
    ((rollbackFailedRestore l stamp commands moved snapshot w).2.rollbackPerformed = true →
      rollbackFailedRestore l stamp commands moved snapshot w =
        (⟨remove u (l.failedRoot stamp), restoreDatabases w.db snapshot.databases⟩, ⟨true, restored, true, snapshot.databases.map Prod.fst⟩)) := by
  have hempty : snapshot.hostPaths = [] ↔ snapshot.hostPaths.isEmpty = true := List.isEmpty_iff.symm
  unfold rollbackFailedRestore
  simp only [htree, hhost, hempty]
  cases commands.stop <;> cases host <;> cases snapshot.hostPaths.isEmpty <;> cases commands.sudoers <;> cases lost <;> cases commands.start <;> cases commands.verify <;> simp

/-- Where the tree was not preserved by this job, the server is not put back. -/
theorem not_putBack_other {server : Server Content Data} {stamp : List Char} {commands : Commands} {moved : Option Path} {snapshot : Snapshot Content Data}
    {w : World Content Data} (h : PutBack server snapshot (rollbackFailedRestore server.layout stamp commands moved snapshot w).1
      (rollbackFailedRestore server.layout stamp commands moved snapshot w).2 false) : False := by
  rcases htree : rollbackTree server.layout (server.layout.failedRoot stamp) moved w.fs with ⟨t, restored, lost⟩
  rcases hhost : restoreHostPaths t snapshot.hostPaths with ⟨u, host⟩
  obtain ⟨hiff, hleft⟩ := @rollback_performed _ _ _ _ commands _ _ _ _ _ _ _ _ htree hhost
  obtain rfl : lost = false := (hiff.1 h.performed).2.2.2.1
  have hown := h.own
  rw [hleft h.performed] at hown
  have hother := rollbackTree_other server.layout _ (apart_failed server.layout stamp) w.fs moved
  rw [htree] at hother
  exact Bool.false_ne_true (hown (hother.resolve_left (by simp)))

theorem restoreDatabases_cons (db : Database → Option Data) (row : Database × Data) (rows : List (Database × Data)) :
    restoreDatabases db (row :: rows) = restoreDatabases (Function.update db row.1 (some row.2)) rows := rfl

theorem restoreDatabases_of_notMem {db : Database → Option Data} {databases : List (Database × Data)} {name : Database} (h : name ∉ databases.map Prod.fst) :
    restoreDatabases db databases name = db name := by
  induction databases generalizing db with
  | nil => rfl
  | cons row rows ih =>
    rw [List.map_cons, List.mem_cons, not_or] at h
    rw [restoreDatabases_cons, ih h.2, Function.update_of_ne h.1]

theorem restoreDatabases_of_mem {db : Database → Option Data} {databases : List (Database × Data)} (hnodup : (databases.map Prod.fst).Nodup) {row : Database × Data}
    (hrow : row ∈ databases) : restoreDatabases db databases row.1 = some row.2 := by
  induction databases generalizing db with
  | nil => cases hrow
  | cons first rest ih =>
    obtain ⟨hfirst, hnodup⟩ := List.nodup_cons.1 (List.map_cons ▸ hnodup)
    rw [restoreDatabases_cons]
    rcases List.mem_cons.1 hrow with rfl | hrow
    · rw [restoreDatabases_of_notMem hfirst, Function.update_self]
    · exact ih hnodup hrow

variable {server : Server Content Data} {snapshot : Snapshot Content Data} {stamp stamp' : List Char} {left : Files Content}

/-- The files when every snapshotted path is restored over the exchanged trees. -/
def final (server : Server Content Data) (snapshot : Snapshot Content Data) (stamp stamp' : List Char) (left : Files Content) : Files Content :=
  remove (settled (byDepth snapshot.hostPaths) (exchanged server stamp stamp' left)) (server.layout.failedRoot stamp')

theorem exchanged_root (q : Path) (hq : server.layout.root <+: q) : exchanged server stamp stamp' left q = server.world.fs q := if_pos hq

/-- At and below a snapshotted path stands what the snapshot holds, but for the quarantine. -/
theorem final_of_record (hholds : Holds server.world.fs snapshot.hostPaths) {record : HostRecord Content} (hmem : record ∈ snapshot.hostPaths) {q : Path}
    (hq : record.path <+: q) (hfailed : ¬ server.layout.failedRoot stamp' <+: q) : final server snapshot stamp stamp' left q = server.world.fs q := by
  rw [final, remove, graft_of_apart hfailed, settled_of_prefix (byDepth_apart hholds.apart) (byDepth_mem.2 hmem) hq, hholds.tree server.closed hmem, below_apply,
    List.prefix_iff_eq_append.1 hq]

theorem final_failed {q : Path} (hq : server.layout.failedRoot stamp' <+: q) : final server snapshot stamp stamp' left q = none := graft_of_under hq

/-- The host phase changes the original tree only where it makes a folder in it. -/
theorem final_root (hholds : Holds server.world.fs snapshot.hostPaths) {q : Path} (hq : server.layout.root <+: q) :
    final server snapshot stamp stamp' left q =
      if server.world.fs q = none ∧ ∃ record ∈ snapshot.hostPaths, IsParent [] record.path q then some .dir else server.world.fs q := by
  have hfailed : ¬ server.layout.failedRoot stamp' <+: q := (apart_failed server.layout stamp').not_both hq
  by_cases hcover : ∃ record ∈ snapshot.hostPaths, record.path <+: q
  · obtain ⟨record, hmem, hunder⟩ := hcover
    rw [final_of_record hholds hmem hunder hfailed, if_neg]
    -- a path at or below one that was snapshotted is above no other
    rintro ⟨-, other, hother, hparent⟩
    have hapart : record ≠ other → Apart record.path other.path := by
      have : Std.Symm fun a b : HostRecord Content => Apart a.path b.path := ⟨fun _ _ h => h.symm⟩
      exact (List.pairwise_map.1 hholds.apart).forall hmem hother
    have hnested := hunder.trans (IsParent.path_prefix hparent)
    by_cases hsame : record = other
    · subst hsame
      exact hparent.2.2.2 ((IsParent.path_prefix hparent).eq_of_length_le hunder.length_le)
    · exact (hapart hsame).1 hnested
  · rw [final, remove, graft_of_apart hfailed, settled_of_not_prefix fun record hrecord hunder => hcover ⟨record, byDepth_mem.1 hrecord, hunder⟩,
      exchanged_root q hq]
    simp only [byDepth_mem]

/-- The original tree is back exactly where no folder is made in it. -/
theorem tree_iff (hholds : Holds server.world.fs snapshot.hostPaths) :
    below (final server snapshot stamp stamp' left) server.layout.root = below server.world.fs server.layout.root ↔
      ∀ record ∈ snapshot.hostPaths, ∀ q, IsParent [] record.path q → server.layout.root <+: q → (server.world.fs q).isSome := by
  constructor
  · intro htree record hmem q hparent hq
    by_contra hnone
    have hnone : server.world.fs q = none := by simpa using hnone
    have hdir := @final_root _ _ _ _ stamp stamp' left hholds q hq
    rw [if_pos ⟨hnone, record, hmem, hparent⟩] at hdir
    obtain ⟨x, rfl⟩ := hq
    have hsame := congrFun htree x
    rw [below_apply, below_apply, hdir, hnone] at hsame
    cases hsame
  · intro hinside
    funext x
    rw [below_apply, below_apply, final_root hholds (List.prefix_append _ _), if_neg]
    rintro ⟨hnone, record, hmem, hparent⟩
    have := hinside record hmem _ hparent (List.prefix_append _ _)
    rw [hnone] at this
    cases this

/-- A snapshotted path is as in the snapshot exactly where the quarantine took nothing of it. -/
theorem host_iff (hholds : Holds server.world.fs snapshot.hostPaths) {record : HostRecord Content} (hmem : record ∈ snapshot.hostPaths) :
    below (final server snapshot stamp stamp' left) record.path = record.tree ↔
      (record.path <+: server.layout.failedRoot stamp' → server.world.fs (server.layout.failedRoot stamp') = none) ∧
        (server.layout.failedRoot stamp' <+: record.path → record.slot = none) := by
  rw [hholds.tree server.closed hmem, hholds.slot_none hmem]
  constructor
  · intro hbelow
    refine ⟨?_, fun hfailed => ?_⟩
    · rintro ⟨x, hx⟩
      have hsame := congrFun hbelow x
      rw [below_apply, below_apply, hx, final_failed (List.prefix_refl _)] at hsame
      exact hsame.symm
    · have hsame := congrFun hbelow []
      rw [below_apply, below_apply, List.append_nil, final_failed hfailed] at hsame
      exact hsame.symm
  · rintro ⟨habove, hbelow⟩
    funext x
    rw [below_apply, below_apply]
    by_cases hfailed : server.layout.failedRoot stamp' <+: record.path ++ x
    · rw [final_failed hfailed]
      -- nothing stood there before either
      rcases List.prefix_or_prefix_of_prefix (List.prefix_append record.path x) hfailed with h | h
      · obtain ⟨y, hy⟩ := hfailed
        rw [← hy, server.closed.none_of_append (habove h)]
      · rw [server.closed.none_of_append (hbelow h)]
    · exact final_of_record hholds hmem (List.prefix_append _ _) hfailed

/-- The rollback of a restore that had preserved the tree. -/
theorem putBack_preserved_iff {commands : Commands} {db : Database → Option Data} (hholds : Holds server.world.fs snapshot.hostPaths)
    (hnodup : (snapshot.databases.map Prod.fst).Nodup) :
    let w : World Content Data :=
      ⟨graft left (server.layout.movedRoot stamp) (below (move server.world.fs server.layout.root (server.layout.movedRoot stamp)) (server.layout.movedRoot stamp)), db⟩
    let rollback := rollbackFailedRestore server.layout stamp' commands (some (server.layout.movedRoot stamp)) snapshot w
    PutBack server snapshot rollback.1 rollback.2 true ↔
      (commands.stop = true ∧ (∀ record ∈ snapshot.hostPaths, ∀ q c, IsParent [] record.path q → exchanged server stamp stamp' left q ≠ some (.leaf c)) ∧
        (snapshot.hostPaths = [] ∨ commands.sudoers = true) ∧ commands.start = true ∧ commands.verify = true) ∧
      (∀ record ∈ snapshot.hostPaths, ∀ q, IsParent [] record.path q → server.layout.root <+: q → (server.world.fs q).isSome) ∧
      ∀ record ∈ snapshot.hostPaths, (record.path <+: server.layout.failedRoot stamp' → server.world.fs (server.layout.failedRoot stamp') = none) ∧
        (server.layout.failedRoot stamp' <+: record.path → record.slot = none) := by
  intro w rollback
  have htree := rollbackTree_preserved server stamp stamp' left
  rcases hhost : restoreHostPaths (exchanged server stamp stamp' left) snapshot.hostPaths with ⟨u, host⟩
  obtain ⟨hsafe, hsettled⟩ := @restoreRecords_eq _ (exchanged server stamp stamp' left) (byDepth snapshot.hostPaths) (byDepth_apart hholds.apart)
  rw [← restoreHostPaths, hhost] at hsafe hsettled
  simp only [byDepth_mem] at hsafe
  obtain ⟨hperformed, hleft⟩ := @rollback_performed _ _ _ _ commands _ _ w _ _ _ _ _ htree hhost
  have hfinal : rollback.2.rollbackPerformed = true → rollback =
      (⟨final server snapshot stamp stamp' left, restoreDatabases db snapshot.databases⟩, ⟨true, true, true, snapshot.databases.map Prod.fst⟩) := by
    intro h
    have hu : u = settled (byDepth snapshot.hostPaths) (exchanged server stamp stamp' left) := hsettled (hperformed.1 h).2.1
    rw [final, ← hu]
    exact hleft h
  constructor
  · intro h
    obtain ⟨hstop, hhostOk, hsudoers, -, hstart, hverify⟩ := hperformed.1 h.performed
    have hb := h.tree
    have hh := h.host
    rw [hfinal h.performed] at hb hh
    exact ⟨⟨hstop, hsafe.1 hhostOk, hsudoers, hstart, hverify⟩, (tree_iff hholds).1 hb, fun record hmem => (host_iff hholds hmem).1 (hh record hmem)⟩
  · rintro ⟨⟨hstop, hleaves, hsudoers, hstart, hverify⟩, hinside, hquarantine⟩
    have hok : rollback.2.rollbackPerformed = true := hperformed.2 ⟨hstop, hsafe.2 hleaves, hsudoers, rfl, hstart, hverify⟩
    rw [hfinal hok]
    exact ⟨(tree_iff hholds).2 hinside, fun record hmem => (host_iff hholds hmem).2 (hquarantine record hmem), fun row hrow => restoreDatabases_of_mem hnodup hrow, rfl,
      fun _ => rfl⟩

end RestoreAux

/-- A failed restore is put back exactly where it had preserved the Tactical tree and nothing is in the way of the later phases of the rollback. -/
theorem failed_restore_is_put_back_iff (server : Server Content Data) (paths : List Path) (snapshot : Snapshot Content Data) (stamp stamp' : List Char)
    (failure : Failure Content Data) (commands : Commands) (hsnapshot : createPreRestoreSnapshot server.world paths = some snapshot) :
    let run := failedRestore server.layout stamp stamp' failure commands snapshot server.world
    PutBack server snapshot run.1 run.2.1 run.2.2 ↔ Meets server snapshot stamp stamp' failure commands := by
  obtain ⟨hholds, hnodup⟩ := RestoreAux.holds_of_snapshot hsnapshot
  have hother : ∀ {moved : Option Path} {w : World Content Data} {P : Prop}, ¬ P →
      (PutBack server snapshot (rollbackFailedRestore server.layout stamp' commands moved snapshot w).1
        (rollbackFailedRestore server.layout stamp' commands moved snapshot w).2 false ↔ P) := fun hP =>
    ⟨fun h => (RestoreAux.not_putBack_other h).elim, fun h => absurd h hP⟩
  simp only [failedRestore]
  cases failure with
  | stop =>
    simp only [failedSteps]
    refine hother ?_
    intro h
    obtain ⟨left, hleft, -⟩ := h.later
    cases hleft
  | move =>
    simp only [failedSteps]
    refine hother ?_
    intro h
    obtain ⟨left, hleft, -⟩ := h.later
    cases hleft
  | later left =>
    simp only [failedSteps]
    by_cases hinstalled : (server.world.fs server.layout.backend).isSome
    · by_cases hfree : (server.world.fs (server.layout.movedRoot stamp)).isSome
      · simp only [hinstalled, hfree, if_true]
        exact hother fun h => by simp [h.free] at hfree
      · simp only [hinstalled, hfree, if_true]
        refine (RestoreAux.putBack_preserved_iff hholds hnodup).trans ⟨?_, fun h => ?_⟩
        · rintro ⟨⟨hstop, hleaves, hsudoers, hstart, hverify⟩, hinside, hquarantine⟩
          exact ⟨hinstalled, by simpa using hfree, hstop, hsudoers, hstart, hverify, ⟨left, rfl, hleaves⟩, hinside, hquarantine⟩
        · obtain ⟨left', hleft, hleaves⟩ := h.later
          cases hleft
          exact ⟨⟨h.stop, hleaves, h.sudoers, h.start, h.verify⟩, h.inside, h.quarantine⟩
    · simp only [hinstalled]
      exact hother fun h => hinstalled h.installed

namespace RestoreAux

def samplePath (names : List String) : Path := names.map String.toList

def sampleHosts : Path := samplePath ["etc", "hosts"]

/-- A server with a Tactical tree and one file beside it, and what else stands there. -/
def sampleFiles (more : List (Path × Entry Nat)) : Files Nat :=
  ofEntries (([([], .dir), (samplePath ["rmm"], .dir), (samplePath ["rmm", "restore.sh"], .leaf 1), (samplePath ["rmm", "api"], .dir),
    (samplePath ["rmm", "api", "tacticalrmm"], .dir), (samplePath ["etc"], .dir), (sampleHosts, .leaf 2)] : List (Path × Entry Nat)) ++ more)

def sampleServer (more : List (Path × Entry Nat)) (h : Closed (sampleFiles more)) (hscript : (sampleFiles more (samplePath ["rmm", "restore.sh"])).isSome) : Server Nat Nat where
  layout := ⟨[], "rmm".toList⟩
  world := ⟨sampleFiles more, fun name => if name = .tacticalrmm then some 7 else none⟩
  closed := h
  script := hscript

/-- The server on which nothing of another job is left. -/
def plainServer : Server Nat Nat := sampleServer [] (closed_ofEntries (by decide +kernel)) (by decide +kernel)

/-- The preservation path of an earlier job. -/
def earlier : Path := samplePath ["rmm.tectac-pre-restore-T"]

/-- The server on which the tree of an earlier job is preserved. -/
def takenServer : Server Nat Nat := sampleServer [(earlier, .dir)] (closed_ofEntries (by decide +kernel)) (by decide +kernel)

def sampleSnapshot (server : Server Nat Nat) : Snapshot Nat Nat := ⟨[⟨sampleHosts, some (below server.world.fs sampleHosts)⟩], [(.tacticalrmm, 7)]⟩

def allSucceed : Commands := ⟨true, true, true, true⟩

/-- What `restore.sh` left when it failed: half a tree, and another database. -/
def halfRestored : World Nat Nat := ⟨ofEntries [([], .dir), (samplePath ["rmm"], .dir), (samplePath ["etc"], .dir), (sampleHosts, .leaf 5)], fun _ => some 8⟩

/-- A failed restore of a server, with all commands of the rollback succeeding. -/
def sampleRun (server : Server Nat Nat) (failure : Failure Nat Nat) : World Nat Nat × Result × Bool :=
  failedRestore server.layout "T".toList "U".toList failure allSucceed (sampleSnapshot server) server.world

end RestoreAux

open RestoreAux in
/-- A restore that fails in `restore.sh`, after the tree was preserved, is put back. -/
theorem failed_script_is_put_back :
    createPreRestoreSnapshot plainServer.world [sampleHosts] = some (sampleSnapshot plainServer) ∧
      let run := sampleRun plainServer (.later halfRestored)
      PutBack plainServer (sampleSnapshot plainServer) run.1 run.2.1 run.2.2 := by
  have hsnapshot : createPreRestoreSnapshot plainServer.world [sampleHosts] = some (sampleSnapshot plainServer) := rfl
  have hparent : ∀ q, IsParent [] sampleHosts q → q = samplePath ["etc"] := by
    intro q hq
    rcases isParent_cons_cons.1 hq with rfl | hq
    · rfl
    · exact absurd hq (not_isParent_of_short (by decide))
  refine ⟨hsnapshot, (failed_restore_is_put_back_iff plainServer [sampleHosts] _ _ _ _ _ hsnapshot).2
    ⟨by decide +kernel, by decide +kernel, rfl, .inr rfl, rfl, rfl, ⟨halfRestored, rfl, fun record hmem q c hq => ?_⟩, fun record hmem q hq hroot => ?_, fun record hmem => ?_⟩⟩
  · rw [List.mem_singleton.1 hmem] at hq
    rw [hparent q hq]
    have hdir : exchanged plainServer "T".toList "U".toList halfRestored.fs (samplePath ["etc"]) = some .dir := by decide +kernel
    rw [hdir]
    nofun
  · rw [List.mem_singleton.1 hmem] at hq
    rw [hparent q hq] at hroot
    exact absurd hroot (by decide +kernel)
  · rw [List.mem_singleton.1 hmem]
    exact ⟨fun h => absurd h (by decide +kernel), fun h => absurd h (by decide +kernel)⟩

open RestoreAux in
/-- Where stopping the services fails, nothing was moved: the rollback takes the original tree away and leaves no tree. Where the preservation path is taken, it puts
the tree of the earlier job in place. -/
theorem unmoved_tree_is_lost :
    let stopped := sampleRun plainServer .stop
    let taken := sampleRun takenServer (.later halfRestored)
    stopped.1.fs plainServer.layout.root = none ∧ stopped.2.1.rollbackPerformed = false ∧ ¬ PutBack plainServer (sampleSnapshot plainServer) stopped.1 stopped.2.1 stopped.2.2 ∧
      taken.2.1.rollbackTreeRestored = true ∧ taken.2.2 = false ∧ taken.1.fs (takenServer.layout.root ++ ["restore.sh".toList]) = none := by
  refine ⟨by decide_cbv, by decide_cbv, fun h => ?_, by decide_cbv, by decide_cbv, by decide_cbv⟩
  exact absurd h.performed (by decide_cbv)

end Restore

end TecTac
