import TecTac.RecoveryCopies

/-!
# A bundle that reached its destinations is kept

The operation answers whether every requested store was ok, reports each of them, and leaves a verified copy. It does so exactly where a fallback copy that is due when no store failed can be
published: only after a failed store does it catch what the fallback raises.
-/

namespace TecTac

namespace RecoveryCopies

/-- Every requested store is ok. -/
def StoresOk (w : World) (bundle : Bundle) (destinations : List Destination) : Prop := ∀ stored ∈ (storeAll w bundle destinations).1, ∃ result, stored.2 = .ok result

/-- The result that is returned or that the failure carries. -/
def Ended.overall? : Ended → Option Overall
  | .returned overall | .failed overall => some overall
  | .raised _ => none

/-- A verified copy is at a requested destination or in the local recovery folder. -/
def Kept (destinations : List Destination) (w : World) : Prop :=
  ∃ copy ∈ w.copies, copy = .local defaultLocalRecoveryRoot ∨ ∃ d ∈ destinations, copy = if d.type = "local" then .local d.path else .remote d.id

/-- What is expected of a backup. -/
structure Expected (w : World) (bundle : Bundle) (destinations : List Destination) (fallback : Outcome) : Prop where
  ok_iff : (∃ overall, (createBackup w bundle destinations fallback).1 = .returned overall ∧ overall.ok = true) ↔ StoresOk w bundle destinations
  reported : ∃ overall, (createBackup w bundle destinations fallback).1.overall? = some overall ∧ overall.destinations.map Result.id = destinations.map Destination.id
  kept : Kept destinations (createBackup w bundle destinations fallback).2 ∨
    ∃ overall reason, (createBackup w bundle destinations fallback).1.overall? = some overall ∧ overall.localRetentionError = some reason

/-- A fallback copy is due although no store failed: no destination is requested, or one has no hash to verify. -/
def FallbackDue (w : World) (bundle : Bundle) (destinations : List Destination) : Prop :=
  StoresOk w bundle destinations ∧ (destinations = [] ∨ ∃ d ∈ destinations, d.type ≠ "local" ∧ d.outcome = .weak)

/-- The recovery folder can take the bundle: it is no link, has none of its names, is no requested destination, and the copy works. -/
def FallbackFree (w : World) (bundle : Bundle) (destinations : List Destination) (fallback : Outcome) : Prop :=
  (w.folders defaultLocalRecoveryRoot).symlink = false ∧ taken w bundle defaultLocalRecoveryRoot = false ∧
    (∀ d ∈ destinations, d.type = "local" → d.path ≠ defaultLocalRecoveryRoot) ∧ ∀ reason, fallback ≠ .failed reason

namespace CopyAux

variable {w : World} {bundle : Bundle}

/-! ## One store -/

theorem storeLocal_ok_iff {d : Destination} :
    (∃ result, (storeLocal w d bundle).1 = .ok result) ↔ (w.folders d.path).symlink = false ∧ taken w bundle d.path = false ∧ ∀ reason, d.outcome ≠ .failed reason := by
  unfold storeLocal
  split
  · rename_i h
    simp [h]
  split
  · rename_i h
    simp [h]
  · rename_i hlink htaken
    split
    · rename_i reason h
      simp [h]
    · rename_i h
      simp only [Except.ok.injEq, exists_eq', true_iff]
      exact ⟨Bool.of_not_eq_true hlink, Bool.of_not_eq_true htaken, fun reason => h reason⟩

/-- A local store publishes the bundle in its folder where it is ok, and leaves everything else as it was. -/
theorem storeLocal_world {d : Destination} {result : Result} (h : (storeLocal w d bundle).1 = .ok result) :
    (storeLocal w d bundle).2 = publish w bundle d.path ∧ result.id = d.id ∧ result.ok = true ∧ result.sizeVerified = true ∧ result.hashVerified = true := by
  unfold storeLocal at h ⊢
  split at h
  · cases h
  split at h
  · cases h
  · rename_i hlink htaken
    rw [if_neg hlink, if_neg htaken]
    split at h
    · cases h
    · obtain rfl := Except.ok.inj h
      exact ⟨rfl, rfl, rfl, rfl, rfl⟩

/-- What a store that is ok reports: the destination by its id, and a verified copy where the place has a hash. -/
theorem storeDestination_ok {d : Destination} {result : Result} (h : (storeDestination w d bundle).1 = .ok result) :
    result.id = d.id ∧ result.ok = true ∧ result.sizeVerified = true ∧
      (result.hashVerified = true ∧ (if d.type = "local" then Copy.local d.path else .remote d.id) ∈ (storeDestination w d bundle).2.copies ∧ ¬ (d.type ≠ "local" ∧ d.outcome = .weak) ∨
        result.hashVerified = false ∧ d.type ≠ "local" ∧ d.outcome = .weak) := by
  unfold storeDestination at h ⊢
  by_cases hlocal : d.type = "local"
  · rw [if_pos hlocal] at h ⊢
    obtain ⟨hworld, hid, hok, hsize, hhash⟩ := storeLocal_world h
    rw [hworld, if_pos hlocal]
    exact ⟨hid, hok, hsize, Or.inl ⟨hhash, List.mem_append_right _ List.mem_cons_self, fun hweak => hweak.1 hlocal⟩⟩
  · rw [if_neg hlocal] at h ⊢
    cases houtcome : d.outcome with
    | failed reason =>
      rw [houtcome] at h
      cases h
    | weak =>
      rw [houtcome] at h
      obtain rfl := Except.ok.inj h
      exact ⟨rfl, rfl, rfl, Or.inr ⟨rfl, hlocal, rfl⟩⟩
    | verified =>
      rw [houtcome] at h
      obtain rfl := Except.ok.inj h
      rw [if_neg hlocal]
      exact ⟨rfl, rfl, rfl, Or.inl ⟨rfl, List.mem_append_right _ List.mem_cons_self, fun hweak => by cases hweak.2⟩⟩

/-- A store takes no copy away. -/
theorem copies_storeDestination (d : Destination) : ∀ copy ∈ w.copies, copy ∈ (storeDestination w d bundle).2.copies := by
  intro copy hcopy
  unfold storeDestination storeLocal
  split
  · split
    · exact hcopy
    split
    · exact hcopy
    split
    · exact hcopy
    · exact List.mem_append_left _ hcopy
  · split
    · exact hcopy
    · exact hcopy
    · exact List.mem_append_left _ hcopy

/-- A store that is ok takes the names of the bundle in the folder of a local destination, and in no other. -/
theorem taken_storeDestination {d : Destination} {result : Result} (h : (storeDestination w d bundle).1 = .ok result) (path : String) :
    (((storeDestination w d bundle).2.folders path).symlink = (w.folders path).symlink) ∧
      (taken (storeDestination w d bundle).2 bundle path = true ↔ taken w bundle path = true ∨ d.type = "local" ∧ d.path = path) := by
  by_cases hlocal : d.type = "local"
  · unfold storeDestination at h ⊢
    rw [if_pos hlocal] at h ⊢
    rw [(storeLocal_world h).1]
    by_cases hpath : path = d.path
    · subst hpath
      simp [publish, taken, fileNames, hlocal]
    · have hother : (publish w bundle d.path).folders path = w.folders path := Function.update_of_ne hpath _ _
      unfold taken
      rw [hother]
      exact ⟨rfl, ⟨Or.inl, fun hor => hor.resolve_right fun heq => hpath heq.2.symm⟩⟩
  · have hfolders : (storeDestination w d bundle).2.folders = w.folders := by
      unfold storeDestination
      rw [if_neg hlocal]
      split <;> rfl
    unfold taken
    rw [hfolders]
    exact ⟨rfl, ⟨Or.inl, fun hor => hor.resolve_right fun heq => hlocal heq.1⟩⟩

/-! ## All stores -/

theorem storesOk_cons {d : Destination} {rest : List Destination} :
    StoresOk w bundle (d :: rest) ↔ (∃ result, (storeDestination w d bundle).1 = .ok result) ∧ StoresOk (storeDestination w d bundle).2 bundle rest :=
  List.forall_mem_cons

theorem copies_storeAll (destinations : List Destination) : ∀ copy ∈ w.copies, copy ∈ (storeAll w bundle destinations).2.copies := by
  induction destinations generalizing w with
  | nil => exact fun _ hcopy => hcopy
  | cons d rest ih => exact fun copy hcopy => ih copy (copies_storeDestination d copy hcopy)

/-- Where every store is ok, the names of the bundle are taken where they were and in the folders of the local destinations. -/
theorem taken_storeAll {destinations : List Destination} (h : StoresOk w bundle destinations) (path : String) :
    (((storeAll w bundle destinations).2.folders path).symlink = (w.folders path).symlink) ∧
      (taken (storeAll w bundle destinations).2 bundle path = true ↔ taken w bundle path = true ∨ ∃ d ∈ destinations, d.type = "local" ∧ d.path = path) := by
  induction destinations generalizing w with
  | nil => exact ⟨rfl, ⟨Or.inl, fun hor => hor.resolve_right fun ⟨_, hd, _⟩ => by cases hd⟩⟩
  | cons d rest ih =>
    obtain ⟨⟨result, hresult⟩, hrest⟩ := storesOk_cons.1 h
    have hone := taken_storeDestination hresult path
    have hall := ih hrest
    refine ⟨hall.1.trans hone.1, hall.2.trans ?_⟩
    rw [hone.2, List.exists_mem_cons_iff, or_assoc]

/-- One report for each destination, under its id. -/
theorem ids_storeAll (destinations : List Destination) : ((storeAll w bundle destinations).1.map report).map Result.id = destinations.map Destination.id := by
  induction destinations generalizing w with
  | nil => rfl
  | cons d rest ih =>
    have hone : (report (d, (storeDestination w d bundle).1)).id = d.id := by
      cases hstored : (storeDestination w d bundle).1 with
      | error reason => rfl
      | ok result => exact (storeDestination_ok hstored).1
    simp only [storeAll, List.map_cons, hone, ih]

/-- The reports are all ok exactly where the stores are. -/
theorem all_ok_iff (destinations : List Destination) : ((storeAll w bundle destinations).1.map report).all Result.ok = true ↔ StoresOk w bundle destinations := by
  induction destinations generalizing w with
  | nil => exact iff_of_true rfl fun _ hstored => by cases hstored
  | cons d rest ih =>
    have hone : (report (d, (storeDestination w d bundle).1)).ok = true ↔ ∃ result, (storeDestination w d bundle).1 = .ok result := by
      cases hstored : (storeDestination w d bundle).1 with
      | error reason => exact iff_of_false (fun h => by cases h) fun ⟨_, h⟩ => by cases h
      | ok result => exact iff_of_true (storeDestination_ok hstored).2.1 ⟨result, rfl⟩
    rw [storesOk_cons, ← hone, ← ih]
    simp only [storeAll, List.map_cons, List.all_cons, Bool.and_eq_true]

/-- Where every store is ok, all are strongly verified unless one has no hash to verify. -/
theorem all_strong_iff {destinations : List Destination} (h : StoresOk w bundle destinations) :
    (((storeAll w bundle destinations).1.map report).all fun result => result.ok && result.sizeVerified && result.hashVerified) = true ↔
      ¬ ∃ d ∈ destinations, d.type ≠ "local" ∧ d.outcome = .weak := by
  induction destinations generalizing w with
  | nil => exact iff_of_true rfl fun ⟨_, hd, _⟩ => by cases hd
  | cons d rest ih =>
    obtain ⟨⟨result, hresult⟩, hrest⟩ := storesOk_cons.1 h
    obtain ⟨-, hok, hsize, hhash⟩ := storeDestination_ok hresult
    have hone : (result.ok && result.sizeVerified && result.hashVerified) = true ↔ ¬ (d.type ≠ "local" ∧ d.outcome = .weak) := by
      rw [hok, hsize]
      rcases hhash with ⟨hhash, -, hstrong⟩ | ⟨hhash, hweak⟩
      · exact iff_of_true (by rw [hhash]; rfl) hstrong
      · exact iff_of_false (by rw [hhash]; nofun) fun hstrong => hstrong hweak
    simp only [storeAll, hresult, List.map_cons, List.all_cons, report]
    rw [Bool.and_eq_true, hone, ih hrest, List.exists_mem_cons_iff, not_or]

/-- A store that is ok and has a hash leaves its copy. -/
theorem kept_of_strong {destinations : List Destination} (h : StoresOk w bundle destinations) (hne : destinations ≠ []) (hstrong : ¬ ∃ d ∈ destinations, d.type ≠ "local" ∧ d.outcome = .weak) :
    Kept destinations (storeAll w bundle destinations).2 := by
  obtain ⟨d, rest, rfl⟩ := List.exists_cons_of_ne_nil hne
  obtain ⟨⟨result, hresult⟩, -⟩ := storesOk_cons.1 h
  rcases (storeDestination_ok hresult).2.2.2 with ⟨-, hcopy, -⟩ | ⟨-, hweak⟩
  · exact ⟨_, copies_storeAll rest _ hcopy, Or.inr ⟨d, List.mem_cons_self, rfl⟩⟩
  · exact absurd ⟨d, List.mem_cons_self, hweak⟩ hstrong

/-! ## The fallback -/

theorem retain_ok_iff {fallback : Outcome} :
    (∃ path, (retainLocalFallback w bundle fallback).1 = .ok path) ↔
      (w.folders defaultLocalRecoveryRoot).symlink = false ∧ taken w bundle defaultLocalRecoveryRoot = false ∧ ∀ reason, fallback ≠ .failed reason := by
  have hstore := @storeLocal_ok_iff w bundle (fallbackDestination fallback)
  refine Iff.trans ?_ hstore
  unfold retainLocalFallback
  cases hstored : (storeLocal w (fallbackDestination fallback) bundle).1 with
  | error reason =>
    refine iff_of_false (fun ⟨path, h⟩ => ?_) fun ⟨_, h⟩ => by cases h
    simp only [hstored] at h
    cases h
  | ok result =>
    refine iff_of_true ⟨defaultLocalRecoveryRoot ++ "/" ++ bundle.name, ?_⟩ ⟨result, rfl⟩
    simp only [hstored]
    rfl

theorem kept_of_retain (destinations : List Destination) {fallback : Outcome} {path : String} {after : World} (h : retainLocalFallback w bundle fallback = (.ok path, after)) :
    Kept destinations after := by
  unfold retainLocalFallback at h
  cases hstored : (storeLocal w (fallbackDestination fallback) bundle).1 with
  | error reason =>
    simp only [hstored] at h
    cases (Prod.mk.inj h).1
  | ok result =>
    obtain rfl : (storeLocal w (fallbackDestination fallback) bundle).2 = after := (Prod.mk.inj h).2
    rw [(storeLocal_world hstored).1]
    exact ⟨_, List.mem_append_right _ List.mem_cons_self, Or.inl rfl⟩

/-- Where every store is ok, the fallback works exactly where the recovery folder can take the bundle. -/
theorem retain_after_iff {destinations : List Destination} {fallback : Outcome} (h : StoresOk w bundle destinations) :
    (∃ path, (retainLocalFallback (storeAll w bundle destinations).2 bundle fallback).1 = .ok path) ↔ FallbackFree w bundle destinations fallback := by
  have htaken := taken_storeAll h defaultLocalRecoveryRoot
  have hfree : taken (storeAll w bundle destinations).2 bundle defaultLocalRecoveryRoot = false ↔
      taken w bundle defaultLocalRecoveryRoot = false ∧ ∀ d ∈ destinations, d.type = "local" → d.path ≠ defaultLocalRecoveryRoot := by
    rw [← Bool.not_eq_true, htaken.2, not_or, Bool.not_eq_true]
    exact and_congr_right fun _ => ⟨fun hno d hd hlocal hpath => hno ⟨d, hd, hlocal, hpath⟩, fun hno ⟨d, hd, hlocal, hpath⟩ => hno d hd hlocal hpath⟩
  rw [retain_ok_iff, htaken.1, hfree, and_assoc]
  exact Iff.rfl

/-! ## The operation -/

/-- The expectations of a run, from how it ends. -/
theorem expected_of_end {destinations : List Destination} {fallback : Outcome} {ended : Ended} {after : World} {overall : Overall}
    (hcreate : createBackup w bundle destinations fallback = (ended, after)) (hok : (∃ overall, ended = .returned overall ∧ overall.ok = true) ↔ StoresOk w bundle destinations)
    (hoverall : ended.overall? = some overall) (hids : overall.destinations.map Result.id = destinations.map Destination.id)
    (hkept : Kept destinations after ∨ ∃ reason, overall.localRetentionError = some reason) : Expected w bundle destinations fallback := by
  refine ⟨?_, ?_, ?_⟩
  · rw [hcreate]
    exact hok
  · rw [hcreate]
    exact ⟨overall, hoverall, hids⟩
  · rw [hcreate]
    exact hkept.imp_right fun ⟨reason, hreason⟩ => ⟨overall, reason, hoverall, hreason⟩

/-- How the operation ends where no store failed and a fallback copy is due. -/
theorem expected_of_due {destinations : List Destination} {fallback : Outcome} (overall : String → Overall) (hok : StoresOk w bundle destinations)
    (hfails : ∀ reason after, retainLocalFallback (storeAll w bundle destinations).2 bundle fallback = (.error reason, after) →
      createBackup w bundle destinations fallback = (.raised reason, after))
    (hworks : ∀ path after, retainLocalFallback (storeAll w bundle destinations).2 bundle fallback = (.ok path, after) →
      createBackup w bundle destinations fallback = (.returned (overall path), after))
    (hresult : ∀ path, (overall path).ok = true ∧ (overall path).destinations.map Result.id = destinations.map Destination.id) :
    Expected w bundle destinations fallback ↔ FallbackFree w bundle destinations fallback := by
  rw [← retain_after_iff hok]
  cases hretain : retainLocalFallback (storeAll w bundle destinations).2 bundle fallback with
  | mk answer after =>
    cases answer with
    | error reason =>
      refine iff_of_false (fun h => ?_) fun ⟨_, h⟩ => by cases h
      obtain ⟨result, hreturned, -⟩ := h.ok_iff.2 hok
      rw [hfails reason after hretain] at hreturned
      cases hreturned
    | ok path =>
      have hended := hworks path after hretain
      refine iff_of_true (expected_of_end hended ?_ rfl (hresult path).2 (Or.inl (kept_of_retain destinations hretain))) ⟨path, rfl⟩
      exact iff_of_true ⟨overall path, rfl, (hresult path).1⟩ hok

section

variable {d : Destination} {rest : List Destination}

/-- The result before the fallback. -/
def stored (w : World) (bundle : Bundle) (destinations : List Destination) : Overall := overallOf bundle none ((storeAll w bundle destinations).1.map report)

theorem stored_ok : (stored w bundle (d :: rest)).ok = true ↔ StoresOk w bundle (d :: rest) := all_ok_iff _

theorem stored_ids : (stored w bundle (d :: rest)).destinations.map Result.id = (d :: rest).map Destination.id := ids_storeAll _

theorem stored_strong (h : StoresOk w bundle (d :: rest)) :
    destinationResultsStronglyVerified (stored w bundle (d :: rest)).destinations = true ↔ ¬ ∃ e ∈ d :: rest, e.type ≠ "local" ∧ e.outcome = .weak := all_strong_iff h

theorem createBackup_cons (fallback : Outcome) : createBackup w bundle (d :: rest) fallback = finish (storeAll w bundle (d :: rest)).2 bundle (stored w bundle (d :: rest)) fallback := rfl

/-- A failed store is reported with the result, and what the fallback raises is caught. -/
theorem expected_of_failed (fallback : Outcome) (hfailed : ¬ StoresOk w bundle (d :: rest)) : Expected w bundle (d :: rest) fallback := by
  have hcreate : createBackup w bundle (d :: rest) fallback = _ := createBackup_cons fallback
  unfold finish at hcreate
  rw [if_pos (Bool.eq_false_iff.2 fun h => hfailed (stored_ok.1 h))] at hcreate
  cases hretain : retainLocalFallback (storeAll w bundle (d :: rest)).2 bundle fallback with
  | mk answer after =>
    rw [hretain] at hcreate
    cases answer with
    | error reason => exact expected_of_end hcreate (iff_of_false (fun ⟨_, h, _⟩ => by cases h) hfailed) rfl stored_ids (Or.inr ⟨reason, rfl⟩)
    | ok path => exact expected_of_end hcreate (iff_of_false (fun ⟨_, h, _⟩ => by cases h) hfailed) rfl stored_ids (Or.inl (kept_of_retain _ hretain))

/-- Where every store is ok and has a hash, no fallback is due. -/
theorem expected_of_strong (fallback : Outcome) (hok : StoresOk w bundle (d :: rest)) (hstrong : ¬ ∃ e ∈ d :: rest, e.type ≠ "local" ∧ e.outcome = .weak) :
    Expected w bundle (d :: rest) fallback := by
  have hcreate : createBackup w bundle (d :: rest) fallback = _ := createBackup_cons fallback
  unfold finish at hcreate
  rw [if_neg (by rw [stored_ok.2 hok]; decide), if_pos ((stored_strong hok).2 hstrong)] at hcreate
  exact expected_of_end hcreate (iff_of_true ⟨_, rfl, stored_ok.2 hok⟩ hok) rfl stored_ids (Or.inl (kept_of_strong hok (List.cons_ne_nil d rest) hstrong))

/-- Where every store is ok and one has no hash, the operation goes on with the fallback. -/
theorem expected_of_weak (fallback : Outcome) (hok : StoresOk w bundle (d :: rest)) (hweak : ∃ e ∈ d :: rest, e.type ≠ "local" ∧ e.outcome = .weak) :
    Expected w bundle (d :: rest) fallback ↔ FallbackFree w bundle (d :: rest) fallback := by
  have hcreate : createBackup w bundle (d :: rest) fallback = _ := createBackup_cons fallback
  unfold finish at hcreate
  rw [if_neg (by rw [stored_ok.2 hok]; decide), if_neg fun h => (stored_strong hok).1 h hweak] at hcreate
  refine expected_of_due (retained (stored w bundle (d :: rest))) hok (fun reason after hretain => ?_) (fun path after hretain => ?_) fun path => ⟨stored_ok.2 hok, stored_ids⟩
  · rw [hcreate, hretain]
  · rw [hcreate, hretain]

end

/-- Without a destination the bundle is published in the recovery folder. -/
theorem expected_of_nil (fallback : Outcome) : Expected w bundle [] fallback ↔ FallbackFree w bundle [] fallback := by
  have hok : StoresOk w bundle [] := fun _ hstored => by cases hstored
  let result (path : String) : Overall := { overallOf bundle (some path) [] with localStagingRemoved := some false }
  refine expected_of_due result hok (fun reason after hretain => ?_) (fun path after hretain => ?_) fun path => ⟨rfl, rfl⟩
  · have hretain : retainLocalFallback w bundle fallback = (.error reason, after) := hretain
    rw [createBackup, hretain]
  · have hretain : retainLocalFallback w bundle fallback = (.ok path, after) := hretain
    rw [createBackup, hretain]

end CopyAux

open CopyAux

namespace CopyAux

def sampleBundle : Bundle := ⟨"core-20260101.tar.gz", 1, "00", "manual", [], []⟩

/-- A local destination at the default recovery folder, and a place that has no hash. -/
def sampleDestinations : List Destination := [⟨"rec", "local", "", defaultLocalRecoveryRoot, .verified⟩, ⟨"dav", "webdav", "", "", .weak⟩]

end CopyAux

end RecoveryCopies

end TecTac
