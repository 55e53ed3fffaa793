import TecTac.Repository
import TecTac.Lemmas.Version

/-!
# An index that was accepted

Every entry of an index is kept once or recorded once, and no two releases that are kept have one id and version. What is kept can be evaluated
exactly when the entries could: the check of an entry asks for the version with a constraint that every version satisfies and for each constraint with
one version, and stores another text for an empty value than the one it asked for.
-/

namespace TecTac

namespace Repository

open Raise

/-! ## What is asked of a release and of an entry -/

/-- A constraint that raises for no version. -/
def NeverRaises (constraint : List Char) : Prop :=
  ∀ version v, Version.parse version = .ok v → ∃ b, versionSatisfies version constraint = .ok b

/-- The version of a release can be parsed, and none of its constraints raises. -/
structure Safe (r : Release) : Prop where
  version : ∃ v, Version.parse r.version.toList = .ok v
  constraints : ∀ kv ∈ r.dependencies ++ r.optionalDependencies ++ r.requires, NeverRaises kv.2.toList

/-- Every part of a constraint is well formed, but for those that no version comes to because none satisfies all the parts before them. -/
def WellFormed (constraint : List Char) : Prop :=
  Constraint.isAny constraint = true ∨ ∀ front p back, Constraint.parts constraint = front ++ p :: back → Constraint.part p = none →
    ¬ ∃ version v, Version.read version = some v ∧ ∀ q ∈ front, PartHolds v q

/-- The pairs of one of the three maps of an entry. -/
def pairsOf (label : String) (fields : List (String × Doc)) : List (String × Doc) :=
  (((Doc.field label fields).orElse (.obj [])).pairs).getD []

/-- What an entry has to be for its release to be safe: its version fits the pattern, and the texts that are stored of its constraints are well formed. -/
structure EntrySound (web : Web) (fields : List (String × Doc)) : Prop where
  version : (Version.read (stripped web "version" fields).toList).isSome
  constraints : ∀ label ∈ ["dependencies", "optional_dependencies", "requires"], ∀ kv ∈ pairsOf label fields,
    WellFormed (storedText web kv.2).toList

/-- An index as it is read: the address and the trust of the repository, and the entries. -/
structure Index where
  repoUrl : String
  trust : String
  entries : List Doc

namespace Index

/-- What the check makes of an entry. -/
def validate (web : Web) (index : Index) (raw : Doc) : Except EntryError Release := validateRelease web index.repoUrl index.trust raw

def accepted (web : Web) (index : Index) : Except EntryError (List Release × List Skipped) :=
  acceptedReleases web index.repoUrl index.trust index.entries

/-- No other entry that passes the check has the id and the version of this one. -/
def Single (web : Web) (index : Index) (i : Nat) (r : Release) : Prop :=
  ∀ j raw r', j ≠ i → index.entries[j]? = some raw → index.validate web raw = .ok r' → r'.key ≠ r.key

/-- Every entry that passes the check and has no copy is sound. -/
def Sound (web : Web) (index : Index) : Prop :=
  ∀ (i : Nat) fields r, index.entries[i]? = some (.obj fields) → index.validate web (.obj fields) = .ok r → index.Single web i r →
    EntrySound web fields

end Index

namespace AcceptedIndexAux

/-! ## Constraints -/

theorem neverRaises_iff (constraint : List Char) : NeverRaises constraint ↔ WellFormed constraint := by
  unfold NeverRaises WellFormed
  cases hany : Constraint.isAny constraint with
  | true => simp [versionSatisfies, hany]
  | false =>
    have hparse : ∀ version v, Version.parse version = .ok v ↔ Version.read version = some v := by
      intro version v
      unfold Version.parse
      split <;> simp_all
    have hraises : ∀ version v, Version.read version = some v →
        ((∃ b, versionSatisfies version constraint = .ok b) ↔ ¬ ∃ e, satisfiesParts constraint v (Constraint.parts constraint) = .error e) := by
      intro version v hv
      rw [versionSatisfies, hany, (hparse version v).mpr hv]
      simp only [Bool.false_eq_true, if_false, ok_bind]
      cases satisfiesParts constraint v (Constraint.parts constraint) <;> simp
    constructor
    · intro h
      refine .inr fun front p back hparts hnone => ?_
      rintro ⟨version, v, hv, hfront⟩
      refine (hraises version v hv).mp (h version v ((hparse version v).mpr hv)) ?_
      exact (satisfiesParts_error_iff constraint v _).mpr ⟨front, p, back, hparts, hnone, hfront⟩
    · rintro (h | h)
      · cases h
      · intro version v hv
        have hv := (hparse version v).mp hv
        refine (hraises version v hv).mpr ?_
        intro herror
        obtain ⟨front, p, back, hparts, hnone, hfront⟩ := (satisfiesParts_error_iff constraint v _).mp herror
        exact h front p back hparts hnone ⟨version, v, hv, hfront⟩

theorem parse_isSome_iff (version : List Char) : (∃ v, Version.parse version = .ok v) ↔ (Version.read version).isSome := by
  unfold Version.parse
  split <;> simp_all

/-! ## One entry -/

theorem checkMapping_ok {web : Web} {moduleId label : String} {mapping : Doc} {kvs : List (String × Doc)}
    (h : checkMapping web moduleId label mapping = .ok kvs) : mapping.pairs = some kvs := by
  unfold checkMapping at h
  split at h
  · cases h
  · rename_i kvs' hpairs
    obtain ⟨u, -, h⟩ := bind_ok h
    cases h
    exact hpairs

/-- What a release keeps of its entry. -/
theorem validateRelease_ok {web : Web} {repoUrl trust : String} {raw : Doc} {r : Release} (h : validateRelease web repoUrl trust raw = .ok r) :
    ∃ fields, raw = .obj fields ∧ r.version = stripped web "version" fields ∧
      r.dependencies = storedMapping web (pairsOf "dependencies" fields) ∧
      r.optionalDependencies = storedMapping web (pairsOf "optional_dependencies" fields) ∧
      r.requires = storedMapping web (pairsOf "requires" fields) := by
  unfold validateRelease at h
  split at h
  · cases h
  · rename_i fields hfields
    obtain ⟨u, -, h⟩ := bind_ok h
    obtain ⟨u, -, h⟩ := bind_ok h
    obtain ⟨u, -, h⟩ := bind_ok h
    obtain ⟨u, -, h⟩ := bind_ok h
    obtain ⟨dependencies, hdependencies, h⟩ := bind_ok h
    obtain ⟨optional, hoptional, h⟩ := bind_ok h
    obtain ⟨requires, hrequires, h⟩ := bind_ok h
    obtain ⟨absolute, -, h⟩ := bind_ok h
    obtain ⟨u, -, h⟩ := bind_ok h
    obtain ⟨signatureUrl, -, h⟩ := bind_ok h
    obtain ⟨metadataUrl, -, h⟩ := bind_ok h
    obtain ⟨u, -, h⟩ := bind_ok h
    have hobj : raw = .obj fields := by
      cases raw with
      | obj kvs =>
        cases hfields
        rfl
      | _ => cases hfields
    have hpairs : ∀ {label : String} {kvs : List (String × Doc)}, checkMapping web (stripped web "id" fields) label
        ((Doc.field label fields).orElse (.obj [])) = .ok kvs → kvs = pairsOf label fields := by
      intro label kvs hkvs
      rw [pairsOf, checkMapping_ok hkvs]
      rfl
    refine ⟨fields, hobj, ?_⟩
    rw [← hpairs hdependencies, ← hpairs hoptional, ← hpairs hrequires]
    obtain ⟨u, -, h⟩ := bind_ok h
    cases h
    exact ⟨rfl, rfl, rfl, rfl⟩

/-- A release is safe exactly when its entry is sound. -/
theorem safe_iff {web : Web} {repoUrl trust : String} {fields : List (String × Doc)} {r : Release}
    (h : validateRelease web repoUrl trust (.obj fields) = .ok r) : Safe r ↔ EntrySound web fields := by
  obtain ⟨fields', heq, hversion, hdependencies, hoptional, hrequires⟩ := validateRelease_ok h
  cases heq
  have hstored : ∀ {label : String}, (∀ kv ∈ storedMapping web (pairsOf label fields), NeverRaises kv.2.toList) ↔
      ∀ kv ∈ pairsOf label fields, WellFormed (storedText web kv.2).toList := by
    intro label
    simp only [storedMapping, List.forall_mem_map, neverRaises_iff]
  constructor
  · intro hsafe
    have hall := hsafe.constraints
    rw [hdependencies, hoptional, hrequires, List.forall_mem_append, List.forall_mem_append] at hall
    refine ⟨by rw [← hversion]; exact (parse_isSome_iff _).mp hsafe.version, ?_⟩
    simp only [List.forall_mem_cons, List.not_mem_nil, false_implies, implies_true, and_true]
    exact ⟨hstored.mp hall.1.1, hstored.mp hall.1.2, hstored.mp hall.2⟩
  · intro hsound
    have hall := hsound.constraints
    simp only [List.forall_mem_cons, List.not_mem_nil, false_implies, implies_true, and_true] at hall
    refine ⟨(parse_isSome_iff _).mpr (by rw [hversion]; exact hsound.version), ?_⟩
    rw [hdependencies, hoptional, hrequires, List.forall_mem_append, List.forall_mem_append]
    exact ⟨⟨hstored.mpr hall.1, hstored.mpr hall.2.1⟩, hstored.mpr hall.2.2⟩

/-! ## The whole index -/

/-- The place of what became of an entry. -/
def place : (Nat × Release) ⊕ Skipped → Nat
  | .inl entry => entry.1
  | .inr record => record.index

theorem places_perm (sorted : List ((Nat × Release) ⊕ Skipped)) :
    ((sorted.filterMap Sum.getLeft?).map Prod.fst ++ (sorted.filterMap Sum.getRight?).map Skipped.index).Perm (sorted.map place) := by
  induction sorted with
  | nil => simp
  | cons x xs ih =>
    cases x with
    | inl entry => exact ih.cons entry.1
    | inr record =>
      refine List.perm_middle.trans ?_
      exact ih.cons record.index

theorem mem_getLeft {sorted : List ((Nat × Release) ⊕ Skipped)} {entry : Nat × Release} (h : entry ∈ sorted.filterMap Sum.getLeft?) :
    .inl entry ∈ sorted := by
  obtain ⟨x, hx, heq⟩ := List.mem_filterMap.mp h
  cases x with
  | inl e =>
    cases heq
    exact hx
  | inr r => cases heq

/-- What `_accepted_releases` has made of the entries before it looks for copies. -/
structure Sorted (web : Web) (index : Index) (sorted : List ((Nat × Release) ⊕ Skipped)) : Prop where
  places : sorted.map place = List.range index.entries.length
  accepted : ∀ i r, (i, r) ∈ sorted.filterMap Sum.getLeft? ↔ ∃ raw, index.entries[i]? = some raw ∧ index.validate web raw = .ok r

theorem sorted_of_mapM {web : Web} {index : Index} {sorted : List ((Nat × Release) ⊕ Skipped)}
    (h : index.entries.zipIdx.mapM (sortEntry web index.repoUrl index.trust) = .ok sorted) : Sorted web index sorted := by
  have hplace : ∀ x y, sortEntry web index.repoUrl index.trust x = .ok y → place y = x.2 := by
    intro x y hy
    unfold sortEntry at hy
    split at hy <;> first | (cases hy; rfl) | nomatch hy
  constructor
  · rw [map_eq_of_mapM h hplace, List.zipIdx_map_snd, List.range_eq_range']
  · intro i r
    constructor
    · intro hmem
      obtain ⟨x, hx, hsort⟩ := mem_of_mapM_ok h (mem_getLeft hmem)
      have hi := hplace x _ hsort
      unfold sortEntry at hsort
      split at hsort
      · rename_i r' hr'
        cases hsort
        exact ⟨x.1, List.mem_zipIdx_iff_getElem?.mp hx, hr'⟩
      · cases hsort
      · cases hsort
      · cases hsort
    · rintro ⟨raw, hraw, hr⟩
      have hx : (raw, i) ∈ index.entries.zipIdx := List.mem_zipIdx_iff_getElem?.mpr hraw
      obtain ⟨y, hy, hsort⟩ := mapM_ok_of_mem h hx
      unfold sortEntry at hsort
      rw [show validateRelease web index.repoUrl index.trust raw = .ok r from hr] at hsort
      cases hsort
      exact List.mem_filterMap.mpr ⟨_, hy, rfl⟩

/-- An accepted entry is the only one of its id and version exactly when no other one has them. -/
theorem isOnly_iff {accepted : List (Nat × Release)} (hnodup : (accepted.map Prod.fst).Nodup) {i : Nat} {r : Release} (h : (i, r) ∈ accepted) :
    isOnly accepted r = true ↔ ∀ j r', (j, r') ∈ accepted → j ≠ i → r'.key ≠ r.key := by
  obtain ⟨front, back, rfl⟩ := List.append_of_mem h
  have hcount : isOnly (front ++ (i, r) :: back) r = true ↔ ∀ e ∈ front ++ back, e.2.key ≠ r.key := by
    have hmem : (∀ e ∈ front ++ back, e.2.key ≠ r.key) ↔ r.key ∉ (front ++ back).map fun e => e.2.key := by
      simp [eq_comm, or_imp, forall_and]
    rw [hmem, ← List.count_eq_zero]
    simp only [isOnly, List.map_append, List.map_cons, List.count_append, List.count_cons_self, Bool.not_eq_true', decide_eq_false_iff_not]
    omega
  have hother : ∀ e ∈ front ++ back, e.1 ≠ i := by
    intro e he hi
    rw [List.map_append, List.map_cons, List.nodup_middle, List.nodup_cons, ← List.map_append] at hnodup
    exact hnodup.1 (List.mem_map.mpr ⟨e, he, hi⟩)
  rw [hcount]
  constructor
  · intro hall j r' hmem hj
    rcases List.mem_append.mp hmem with hmem | hmem
    · exact hall _ (List.mem_append_left _ hmem)
    · rcases List.mem_cons.mp hmem with heq | hmem
      · cases heq
        exact absurd rfl hj
      · exact hall _ (List.mem_append_right _ hmem)
  · intro hall e he
    refine hall e.1 e.2 ?_ (hother e he)
    rcases List.mem_append.mp he with he | he
    · exact List.mem_append_left _ he
    · exact List.mem_append_right _ (List.mem_cons_of_mem _ he)

variable {web : Web} {index : Index} {kept : List Release} {skipped : List Skipped}

/-- What an accepted index keeps and records. -/
theorem accepted_ok (h : index.accepted web = .ok (kept, skipped)) : ∃ accepted : List (Nat × Release),
    (accepted.map Prod.fst).Nodup ∧ (∀ i r, (i, r) ∈ accepted ↔ ∃ raw, index.entries[i]? = some raw ∧ index.validate web raw = .ok r) ∧
    kept = (accepted.filter fun e => isOnly accepted e.2).map Prod.snd ∧
    ((accepted.filter fun e => isOnly accepted e.2).map Prod.fst ++ skipped.map Skipped.index).Perm (List.range index.entries.length) := by
  unfold Index.accepted acceptedReleases at h
  obtain ⟨sorted, hsorted, h⟩ := bind_ok h
  obtain ⟨u, -, h⟩ := bind_ok h
  cases h
  have hs := sorted_of_mapM hsorted
  have hperm := places_perm sorted
  rw [hs.places] at hperm
  refine ⟨sorted.filterMap Sum.getLeft?, ?_, hs.accepted, rfl, ?_⟩
  · exact (List.nodup_append.mp (hperm.nodup_iff.mpr List.nodup_range)).1
  · refine List.Perm.trans ?_ hperm
    set accepted := sorted.filterMap Sum.getLeft?
    have hsplit : ((accepted.filter fun e => isOnly accepted e.2).map Prod.fst ++ (accepted.filter fun e => !isOnly accepted e.2).map Prod.fst).Perm
        (accepted.map Prod.fst) := by
      have hfilter := (List.filter_append_perm (fun e : Nat × Release => isOnly accepted e.2) accepted).map Prod.fst
      rwa [List.map_append] at hfilter
    have hrecords := (List.perm_insertionSort (fun a b : Skipped => a.index ≤ b.index) (sorted.filterMap Sum.getRight? ++
      (accepted.filter fun e => !isOnly accepted e.2).map fun e => skippedRelease e.1 e.2 "duplicate")).map Skipped.index
    have hindex : (Skipped.index ∘ fun e : Nat × Release => skippedRelease e.1 e.2 "duplicate") = Prod.fst := rfl
    rw [List.map_append, List.map_map, hindex] at hrecords
    exact ((hrecords.trans List.perm_append_comm).append_left _).trans (by rw [← List.append_assoc]; exact hsplit.append_right _)

theorem kept_nodup (h : index.accepted web = .ok (kept, skipped)) : (kept.map Release.key).Nodup := by
  obtain ⟨accepted, -, -, rfl, -⟩ := accepted_ok h
  rw [List.nodup_iff_count_le_one]
  intro key
  by_cases hmem : key ∈ ((accepted.filter fun e => isOnly accepted e.2).map Prod.snd).map Release.key
  · obtain ⟨r, hr, rfl⟩ := List.mem_map.mp hmem
    obtain ⟨e, he, rfl⟩ := List.mem_map.mp hr
    have honly := (List.mem_filter.mp he).2
    have hsub : (((accepted.filter fun e => isOnly accepted e.2).map Prod.snd).map Release.key).Sublist (accepted.map fun e => e.2.key) := by
      rw [List.map_map]
      exact List.filter_sublist.map _
    have hle := hsub.count_le e.2.key
    simp only [isOnly, Bool.not_eq_true', decide_eq_false_iff_not] at honly
    omega
  · rw [List.count_eq_zero.mpr hmem]
    omega

theorem safe_kept_iff (h : index.accepted web = .ok (kept, skipped)) : (∀ r ∈ kept, Safe r) ↔ index.Sound web := by
  obtain ⟨accepted, hnodup, haccepted, rfl, -⟩ := accepted_ok h
  have hsingle : ∀ i r, (i, r) ∈ accepted → (isOnly accepted r = true ↔ index.Single web i r) := by
    intro i r hmem
    rw [isOnly_iff hnodup hmem]
    constructor
    · intro hall j raw r' hj hraw hr'
      exact hall j r' ((haccepted j r').mpr ⟨raw, hraw, hr'⟩) hj
    · intro hall j r' hmem' hj
      obtain ⟨raw, hraw, hr'⟩ := (haccepted j r').mp hmem'
      exact hall j raw r' hj hraw hr'
  constructor
  · intro hsafe i fields r hraw hr hone
    have hmem := (haccepted i r).mpr ⟨_, hraw, hr⟩
    refine (safe_iff hr).mp (hsafe r (List.mem_map.mpr ⟨(i, r), List.mem_filter.mpr ⟨hmem, ?_⟩, rfl⟩))
    exact (hsingle i r hmem).mpr hone
  · intro hsound r hr
    obtain ⟨⟨i, r⟩, he, rfl⟩ := List.mem_map.mp hr
    obtain ⟨hmem, honly⟩ := List.mem_filter.mp he
    obtain ⟨raw, hraw, hvalid⟩ := (haccepted i r).mp hmem
    obtain ⟨fields, rfl, -⟩ := validateRelease_ok hvalid
    exact (safe_iff hvalid).mpr (hsound i fields r hraw hvalid ((hsingle i r hmem).mp honly))

/-! ## The choice of a release -/

theorem stripped_version {repoUrl trust : String} {raw : Doc} {r : Release} (h : validateRelease web repoUrl trust raw = .ok r) :
    strip r.version.toList = r.version.toList := by
  obtain ⟨fields, rfl, hversion, -⟩ := validateRelease_ok h
  rw [hversion, stripped, String.toList_ofList, strip_strip]

/-- A cached release whose version is a stripped text that can be read. -/
def Readable (item : CachedRelease) : Prop := (∃ v, Version.read item.version.toList = some v) ∧ strip item.version.toList = item.version.toList

theorem newest_ok {first : CachedRelease} {others : List CachedRelease} (hfirst : Readable first) (hothers : ∀ item ∈ others, Readable item) :
    ∃ item, newest first others = .ok item := by
  unfold newest
  induction others generalizing first with
  | nil => exact ⟨first, rfl⟩
  | cons item others ih =>
    obtain ⟨hitem, hrest⟩ := List.forall_mem_cons.mp hothers
    obtain ⟨v, hv⟩ := hitem.1
    obtain ⟨w, hw⟩ := hfirst.1
    rw [List.foldlM_cons, above, versionSatisfies_above hv hw]
    simp only [ok_bind, pure_bind]
    split
    · exact ih hitem hrest
    · exact ih hfirst hrest

theorem selectOnline_ok (source : Option String) {releases : List CachedRelease} (h : ∀ item ∈ releases, Readable item) :
    ∃ x, selectOnline source releases = .ok x := by
  have hchoices : ∀ item ∈ releases.insertionSort (fun a b => choiceLe a b), Readable item := by
    intro item hitem
    exact h item ((List.mem_insertionSort _).mp hitem)
  unfold selectOnline
  extract_lets choices pinned pool
  have hpool : ∀ item ∈ pool, Readable item := by
    intro item hitem
    refine hchoices item ?_
    unfold pool at hitem
    split at hitem
    · exact hitem
    · unfold pinned at hitem
      split at hitem
      · split at hitem
        · cases hitem
        · exact (List.mem_filter.mp hitem).1
      · cases hitem
  split
  · exact ⟨none, rfl⟩
  · split
    · exact ⟨none, rfl⟩
    · rename_i first others heq
      have hcohort : ∀ item ∈ first :: others, Readable item := fun item hitem => hpool item (List.mem_filter.mp (heq ▸ hitem)).1
      obtain ⟨item, hitem⟩ := newest_ok (hcohort first List.mem_cons_self) fun x hx => hcohort x (List.mem_cons_of_mem _ hx)
      exact ⟨some item, by rw [hitem]; rfl⟩

theorem onlineSelections_ok (source : String → Option String) {cached : List CachedRelease} (h : ∀ item ∈ cached, Readable item) :
    ∃ x, onlineSelections source cached = .ok x := by
  refine mapM_ok fun moduleId _ => ?_
  have hreleases : ∀ item ∈ (cached.filter fun item => !item.downloadUnavailable).filter fun item => item.id == moduleId, Readable item :=
    fun item hitem => h item (List.mem_filter.mp (List.mem_filter.mp hitem).1).1
  obtain ⟨x, hx⟩ := selectOnline_ok (source moduleId) hreleases
  exact ⟨(moduleId, x), by rw [hx]; rfl⟩

theorem stageSelection_ok (licensing : Bool) (moduleId : String) (version : Option String) {cached : List CachedRelease}
    (h : ∀ item ∈ cached, Readable item) (e : StateError) : stageSelection licensing moduleId version cached ≠ .error (.state e) := by
  unfold stageSelection
  extract_lets named candidates
  have hcandidates : ∀ item ∈ candidates, Readable item := by
    intro item hitem
    refine h item ?_
    have hnamed : ∀ item ∈ named, item ∈ cached := fun item hitem => (List.mem_filter.mp hitem).1
    unfold candidates at hitem
    split at hitem
    · split at hitem
      · exact hnamed item hitem
      · exact hnamed item (List.mem_filter.mp hitem).1
    · exact hnamed item hitem
  have hnewest : ∀ {first : CachedRelease} {others : List CachedRelease}, (∀ item ∈ first :: others, Readable item) →
      ∃ item, newest first others = .ok item :=
    fun hall => newest_ok (hall _ List.mem_cons_self) fun x hx => hall x (List.mem_cons_of_mem _ hx)
  clear_value candidates
  intro herror
  split at herror
  · cases herror
  · rename_i first others
    split at herror
    · split at herror
      · obtain ⟨item, hitem⟩ := hnewest hcandidates
        rw [hitem] at herror
        cases herror
      · cases herror
    · split at herror
      · cases herror
      · rename_i first' others' heq'
        obtain ⟨item, hitem⟩ := hnewest fun x hx => hcandidates x (List.mem_filter.mp (heq' ▸ hx)).1
        rw [hitem] at herror
        cases herror

end AcceptedIndexAux

open AcceptedIndexAux

namespace AcceptedIndexAux

/-- Addresses that are all let through. -/
def openWeb : Web where
  repr
    | .null => "None"
    | .str s => "'" ++ s ++ "'"
    | .arr [] => "[]"
    | .obj [] => "\x7b\x7d"
    | _ => "..."
  urljoin _ ref := .ok ("https://repository.example/" ++ ref)
  urlparse _ := .error "not read"
  validateRemoteUrl _ _ := .ok ()

def entry (version : String) (constraint : Doc) : Doc :=
  .obj [("id", .str "probe"), ("version", .str version), ("download", .str "probe.zip"), ("sha256", .str (String.ofList (List.replicate 64 '0'))),
    ("dependencies", .obj [("core", constraint)])]

def soundIndex : Index := ⟨"https://repository.example/index.json", "custom", [entry "1.0.0" (.str ">=1.2, <2"), entry "1.1.0-2" (.str "*")]⟩

/-- A version that is no number, a constraint that is null, and one with a part that the version 0.0.0 does not come to. -/
def brokenIndex : Index :=
  ⟨"https://repository.example/index.json", "custom", [entry "1.0.0" .null, entry "latest" (.str ">1, newest")]⟩

def keptOf (index : Index) : List Release := ((index.accepted openWeb).toOption.map Prod.fst).getD []

def cachedOf (index : Index) : List CachedRelease := (keptOf index).map fun r => ⟨r, "main", 100, false, ""⟩

def failed {ε α : Type} : Except ε α → Bool
  | .error _ => true
  | .ok _ => false

/-- A constraint whose parts are all well formed. -/
def partsWell (constraint : List Char) : Bool :=
  Constraint.isAny constraint || (Constraint.parts constraint).all fun p => (Constraint.part p).isSome

theorem wellFormed_of_partsWell {constraint : List Char} (h : partsWell constraint = true) : WellFormed constraint := by
  rcases Bool.or_eq_true_iff.mp h with hany | hall
  · exact .inl hany
  · refine .inr fun front p back hparts hnone => ?_
    have := List.all_eq_true.mp hall p (by rw [hparts]; simp)
    rw [hnone] at this
    cases this

/-- The conditions on the entries, as a check. -/
def soundNow (index : Index) : Bool := index.entries.all fun raw =>
  let fields := raw.pairs.getD []
  (Version.read (stripped openWeb "version" fields).toList).isSome &&
    ["dependencies", "optional_dependencies", "requires"].all fun label => (pairsOf label fields).all fun kv =>
      partsWell (storedText openWeb kv.2).toList

theorem sound_of_soundNow {index : Index} (h : soundNow index = true) : index.Sound openWeb := by
  intro i fields r hraw _ _
  have hentry := List.all_eq_true.mp h _ (List.mem_of_getElem? hraw)
  obtain ⟨hversion, hconstraints⟩ := Bool.and_eq_true_iff.mp hentry
  refine ⟨hversion, fun label hlabel kv hkv => wellFormed_of_partsWell ?_⟩
  exact List.all_eq_true.mp (List.all_eq_true.mp hconstraints label hlabel) kv hkv

theorem accepted_keptOf {index : Index} (h : keptOf index ≠ []) : ∃ skipped, index.accepted openWeb = .ok (keptOf index, skipped) := by
  cases haccepted : index.accepted openWeb with
  | error e => simp [keptOf, haccepted, Except.toOption] at h
  | ok p => exact ⟨p.2, by rw [keptOf, haccepted]; rfl⟩

end AcceptedIndexAux

end Repository

end TecTac
