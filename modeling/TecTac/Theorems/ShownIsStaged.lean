import Mathlib
import TecTac.OnlineCatalog
import TecTac.Theorems.AcceptedIndex
import TecTac.Theorems.OneOrder
import TecTac.Lib.FirstBest

/-!
# What the catalogue shows is what staging installs

The catalogue goes through the releases of a repository in the order of their texts and staging goes through them in the order of the index, and both keep
the first of the greatest. They choose the same release in every order of the index exactly when the greatest version is written by one text only, or
when staging refuses because the module is pinned to another repository. `1.0` and `1.0.0` are one version and two texts.
-/

namespace TecTac

namespace Repository

open Raise

/-! ## Repositories, and what they offer -/

/-- One id for each repository, and in each cache releases whose versions can be read, no two of one id and version. -/
structure WellKept (repos : List SourceRepository) : Prop where
  ids : (repos.map SourceRepository.id).Nodup
  parsable : ∀ repo ∈ repos, ∀ cache, repo.cache = some cache → ∀ item ∈ cache.modules, ∃ v, Version.parse item.version.toList = .ok v
  once : ∀ repo ∈ repos, ∀ cache, repo.cache = some cache → (cache.modules.map fun item => item.key).Nodup

def SourceRepository.withModules (repo : SourceRepository) (modules : List CacheEntry) : SourceRepository :=
  { repo with cache := repo.cache.map fun cache => { cache with modules := modules } }

/-- The same repositories, with the entries of their caches in some other order. -/
def Reordered (repos repos' : List SourceRepository) : Prop :=
  List.Forall₂ (fun repo repo' => ∃ modules, repo' = repo.withModules modules ∧ ∀ cache, repo.cache = some cache → cache.modules.Perm modules) repos repos'

/-- The releases of a module that a repository offers. -/
def offered (env : CatalogEnv) (repo : SourceRepository) (moduleId : String) : List CachedRelease :=
  ((cachedModules env repo).filter fun item => item.id == moduleId).filter fun item => !item.downloadUnavailable

/-- A release that no other of the list is newer than. -/
def Greatest (releases : List CachedRelease) (r : CachedRelease) : Prop :=
  r ∈ releases ∧ ∀ other ∈ releases, versionSatisfies other.version.toList (above r.version) ≠ .ok true

/-- The greatest version is written in one way. -/
def OneGreatest (releases : List CachedRelease) : Prop := ∀ r s, Greatest releases r → Greatest releases s → r.version = s.version

section

variable (env : CatalogEnv) (repos : List SourceRepository) (moduleId : String)

def Offers (repo : SourceRepository) : Prop := repo ∈ repos ∧ repo.enabled = true ∧ offered env repo moduleId ≠ []

/-- An installed module came from this repository. -/
def IsSource (repositoryId : String) : Prop := repositoryId ≠ "" ∧ env.source moduleId = some repositoryId

/-- The repository whose releases of a module are used: the one that it came from if that offers the module, and the first one by priority and id
otherwise. -/
structure Used (repo : SourceRepository) : Prop where
  offers : Offers env repos moduleId repo
  source : ∀ other, Offers env repos moduleId other → IsSource env moduleId other.id → IsSource env moduleId repo.id
  least : ∀ other, Offers env repos moduleId other → (IsSource env moduleId repo.id → IsSource env moduleId other.id) →
    repo.priority < other.priority ∨ repo.priority = other.priority ∧ repo.id ≤ other.id

/-- The module is pinned to a repository that does not offer it. -/
def PinRefuses : Prop := ∃ pinned, IsSource env moduleId pinned ∧ ∀ repo, Offers env repos moduleId repo → repo.id ≠ pinned

/-- The catalogue shows a release for the module. -/
def Shown (selected : CachedRelease) : Prop := ∃ items, onlineCatalog env repos = .ok items ∧ (moduleId, some selected) ∈ items

/-- Staging from the repository that is shown picks the version and the download that are shown, or refuses for the pin. -/
def Staged (selected : CachedRelease) : Prop :=
  (∃ pick, stagePackage env repos selected.repositoryId moduleId none false = .ok pick ∧ pick.version = selected.version ∧
    pick.download = selected.download) ∨
  ∃ pinned, stagePackage env repos selected.repositoryId moduleId none false = .error (.pinned moduleId pinned)

/-- In whatever order the entries of the caches stand, the same release is shown, and staging picks it. -/
def ShownIsStaged : Prop :=
  ∀ selected, Shown env repos moduleId selected → ∀ repos', Reordered repos repos' → Shown env repos' moduleId selected ∧ Staged env repos' moduleId selected

end

namespace ShownIsStagedAux

/-! ## Versions of releases -/

/-- The version of a release; nothing depends on the one of a text that cannot be read. -/
def versionOf (r : CachedRelease) : Version := (Version.read r.version.toList).getD ⟨0, 0, 0, []⟩

/-- Releases by their versions. -/
def compareReleases (r s : CachedRelease) : Ordering := (versionOf r).order (versionOf s)

instance : Std.TransCmp compareReleases where
  eq_swap {r s} := by
    unfold compareReleases
    exact Std.OrientedCmp.eq_swap
  isLE_trans {r s t} := by
    unfold compareReleases
    exact Std.TransCmp.isLE_trans

def Parsable (r : CachedRelease) : Prop := ∃ v, Version.read r.version.toList = some v

theorem above_eq {r s : CachedRelease} (hr : Parsable r) (hs : Parsable s) :
    versionSatisfies r.version.toList (above s.version) = .ok (compareReleases r s == .gt) := by
  obtain ⟨v, hv⟩ := hr
  obtain ⟨w, hw⟩ := hs
  rw [above, versionSatisfies_above hv hw, compareReleases, versionOf, versionOf, hv, hw]
  rfl

theorem newest_eq {first : CachedRelease} {others : List CachedRelease} (h : ∀ item ∈ first :: others, Parsable item) :
    newest first others = .ok (firstBest compareReleases first others) := by
  unfold newest firstBest
  induction others generalizing first with
  | nil => rfl
  | cons item others ih =>
    obtain ⟨hfirst, hothers⟩ := List.forall_mem_cons.mp h
    obtain ⟨hitem, hrest⟩ := List.forall_mem_cons.mp hothers
    rw [List.foldlM_cons, above_eq hitem hfirst, List.foldl_cons]
    simp only [ok_bind, pure_bind, beq_iff_eq]
    split
    · exact ih (List.forall_mem_cons.mpr ⟨hitem, hrest⟩)
    · exact ih (List.forall_mem_cons.mpr ⟨hfirst, hrest⟩)

/-- The greatest releases, by the comparison of their versions. -/
theorem greatest_iff {releases : List CachedRelease} (h : ∀ item ∈ releases, Parsable item) {r : CachedRelease} :
    Greatest releases r ↔ r ∈ releases ∧ ∀ other ∈ releases, compareReleases other r ≠ .gt := by
  unfold Greatest
  refine and_congr_right fun hr => forall₂_congr fun other hother => ?_
  rw [above_eq (h other hother) (h r hr)]
  simp

theorem greatest_of_isFirstBest {releases : List CachedRelease} (h : ∀ item ∈ releases, Parsable item) {r : CachedRelease}
    (hr : IsFirstBest compareReleases releases r) : Greatest releases r :=
  (greatest_iff h).mpr ⟨FirstBest.mem hr, fun _ hother => FirstBest.greatest hr hother⟩

/-! ## The selection for one module -/

/-- A list that is sorted by a key is in the order of the keys. -/
theorem pairwise_of_key {α κ : Type} [LinearOrder κ] (r : α → α → Prop) [DecidableRel r] {key : α → κ} (h : ∀ a b, r a b ↔ key a ≤ key b) (xs : List α) :
    (xs.insertionSort r).Pairwise fun a b => key a ≤ key b := by
  have : Std.Total r := ⟨fun a b => by
    rw [h, h]
    exact le_total _ _⟩
  have : IsTrans α r := ⟨fun a b c hab hbc => by
    rw [h] at hab hbc ⊢
    exact hab.trans hbc⟩
  exact (List.pairwise_insertionSort r xs).imp fun hab => (h _ _).mp hab

/-- The key of the repository of a release. -/
def repoKey (r : CachedRelease) : Lex (Int × String) := toLex (r.repositoryPriority, r.repositoryId)

def choiceKey (r : CachedRelease) : Lex (Int × Lex (String × String)) := toLex (r.repositoryPriority, toLex (r.repositoryId, r.version))

theorem choiceLe_iff (a b : CachedRelease) : choiceLe a b = true ↔ choiceKey a ≤ choiceKey b := by
  rw [choiceLe, decide_eq_true_iff, choiceKey, choiceKey, Prod.Lex.toLex_le_toLex, Prod.Lex.toLex_le_toLex]

theorem repoKey_le_iff (a b : CachedRelease) : repoKey a ≤ repoKey b ↔
    a.repositoryPriority < b.repositoryPriority ∨ a.repositoryPriority = b.repositoryPriority ∧ a.repositoryId ≤ b.repositoryId := by
  rw [repoKey, repoKey, Prod.Lex.toLex_le_toLex]

/-- The releases that are compared are of the first repository of the pool. -/
theorem winningRepository_spec {pool : List CachedRelease} (hne : pool ≠ []) :
    ∃ item ∈ pool, winningRepository pool = some item.repositoryId ∧ ∀ other ∈ pool, repoKey item ≤ repoKey other := by
  set r : CachedRelease → CachedRelease → Prop := fun a b => decide (a.repositoryPriority < b.repositoryPriority ∨
    a.repositoryPriority = b.repositoryPriority ∧ a.repositoryId ≤ b.repositoryId)
  have hkey : ∀ a b, r a b ↔ repoKey a ≤ repoKey b := by
    intro a b
    rw [repoKey_le_iff]
    exact decide_eq_true_iff
  have hsorted := pairwise_of_key r hkey pool
  cases heq : pool.insertionSort r with
  | nil =>
    have hlength := List.length_insertionSort r pool
    rw [heq, List.length_nil] at hlength
    exact absurd (List.length_eq_zero_iff.mp hlength.symm) hne
  | cons item rest =>
    refine ⟨item, (List.mem_insertionSort r).mp (heq ▸ List.mem_cons_self), by rw [winningRepository, heq]; rfl, ?_⟩
    intro other hother
    rw [heq] at hsorted
    rcases List.mem_cons.mp (heq ▸ (List.mem_insertionSort r).mpr hother) with rfl | hmem
    · exact le_rfl
    · exact List.rel_of_pairwise_cons hsorted hmem

section

variable {env : CatalogEnv} {moduleId : String} {releases : List CachedRelease}

/-- A release of the repository that the module came from, if that offers any. -/
def InPool (env : CatalogEnv) (moduleId : String) (releases : List CachedRelease) (r : CachedRelease) : Prop :=
  (∃ other ∈ releases, IsSource env moduleId other.repositoryId) → IsSource env moduleId r.repositoryId

/-- What the catalogue shows: a release of the first repository, the greatest there, and among these the first one by its text. -/
structure Chosen (env : CatalogEnv) (moduleId : String) (releases : List CachedRelease) (s : CachedRelease) : Prop where
  mem : s ∈ releases
  pool : InPool env moduleId releases s
  least : ∀ r ∈ releases, InPool env moduleId releases r → repoKey s ≤ repoKey r
  greatest : ∀ r ∈ releases, r.repositoryId = s.repositoryId → compareReleases r s ≠ .gt
  first : ∀ r ∈ releases, r.repositoryId = s.repositoryId → compareReleases r s = .eq → s.version ≤ r.version

/-- The pool of the selection. -/
def poolOf (source : Option String) (choices : List CachedRelease) : List CachedRelease :=
  let pinned := match source with
    | some id => if id = "" then [] else choices.filter fun item => item.repositoryId == id
    | none => []
  if pinned.isEmpty then choices else pinned

theorem poolOf_spec (env : CatalogEnv) (moduleId : String) (choices : List CachedRelease) : (poolOf (env.source moduleId) choices).Sublist choices ∧
    ∀ r, r ∈ poolOf (env.source moduleId) choices ↔ r ∈ choices ∧ InPool env moduleId choices r := by
  unfold poolOf InPool IsSource
  rcases hsource : env.source moduleId with - | id
  · simp
  · by_cases hid : id = ""
    · simp [hid]
    · simp only [hid, if_false, Option.some.injEq]
      split
      · rename_i hnone
        rw [List.isEmpty_iff, List.filter_eq_nil_iff] at hnone
        refine ⟨List.Sublist.refl _, fun r => (and_iff_left ?_).symm⟩
        rintro ⟨other, hother, -, rfl⟩
        exact absurd (by simp) (hnone other hother)
      · rename_i hsome
        refine ⟨List.filter_sublist, fun r => ?_⟩
        obtain ⟨other, hother⟩ := List.exists_mem_of_ne_nil _ fun hnil => hsome (List.isEmpty_iff.mpr hnil)
        obtain ⟨hmem, heq⟩ := List.mem_filter.mp hother
        rw [beq_iff_eq] at heq
        rw [List.mem_filter, beq_iff_eq]
        refine and_congr_right fun _ => ⟨fun hr _ => ⟨hr ▸ hid, hr.symm⟩, fun h => ?_⟩
        exact (h ⟨other, hmem, heq ▸ hid, heq.symm⟩).2.symm

theorem selectOnline_sorted :
    selectOnline (env.source moduleId) releases = (
      match winningRepository (poolOf (env.source moduleId) (releases.insertionSort fun a b => choiceLe a b = true)) with
      | none => .ok none
      | some winning =>
        match (poolOf (env.source moduleId) (releases.insertionSort fun a b => choiceLe a b = true)).filter fun item => item.repositoryId == winning with
        | [] => .ok none
        | first :: others => (newest first others).map some) := rfl

/-- The selection for a module that is offered. -/
theorem selectOnline_spec (hne : releases ≠ []) (hparsable : ∀ r ∈ releases, Parsable r)
    (hpriority : ∀ r ∈ releases, ∀ s ∈ releases, r.repositoryId = s.repositoryId → r.repositoryPriority = s.repositoryPriority) :
    ∃ s, selectOnline (env.source moduleId) releases = .ok (some s) ∧ Chosen env moduleId releases s := by
  have hsorted := pairwise_of_key (fun a b => choiceLe a b = true) choiceLe_iff releases
  have hmem : ∀ r, r ∈ releases.insertionSort (fun a b => choiceLe a b = true) ↔ r ∈ releases := fun r => List.mem_insertionSort _
  rw [selectOnline_sorted]
  generalize hchoices : releases.insertionSort (fun a b => choiceLe a b = true) = choices at hsorted hmem
  obtain ⟨hsub, hpool⟩ := poolOf_spec env moduleId choices
  have hin : ∀ r, InPool env moduleId choices r ↔ InPool env moduleId releases r := by
    intro r
    simp only [InPool, hmem]
  simp only [hin, hmem] at hpool
  generalize poolOf (env.source moduleId) choices = pool at hsub hpool
  have hnonempty : pool ≠ [] := by
    by_cases hsource : ∃ other ∈ releases, IsSource env moduleId other.repositoryId
    · obtain ⟨other, hother, his⟩ := hsource
      exact List.ne_nil_of_mem ((hpool other).mpr ⟨hother, fun _ => his⟩)
    · obtain ⟨other, hother⟩ := List.exists_mem_of_ne_nil _ hne
      exact List.ne_nil_of_mem ((hpool other).mpr ⟨hother, fun h => absurd h hsource⟩)
  obtain ⟨item, hitem, hwinning, hleast⟩ := winningRepository_spec hnonempty
  simp only [hwinning]
  -- the releases of the first repository, in the order of their texts
  have hcohort : ∀ r, r ∈ pool.filter (fun r => r.repositoryId == item.repositoryId) ↔ r ∈ releases ∧ r.repositoryId = item.repositoryId := by
    intro r
    rw [List.mem_filter, beq_iff_eq, hpool]
    refine ⟨fun h => ⟨h.1.1, h.2⟩, fun h => ⟨⟨h.1, ?_⟩, h.2⟩⟩
    rw [InPool, h.2]
    exact ((hpool item).mp hitem).2
  have hpairwise := (hsorted.sublist hsub).sublist (List.filter_sublist (p := fun r : CachedRelease => r.repositoryId == item.repositoryId))
  generalize pool.filter (fun r => r.repositoryId == item.repositoryId) = cohort at hcohort hpairwise
  cases cohort with
  | nil => exact absurd ((hcohort item).mpr ⟨((hpool item).mp hitem).1, rfl⟩) List.not_mem_nil
  | cons first others =>
    have hread : ∀ r ∈ first :: others, Parsable r := fun r hr => hparsable r ((hcohort r).mp hr).1
    have hbest : IsFirstBest compareReleases (first :: others) (firstBest compareReleases first others) := FirstBest.isFirstBest_firstBest first others
    refine ⟨firstBest compareReleases first others, by simp only [newest_eq hread]; rfl, ?_⟩
    generalize firstBest compareReleases first others = s at hbest
    obtain ⟨hs, hid⟩ := (hcohort s).mp (FirstBest.mem hbest)
    have hitem' := (hpool item).mp hitem
    have hkey : repoKey s = repoKey item := by rw [repoKey, repoKey, hid, hpriority s hs item hitem'.1 hid]
    refine ⟨hs, ?_, ?_, ?_, ?_⟩
    · rw [InPool, hid]
      exact hitem'.2
    · intro r hr hrpool
      rw [hkey]
      exact hleast r ((hpool r).mpr ⟨hr, hrpool⟩)
    · intro r hr hrid
      exact FirstBest.greatest hbest ((hcohort r).mpr ⟨hr, hrid.trans hid⟩)
    · intro r hr hrid heq
      rcases FirstBest.before_of_eq hbest hpairwise ((hcohort r).mpr ⟨hr, hrid.trans hid⟩) heq with rfl | hle
      · exact le_rfl
      · rw [← choiceLe_iff, choiceLe, decide_eq_true_iff, hrid, hpriority r hr s hs hrid] at hle
        rcases hle with hle | ⟨-, hle | ⟨-, hle⟩⟩
        · exact absurd hle (lt_irrefl _)
        · exact absurd hle (lt_irrefl _)
        · exact hle

/-- Only one release is shown. -/
theorem Chosen.unique (hone : ∀ r ∈ releases, ∀ s ∈ releases, r.repositoryId = s.repositoryId → r.version = s.version → r = s)
    {s t : CachedRelease} (hs : Chosen env moduleId releases s) (ht : Chosen env moduleId releases t) : s = t := by
  have hkey : repoKey s = repoKey t := le_antisymm (hs.least t ht.mem ht.pool) (ht.least s hs.mem hs.pool)
  have hid : s.repositoryId = t.repositoryId := congrArg (fun key => (ofLex key).2) hkey
  have heq : compareReleases s t = .eq := by
    have hle := ht.greatest s hs.mem hid
    have hge := hs.greatest t ht.mem hid.symm
    rw [show compareReleases t s = (compareReleases s t).swap from Std.OrientedCmp.eq_swap] at hge
    cases h : compareReleases s t <;> simp_all
  refine hone s hs.mem t ht.mem hid (le_antisymm ?_ ?_)
  · exact hs.first t ht.mem hid.symm (Std.OrientedCmp.eq_symm heq)
  · exact ht.first s hs.mem hid heq

/-- The choice depends on which releases there are, not on their order. -/
theorem Chosen.congr {releases' : List CachedRelease} (hmem : ∀ r, r ∈ releases ↔ r ∈ releases') {s : CachedRelease} (h : Chosen env moduleId releases s) :
    Chosen env moduleId releases' s := by
  have hpool : ∀ r, InPool env moduleId releases' r ↔ InPool env moduleId releases r := by
    intro r
    simp only [InPool, hmem]
  exact ⟨(hmem s).mp h.mem, (hpool s).mpr h.pool, fun r hr hrpool => h.least r ((hmem r).mpr hr) ((hpool r).mp hrpool),
    fun r hr => h.greatest r ((hmem r).mpr hr), fun r hr => h.first r ((hmem r).mpr hr)⟩

end

/-! ## The rows of the caches -/

section

variable {env : CatalogEnv} {repos : List SourceRepository} {moduleId : String}

theorem mem_cachedModules {repo : SourceRepository} {r : CachedRelease} : r ∈ cachedModules env repo ↔
    ∃ cache, repo.cache = some cache ∧ ∃ item ∈ cache.modules, cachedRow env repo cache item = r := by
  unfold cachedModules
  cases repo.cache with
  | none => simp
  | some cache => simp

theorem mem_offered {repo : SourceRepository} {r : CachedRelease} : r ∈ offered env repo moduleId ↔
    r ∈ cachedModules env repo ∧ r.id = moduleId ∧ r.downloadUnavailable = false := by
  simp only [offered, List.mem_filter, beq_iff_eq, Bool.not_eq_true', and_assoc]

theorem row_of_mem {repo : SourceRepository} {r : CachedRelease} (h : r ∈ cachedModules env repo) :
    r.repositoryId = repo.id ∧ r.repositoryPriority = repo.priority := by
  obtain ⟨cache, -, item, -, rfl⟩ := mem_cachedModules.1 h
  exact ⟨rfl, rfl⟩

theorem repo_eq (h : WellKept repos) {repo repo' : SourceRepository} (hrepo : repo ∈ repos) (hrepo' : repo' ∈ repos) (hid : repo.id = repo'.id) :
    repo = repo' :=
  List.inj_on_of_nodup_map h.ids hrepo hrepo' hid

theorem readable (h : WellKept repos) {repo : SourceRepository} (hrepo : repo ∈ repos) {r : CachedRelease} (hr : r ∈ cachedModules env repo) :
    Parsable r := by
  obtain ⟨cache, hcache, item, hitem, rfl⟩ := mem_cachedModules.1 hr
  obtain ⟨v, hv⟩ := h.parsable repo hrepo cache hcache item hitem
  exact Option.isSome_iff_exists.mp ((AcceptedIndexAux.parse_isSome_iff _).mp ⟨v, hv⟩)

theorem row_eq (h : WellKept repos) {repo : SourceRepository} (hrepo : repo ∈ repos) {r s : CachedRelease} (hr : r ∈ cachedModules env repo)
    (hs : s ∈ cachedModules env repo) (hid : r.id = s.id) (hversion : r.version = s.version) : r = s := by
  obtain ⟨cache, hcache, item, hitem, rfl⟩ := mem_cachedModules.1 hr
  obtain ⟨cache', hcache', item', hitem', rfl⟩ := mem_cachedModules.1 hs
  rw [hcache] at hcache'
  cases hcache'
  rw [List.inj_on_of_nodup_map (h.once repo hrepo cache hcache) hitem hitem' (Prod.ext hid hversion)]

/-- The rows among which the catalogue selects. -/
def moduleRows (env : CatalogEnv) (repos : List SourceRepository) (moduleId : String) : List CachedRelease :=
  (((((listRepositories repos).filter fun repo => repo.enabled).flatMap (cachedModules env)).filter fun item => !item.downloadUnavailable)).filter
    fun item => item.id == moduleId

theorem mem_moduleRows {r : CachedRelease} : r ∈ moduleRows env repos moduleId ↔
    ∃ repo ∈ repos, repo.enabled = true ∧ r ∈ offered env repo moduleId := by
  have hlist : ∀ repo, repo ∈ listRepositories repos ↔ repo ∈ repos := fun repo => List.mem_insertionSort _
  simp only [moduleRows, List.mem_filter, List.mem_flatMap, hlist, mem_offered, beq_iff_eq, Bool.not_eq_true']
  constructor
  · rintro ⟨⟨⟨repo, ⟨hrepo, henabled⟩, hr⟩, havailable⟩, hid⟩
    exact ⟨repo, hrepo, henabled, hr, hid, havailable⟩
  · rintro ⟨repo, hrepo, henabled, hr, hid, havailable⟩
    exact ⟨⟨⟨repo, ⟨hrepo, henabled⟩, hr⟩, havailable⟩, hid⟩

/-- A row of a repository that is found by its id. -/
theorem offered_of_mem (h : WellKept repos) {r : CachedRelease} (hr : r ∈ moduleRows env repos moduleId) {repo : SourceRepository} (hrepo : repo ∈ repos)
    (hid : r.repositoryId = repo.id) : r ∈ offered env repo moduleId := by
  obtain ⟨repo', hrepo', -, hr'⟩ := mem_moduleRows.1 hr
  have hsame : repo' = repo := repo_eq h hrepo' hrepo ((row_of_mem (mem_offered.1 hr').1).1.symm.trans hid)
  exact hsame ▸ hr'

/-- The selection for a module of which there are rows. -/
theorem selected_spec (h : WellKept repos) {id : String} (hne : moduleRows env repos id ≠ []) :
    ∃ s, selectOnline (env.source id) (moduleRows env repos id) = .ok (some s) ∧ Chosen env id (moduleRows env repos id) s := by
  refine selectOnline_spec hne ?_ ?_
  · intro r hr
    obtain ⟨repo, hrepo, -, hr⟩ := mem_moduleRows.1 hr
    exact readable h hrepo (mem_offered.1 hr).1
  · intro r hr s hs heq
    obtain ⟨repo, hrepo, -, hr⟩ := mem_moduleRows.1 hr
    obtain ⟨hrid, hrpriority⟩ := row_of_mem (mem_offered.1 hr).1
    obtain ⟨-, hspriority⟩ := row_of_mem (mem_offered.1 (offered_of_mem h hs hrepo (heq.symm.trans hrid))).1
    rw [hrpriority, hspriority]

/-- The catalogue shows the release that is chosen among the rows of the module. -/
theorem shown_iff (h : WellKept repos) {s : CachedRelease} : Shown env repos moduleId s ↔ Chosen env moduleId (moduleRows env repos moduleId) s := by
  have hone : ∀ r ∈ moduleRows env repos moduleId, ∀ s ∈ moduleRows env repos moduleId, r.repositoryId = s.repositoryId → r.version = s.version → r = s := by
    intro r hr s hs heq hversion
    obtain ⟨repo, hrepo, -, hr⟩ := mem_moduleRows.1 hr
    obtain ⟨hr, hrid, -⟩ := mem_offered.1 hr
    obtain ⟨hs, hsid, -⟩ := mem_offered.1 (offered_of_mem h hs hrepo (heq.symm.trans (row_of_mem hr).1))
    exact row_eq h hrepo hr hs (hrid.trans hsid.symm) hversion
  let select : String → Except StateError (String × Option CachedRelease) := fun id => do
    let selected ← selectOnline (env.source id) (moduleRows env repos id)
    return (id, selected)
  have hselect : ∀ id t, selectOnline (env.source id) (moduleRows env repos id) = .ok t → select id = .ok (id, t) := by
    intro id t ht
    simp only [select, ht]
    rfl
  set releases := (((listRepositories repos).filter fun repo => repo.enabled).flatMap (cachedModules env)).filter fun item => !item.downloadUnavailable
  have hcatalog : onlineCatalog env repos = ((releases.map fun item => item.id).dedup.insertionSort fun a b => a ≤ b).mapM select := rfl
  have hids : ∀ id, id ∈ (releases.map fun item => item.id).dedup.insertionSort (fun a b => a ≤ b) ↔ moduleRows env repos id ≠ [] := by
    intro id
    rw [List.mem_insertionSort, List.mem_dedup, List.mem_map]
    constructor
    · rintro ⟨r, hr, rfl⟩
      exact List.ne_nil_of_mem (List.mem_filter.mpr ⟨hr, beq_self_eq_true r.id⟩)
    · intro hne
      obtain ⟨r, hr⟩ := List.exists_mem_of_ne_nil _ hne
      obtain ⟨hr, hid⟩ := List.mem_filter.mp hr
      exact ⟨r, hr, beq_iff_eq.mp hid⟩
  constructor
  · rintro ⟨items, hitems, hmem⟩
    rw [hcatalog] at hitems
    obtain ⟨id, hid, hsel⟩ := mem_of_mapM_ok hitems hmem
    obtain ⟨selected, hselected, hpair⟩ := bind_ok hsel
    cases hpair
    obtain ⟨t, ht, hchosen⟩ := selected_spec h ((hids _).mp hid)
    rw [hselected] at ht
    cases ht
    exact hchosen
  · intro hchosen
    have hall : ∀ id ∈ (releases.map fun item => item.id).dedup.insertionSort (fun a b => a ≤ b), ∃ item, select id = .ok item := by
      intro id hid
      obtain ⟨t, ht, -⟩ := selected_spec h ((hids _).mp hid)
      exact ⟨(id, some t), hselect id _ ht⟩
    obtain ⟨items, hitems⟩ := mapM_ok hall
    obtain ⟨item, hitem, hsel⟩ := mapM_ok_of_mem hitems ((hids moduleId).mpr (List.ne_nil_of_mem hchosen.mem))
    obtain ⟨t, ht, hchosen'⟩ := selected_spec h (List.ne_nil_of_mem hchosen.mem)
    rw [hselect moduleId _ ht] at hsel
    cases hsel
    exact ⟨items, hcatalog.trans hitems, by rwa [hchosen.unique hone hchosen']⟩

/-- The repository of the release that is shown is the one that is used. -/
theorem used_of_chosen (h : WellKept repos) {s : CachedRelease} (hs : Chosen env moduleId (moduleRows env repos moduleId) s) {repo : SourceRepository}
    (hrepo : repo ∈ repos) (hid : s.repositoryId = repo.id) : Used env repos moduleId repo := by
  obtain ⟨repo', hrepo', henabled, hoffered⟩ := mem_moduleRows.1 hs.mem
  obtain rfl : repo' = repo := repo_eq h hrepo' hrepo ((row_of_mem (mem_offered.1 hoffered).1).1.symm.trans hid)
  -- a row of another repository that offers the module
  have hrow : ∀ other, Offers env repos moduleId other → ∃ r ∈ moduleRows env repos moduleId, r.repositoryId = other.id ∧ r.repositoryPriority = other.priority := by
    rintro other ⟨hother, henabled', hne⟩
    obtain ⟨r, hr⟩ := List.exists_mem_of_ne_nil _ hne
    exact ⟨r, mem_moduleRows.2 ⟨other, hother, henabled', hr⟩, row_of_mem (mem_offered.1 hr).1⟩
  refine ⟨⟨hrepo, henabled, List.ne_nil_of_mem hoffered⟩, ?_, ?_⟩
  · intro other hother hsource
    obtain ⟨r, hr, hrid, -⟩ := hrow other hother
    exact hid ▸ hs.pool ⟨r, hr, hrid ▸ hsource⟩
  · intro other hother hsource
    obtain ⟨r, hr, hrid, hrpriority⟩ := hrow other hother
    have hpool : InPool env moduleId (moduleRows env repos moduleId) r := by
      intro hany
      rw [hrid]
      exact hsource (hid ▸ hs.pool hany)
    have hle := (repoKey_le_iff s r).mp (hs.least r hr hpool)
    rwa [hid, hrid, hrpriority, (row_of_mem (mem_offered.1 hoffered).1).2] at hle

/-- Only one repository is used. -/
theorem used_unique (h : WellKept repos) {repo repo' : SourceRepository} (hused : Used env repos moduleId repo) (hused' : Used env repos moduleId repo') :
    repo = repo' := by
  refine repo_eq h hused.offers.1 hused'.offers.1 ?_
  have hle := hused.least repo' hused'.offers (hused'.source repo hused.offers)
  have hge := hused'.least repo hused.offers (hused.source repo' hused'.offers)
  rcases hle with hlt | ⟨heq, hle⟩
  · rcases hge with hgt | ⟨heq, -⟩ <;> omega
  · rcases hge with hgt | ⟨-, hge⟩
    · omega
    · exact le_antisymm hle hge

/-! ## The entries in another order -/

theorem withModules_self (repo : SourceRepository) :
    ∃ modules, repo = repo.withModules modules ∧ ∀ cache, repo.cache = some cache → cache.modules.Perm modules := by
  cases hcache : repo.cache with
  | none => exact ⟨[], by rw [SourceRepository.withModules, hcache, Option.map_none, ← hcache], by simp⟩
  | some cache =>
    refine ⟨cache.modules, by rw [SourceRepository.withModules, hcache, Option.map_some, ← hcache], ?_⟩
    intro cache' h
    cases h
    exact List.Perm.refl _

theorem cachedModules_perm {repo : SourceRepository} {modules : List CacheEntry}
    (h : ∀ cache, repo.cache = some cache → cache.modules.Perm modules) :
    (cachedModules env repo).Perm (cachedModules env (repo.withModules modules)) := by
  unfold cachedModules SourceRepository.withModules
  cases hcache : repo.cache with
  | none => simp
  | some cache => exact (h cache hcache).map _

/-- A repository and the one that stands in its place. -/
structure Twin (env : CatalogEnv) (repo repo' : SourceRepository) : Prop where
  id : repo'.id = repo.id
  enabled : repo'.enabled = repo.enabled
  mem : ∀ r, r ∈ cachedModules env repo' ↔ r ∈ cachedModules env repo

theorem twin_withModules {repo : SourceRepository} {modules : List CacheEntry} (h : ∀ cache, repo.cache = some cache → cache.modules.Perm modules) :
    Twin env repo (repo.withModules modules) :=
  ⟨rfl, rfl, fun _ => (cachedModules_perm h).mem_iff.symm⟩

theorem twins_of_reordered {repos' : List SourceRepository} (h : Reordered repos repos') :
    (∀ repo ∈ repos, ∃ repo' ∈ repos', Twin env repo repo') ∧ ∀ repo' ∈ repos', ∃ repo ∈ repos, Twin env repo repo' := by
  induction h with
  | nil => simp
  | cons hhead _ ih =>
    obtain ⟨modules, rfl, hperm⟩ := hhead
    have htwin : Twin env _ _ := twin_withModules hperm
    constructor
    · intro repo hrepo
      rcases List.mem_cons.mp hrepo with rfl | hrepo
      · exact ⟨_, List.mem_cons_self, htwin⟩
      · obtain ⟨repo', hrepo', ht⟩ := ih.1 repo hrepo
        exact ⟨repo', List.mem_cons_of_mem _ hrepo', ht⟩
    · intro repo' hrepo'
      rcases List.mem_cons.mp hrepo' with rfl | hrepo'
      · exact ⟨_, List.mem_cons_self, htwin⟩
      · obtain ⟨repo, hrepo, ht⟩ := ih.2 repo' hrepo'
        exact ⟨repo, List.mem_cons_of_mem _ hrepo, ht⟩

theorem wellKept_reordered {repos' : List SourceRepository} (hre : Reordered repos repos') (h : WellKept repos) : WellKept repos' := by
  have hids : repos'.map SourceRepository.id = repos.map SourceRepository.id := by
    clear h
    induction hre with
    | nil => rfl
    | cons hhead _ ih =>
      obtain ⟨modules, rfl, -⟩ := hhead
      rw [List.map_cons, List.map_cons, ih]
      rfl
  have hcache : ∀ repo' ∈ repos', ∀ cache', repo'.cache = some cache' → ∃ repo ∈ repos, ∃ cache, repo.cache = some cache ∧
      cache.modules.Perm cache'.modules := by
    clear h hids
    induction hre with
    | nil => simp
    | cons hhead _ ih =>
      obtain ⟨modules, rfl, hperm⟩ := hhead
      intro repo' hrepo' cache' hcache'
      rcases List.mem_cons.mp hrepo' with rfl | hrepo'
      · obtain ⟨cache, hcache, rfl⟩ := Option.map_eq_some_iff.mp hcache'
        exact ⟨_, List.mem_cons_self, cache, hcache, hperm cache hcache⟩
      · obtain ⟨repo, hrepo, hrest⟩ := ih repo' hrepo' cache' hcache'
        exact ⟨repo, List.mem_cons_of_mem _ hrepo, hrest⟩
  refine ⟨hids ▸ h.ids, ?_, ?_⟩
  · intro repo' hrepo' cache' hcache' item hitem
    obtain ⟨repo, hrepo, cache, hc, hperm⟩ := hcache repo' hrepo' cache' hcache'
    exact h.parsable repo hrepo cache hc item (hperm.mem_iff.mpr hitem)
  · intro repo' hrepo' cache' hcache'
    obtain ⟨repo, hrepo, cache, hc, hperm⟩ := hcache repo' hrepo' cache' hcache'
    exact (hperm.map _).nodup_iff.mp (h.once repo hrepo cache hc)

theorem Twin.offered {repo repo' : SourceRepository} (h : Twin env repo repo') (r : CachedRelease) :
    r ∈ offered env repo' moduleId ↔ r ∈ offered env repo moduleId := by
  rw [mem_offered, mem_offered, h.mem]

/-- In another order of the entries the same release is shown. -/
theorem shown_reordered {repos' : List SourceRepository} (h : WellKept repos) (hre : Reordered repos repos') {s : CachedRelease}
    (hs : Shown env repos moduleId s) : Shown env repos' moduleId s := by
  refine (shown_iff (wellKept_reordered hre h)).mpr (((shown_iff h).mp hs).congr fun r => ?_)
  obtain ⟨hforth, hback⟩ : (∀ repo ∈ repos, ∃ repo' ∈ repos', Twin env repo repo') ∧ ∀ repo' ∈ repos', ∃ repo ∈ repos, Twin env repo repo' :=
    twins_of_reordered hre
  rw [mem_moduleRows, mem_moduleRows]
  constructor
  · rintro ⟨repo, hrepo, henabled, hr⟩
    obtain ⟨repo', hrepo', htwin⟩ := hforth repo hrepo
    exact ⟨repo', hrepo', htwin.enabled.trans henabled, (htwin.offered r).mpr hr⟩
  · rintro ⟨repo', hrepo', henabled, hr⟩
    obtain ⟨repo, hrepo, htwin⟩ := hback repo' hrepo'
    exact ⟨repo, hrepo, htwin.enabled.symm.trans henabled, (htwin.offered r).mp hr⟩

/-! ## Staging -/

theorem pinnedElsewhere_eq_some {repositoryId pinned : String} : pinnedElsewhere env repositoryId moduleId = some pinned ↔
    IsSource env moduleId pinned ∧ pinned ≠ repositoryId := by
  simp [pinnedElsewhere, Option.filter_eq_some_iff, IsSource]
  tauto

theorem find_repo (h : WellKept repos) {repo : SourceRepository} (hrepo : repo ∈ repos) : repos.find? (fun r : SourceRepository => r.id == repo.id) = some repo := by
  cases hfind : repos.find? (fun r : SourceRepository => r.id == repo.id) with
  | none => exact absurd (beq_self_eq_true repo.id) (List.find?_eq_none.mp hfind repo hrepo)
  | some found =>
    rw [repo_eq h (List.mem_of_find?_eq_some hfind) hrepo (beq_iff_eq.mp (List.find?_some (p := fun r : SourceRepository => r.id == repo.id) hfind))]

theorem stage_pinned (h : WellKept repos) {repo : SourceRepository} (hrepo : repo ∈ repos) (henabled : repo.enabled = true) {pinned : String}
    (hpinned : pinnedElsewhere env repo.id moduleId = some pinned) :
    stagePackage env repos repo.id moduleId none false = .error (.pinned moduleId pinned) := by
  simp [stagePackage, find_repo h hrepo, henabled, hpinned]

/-- Without a pin staging picks the first of the greatest releases that the repository offers. -/
theorem stage_spec (h : WellKept repos) {repo : SourceRepository} (hrepo : repo ∈ repos) (henabled : repo.enabled = true)
    (hpinned : pinnedElsewhere env repo.id moduleId = none) {first : CachedRelease} {others : List CachedRelease}
    (hoffered : offered env repo moduleId = first :: others) :
    stagePackage env repos repo.id moduleId none false = .ok (firstBest compareReleases first others) := by
  have hread : ∀ r ∈ first :: others, Parsable r := fun r hr => readable h hrepo (mem_offered.1 (hoffered ▸ hr)).1
  have hselect : stageSelection repo.licensing moduleId none (cachedModules env repo) = .ok (firstBest compareReleases first others) := by
    unfold stageSelection
    unfold offered at hoffered
    generalize (cachedModules env repo).filter (fun item => item.id == moduleId) = named at hoffered
    have hsome : named.all (fun item => item.downloadUnavailable) = false := by
      obtain ⟨hmem, havailable⟩ := List.mem_filter.mp (hoffered ▸ List.mem_cons_self : first ∈ named.filter fun item => !item.downloadUnavailable)
      exact List.all_eq_false.mpr ⟨first, hmem, by simpa using havailable⟩
    cases named with
    | nil => cases hoffered
    | cons x xs =>
      simp only [hsome, Bool.false_eq_true, if_false, hoffered, newest_eq hread]
      rfl
  simp only [stagePackage, find_repo h hrepo, henabled, hpinned, hselect]
  rfl

/-- The repository of the release that is shown refuses for a pin exactly when the module is pinned to a repository that does not offer it. -/
theorem pinned_of_chosen {s : CachedRelease} (hs : Chosen env moduleId (moduleRows env repos moduleId) s) :
    (∃ pinned, pinnedElsewhere env s.repositoryId moduleId = some pinned) ↔ PinRefuses env repos moduleId := by
  constructor
  · rintro ⟨pinned, hpinned⟩
    obtain ⟨hsource, hne⟩ := pinnedElsewhere_eq_some.1 hpinned
    refine ⟨pinned, hsource, ?_⟩
    rintro repo ⟨hrepo, henabled, hoffers⟩ rfl
    obtain ⟨r, hr⟩ := List.exists_mem_of_ne_nil _ hoffers
    have hrow : IsSource env moduleId r.repositoryId := (row_of_mem (mem_offered.1 hr).1).1 ▸ hsource
    have hselected := hs.pool ⟨r, mem_moduleRows.2 ⟨repo, hrepo, henabled, hr⟩, hrow⟩
    exact hne (Option.some.inj (hsource.2.symm.trans hselected.2))
  · rintro ⟨pinned, hsource, hnone⟩
    obtain ⟨repo, hrepo, henabled, hoffered⟩ := mem_moduleRows.1 hs.mem
    refine ⟨pinned, pinnedElsewhere_eq_some.2 ⟨hsource, ?_⟩⟩
    rw [(row_of_mem (mem_offered.1 hoffered).1).1]
    exact (hnone repo ⟨hrepo, henabled, List.ne_nil_of_mem hoffered⟩).symm

/-- The release that is shown is one of the greatest of its repository. -/
theorem greatest_of_chosen (h : WellKept repos) {s : CachedRelease} (hs : Chosen env moduleId (moduleRows env repos moduleId) s)
    {repo : SourceRepository} (hrepo : repo ∈ repos) (hid : s.repositoryId = repo.id) : Greatest (offered env repo moduleId) s := by
  have hread : ∀ r ∈ offered env repo moduleId, Parsable r := fun r hr => readable h hrepo (mem_offered.1 hr).1
  obtain ⟨repo', hrepo', henabled, hr⟩ := mem_moduleRows.1 hs.mem
  obtain rfl : repo' = repo := repo_eq h hrepo' hrepo ((row_of_mem (mem_offered.1 hr).1).1.symm.trans hid)
  refine (greatest_iff hread).mpr ⟨hr, fun other hother => ?_⟩
  refine hs.greatest other (mem_moduleRows.2 ⟨repo', hrepo', henabled, hother⟩) ?_
  rw [(row_of_mem (mem_offered.1 hother).1).1, hid]

/-- A greatest release of a repository is picked when its entry comes first in the index. -/
theorem picked_first (h : WellKept repos) {repo : SourceRepository} (hrepo : repo ∈ repos) (henabled : repo.enabled = true)
    (hpinned : pinnedElsewhere env repo.id moduleId = none) {r : CachedRelease} (hr : Greatest (offered env repo moduleId) r) :
    ∃ repos', Reordered repos repos' ∧ stagePackage env repos' repo.id moduleId none false = .ok r := by
  have hread : ∀ s ∈ offered env repo moduleId, Parsable s := fun s hs => readable h hrepo (mem_offered.1 hs).1
  obtain ⟨hmem, hgreatest⟩ := (greatest_iff hread).mp hr
  obtain ⟨hcached, hrid, havailable⟩ := mem_offered.1 hmem
  obtain ⟨cache, hcache, item, hitem, hrow⟩ := mem_cachedModules.1 hcached
  have hperm : ∀ cache', repo.cache = some cache' → cache'.modules.Perm (item :: cache.modules.erase item) := by
    intro cache' hcache'
    rw [hcache] at hcache'
    cases hcache'
    exact List.perm_cons_erase hitem
  set repo' := repo.withModules (item :: cache.modules.erase item) with hrepo'
  set repos' := repos.map fun other => if other.id = repo.id then repo' else other with hrepos'
  have hre : Reordered repos repos' := by
    refine List.forall₂_map_right_iff.mpr (List.forall₂_same.mpr fun other hother => ?_)
    split
    · rename_i hid
      rw [repo_eq h hother hrepo hid]
      exact ⟨_, rfl, hperm⟩
    · exact withModules_self other
  have htwin : Twin env repo repo' := twin_withModules hperm
  have hmem' : repo' ∈ repos' := List.mem_map.mpr ⟨repo, hrepo, if_pos rfl⟩
  have hfirst : offered env repo' moduleId = r :: (offered env repo' moduleId).tail := by
    have hcons : cachedModules env repo' = r :: (cache.modules.erase item).map (cachedRow env repo cache) := by
      rw [hrepo', ← hrow]
      unfold cachedModules SourceRepository.withModules
      rw [hcache]
      rfl
    rw [offered, hcons, List.filter_cons_of_pos (by simp [hrid]), List.filter_cons_of_pos (by simp [havailable])]
    rfl
  refine ⟨repos', hre, ?_⟩
  have hstage := stage_spec (wellKept_reordered hre h) hmem' henabled hpinned hfirst
  rwa [FirstBest.firstBest_of_greatest] at hstage
  intro other hother
  exact hgreatest other ((htwin.offered other).mp (hfirst ▸ List.mem_cons_of_mem _ hother))

end

end ShownIsStagedAux

open ShownIsStagedAux

/-- In whatever order the entries of the index stand, the same release is shown for a module and staging from the repository that is shown picks its version
and its download or refuses for the pin, exactly when the module is pinned to a repository that does not offer it, or the greatest version that the
used repository offers is written in one way. -/
theorem shown_is_staged_iff (env : CatalogEnv) {repos : List SourceRepository} (h : WellKept repos) (moduleId : String) : ShownIsStaged env repos moduleId ↔
    PinRefuses env repos moduleId ∨ ∀ repo, Used env repos moduleId repo → OneGreatest (offered env repo moduleId) := by
  constructor
  · intro hall
    by_cases hpin : PinRefuses env repos moduleId
    · exact .inl hpin
    · refine .inr fun repo hused => ?_
      -- some release is shown, and it is of the repository that is used
      obtain ⟨t, hshown⟩ : ∃ t, Shown env repos moduleId t := by
        obtain ⟨r, hr⟩ := List.exists_mem_of_ne_nil _ hused.offers.2.2
        obtain ⟨t, -, ht⟩ := selected_spec h (List.ne_nil_of_mem (mem_moduleRows.2 ⟨repo, hused.offers.1, hused.offers.2.1, hr⟩))
        exact ⟨t, (shown_iff h).mpr ht⟩
      have ht := (shown_iff h).mp hshown
      obtain ⟨repo', hrepo', henabled, hoffered⟩ := mem_moduleRows.1 ht.mem
      have hid := (row_of_mem (mem_offered.1 hoffered).1).1
      obtain rfl : repo' = repo := used_unique h (used_of_chosen h ht hrepo' hid) hused
      have hpinned : pinnedElsewhere env repo'.id moduleId = none := by
        by_contra hsome
        obtain ⟨pinned, hpinned⟩ := Option.ne_none_iff_exists'.mp hsome
        exact hpin ((pinned_of_chosen ht).mp ⟨pinned, hid ▸ hpinned⟩)
      have hone : ∀ r, Greatest (offered env repo' moduleId) r → r.version = t.version := by
        intro r hr
        obtain ⟨repos', hre, hstage⟩ := picked_first h hrepo' henabled hpinned hr
        rw [← hid] at hstage
        rcases (hall t hshown repos' hre).2 with ⟨pick, hpick, hversion, -⟩ | ⟨pinned, hrefused⟩
        · rw [hstage] at hpick
          cases hpick
          exact hversion
        · rw [hstage] at hrefused
          cases hrefused
      exact fun r s hr hs => (hone r hr).trans (hone s hs).symm
  · intro hwhen selected hshown repos' hre
    have hchosen := (shown_iff h).mp hshown
    have hshown' := shown_reordered h hre hshown
    have h' := wellKept_reordered hre h
    obtain ⟨repo', hrepo', henabled', hoffered'⟩ := mem_moduleRows.1 ((shown_iff h').mp hshown').mem
    have hid' := (row_of_mem (mem_offered.1 hoffered').1).1
    refine ⟨hshown', ?_⟩
    cases hpinned : pinnedElsewhere env selected.repositoryId moduleId with
    | some pinned =>
      refine .inr ⟨pinned, ?_⟩
      rw [hid'] at hpinned ⊢
      exact stage_pinned h' hrepo' henabled' hpinned
    | none =>
      have hnot : ¬ PinRefuses env repos moduleId := by
        intro hpin
        obtain ⟨pinned, hsome⟩ := (pinned_of_chosen hchosen).mpr hpin
        rw [hpinned] at hsome
        cases hsome
      obtain ⟨repo, hrepo, htwin⟩ : ∃ repo ∈ repos, Twin env repo repo' := (twins_of_reordered hre).2 repo' hrepo'
      have hid : selected.repositoryId = repo.id := hid'.trans htwin.id
      have hone := (hwhen.resolve_left hnot) repo (used_of_chosen h hchosen hrepo hid)
      rw [Staged, hid']
      rw [hid'] at hpinned
      cases hrows : offered env repo' moduleId with
      | nil =>
        rw [hrows] at hoffered'
        cases hoffered'
      | cons first others =>
        refine .inl ⟨_, stage_spec h' hrepo' henabled' hpinned hrows, ?_⟩
        have hread' : ∀ r ∈ first :: others, Parsable r := fun r hr => readable h' hrepo' (mem_offered.1 (hrows ▸ hr)).1
        have hbest : Greatest (first :: others) (firstBest compareReleases first others) :=
          greatest_of_isFirstBest hread' (FirstBest.isFirstBest_firstBest first others)
        generalize firstBest compareReleases first others = pick at hbest
        have hpick : Greatest (offered env repo moduleId) pick := by
          refine ⟨(htwin.offered pick).mp (hrows ▸ hbest.1), fun other hother => hbest.2 other ?_⟩
          exact hrows ▸ (htwin.offered other).mpr hother
        have hversion := hone pick selected hpick (greatest_of_chosen h hchosen hrepo hid)
        obtain ⟨hpicked, hpid, -⟩ := mem_offered.1 hpick.1
        obtain ⟨hsel, hsid, -⟩ := mem_offered.1 (greatest_of_chosen h hchosen hrepo hid).1
        rw [row_eq h hrepo hpicked hsel (hpid.trans hsid.symm) hversion]
        exact ⟨rfl, rfl⟩

section

/-- A release of one module. -/
def toolsEntry (version : String) : CacheEntry :=
  { id := "tools", name := "tools", description := "", version := version, download := version, downloadUrl := version, sha256 := "", signatureUrl := none
    releaseMetadataUrl := none, dependencies := [], optionalDependencies := [], requires := [], channel := none, lifecycle := none, recommended := none
    downgradePolicy := none, signingEnvironment := none, releaseNotesUrl := none }

/-- One repository that offers two releases of it. -/
def toolsRepository (first second : String) : SourceRepository :=
  { id := "main", name := "main", enabled := true, priority := 100, licensing := false
    cache := some { retired := false, credentialsRejected := false, modules := [toolsEntry first, toolsEntry second] } }

def freshServer : CatalogEnv := { lower := id, development := false, source := fun _ => none }

theorem toolsRepository_wellKept {first second : String} (hfirst : (Version.read first.toList).isSome) (hsecond : (Version.read second.toList).isSome)
    (hne : first ≠ second) : WellKept [toolsRepository first second] := by
  refine ⟨by simp, ?_, ?_⟩
  · intro repo hrepo cache hcache item hitem
    obtain rfl := List.mem_singleton.mp hrepo
    cases hcache
    refine (AcceptedIndexAux.parse_isSome_iff _).mpr ?_
    rcases List.mem_cons.mp hitem with rfl | hitem
    · exact hfirst
    · obtain rfl := List.mem_singleton.mp hitem
      exact hsecond
  · intro repo hrepo cache hcache
    obtain rfl := List.mem_singleton.mp hrepo
    cases hcache
    simp [toolsEntry, Release.key, hne]

def toolsRow (first second version : String) : CachedRelease :=
  cachedRow freshServer (toolsRepository first second) { retired := false, credentialsRejected := false, modules := [] } (toolsEntry version)

/-- Of `1.0` and `1.1` the second is shown, and it is staged in every order of the index. -/
theorem newer_release_is_staged : (∃ selected, Shown freshServer [toolsRepository "1.0" "1.1"] "tools" selected ∧ selected.version = "1.1") ∧
    ShownIsStaged freshServer [toolsRepository "1.0" "1.1"] "tools" := by
  have hkept : WellKept [toolsRepository "1.0" "1.1"] := toolsRepository_wellKept (by decide +kernel) (by decide +kernel) (by decide)
  refine ⟨⟨toolsRow "1.0" "1.1" "1.1", ⟨[("tools", some (toolsRow "1.0" "1.1" "1.1"))], ?_, by simp⟩, rfl⟩, ?_⟩
  · exact ok_of_toOption (by decide +kernel)
  · refine (shown_is_staged_iff freshServer hkept "tools").mpr (.inr ?_)
    intro repo hused r s hr hs
    obtain rfl := List.mem_singleton.mp hused.offers.1
    have hrows : offered freshServer (toolsRepository "1.0" "1.1") "tools" = [toolsRow "1.0" "1.1" "1.0", toolsRow "1.0" "1.1" "1.1"] := by
      decide +kernel
    have hgreatest : ∀ t, Greatest (offered freshServer (toolsRepository "1.0" "1.1") "tools") t → t.version = "1.1" := by
      rintro t ⟨hmem, hall⟩
      rw [hrows] at hmem hall
      rcases List.mem_cons.mp hmem with rfl | hmem
      · refine absurd ?_ (hall (toolsRow "1.0" "1.1" "1.1") (by simp))
        exact ok_of_toOption (by decide +kernel)
      · rw [List.mem_singleton.mp hmem]
        rfl
    exact (hgreatest r hr).trans (hgreatest s hs).symm

/-- Of `1.0.0` and `1.0`, which are one version, the second is shown and the first is staged. -/
theorem other_text_is_staged : WellKept [toolsRepository "1.0.0" "1.0"] ∧
    ∃ selected, Shown freshServer [toolsRepository "1.0.0" "1.0"] "tools" selected ∧ selected.version = "1.0" ∧
      ∃ pick, stagePackage freshServer [toolsRepository "1.0.0" "1.0"] selected.repositoryId "tools" none false = .ok pick ∧ pick.version = "1.0.0" ∧
        pick.download ≠ selected.download := by
  refine ⟨toolsRepository_wellKept (by decide +kernel) (by decide +kernel) (by decide), toolsRow "1.0.0" "1.0" "1.0",
    ⟨[("tools", some (toolsRow "1.0.0" "1.0" "1.0"))], ?_, by simp⟩, rfl, toolsRow "1.0.0" "1.0" "1.0.0", ?_, rfl, by decide⟩
  · exact ok_of_toOption (by decide +kernel)
  · exact ok_of_toOption (by decide +kernel)

end

end Repository

end TecTac
