import Mathlib
import TecTac.SignedPlan
import TecTac.Lib.Entries

/-!
# A job installs only what was signed

The job document is written by an unprivileged process, so nothing in it counts unless it is compared with the facts of the
signed artifacts. What is compared: the packages, the order and the actions range over the signed module ids, each once, and
the versions are the signed ones. What is not: the old id of a rename is compared without the blanks around it and used with
them.
-/

namespace TecTac

namespace Helper

open Raise

/-! ## What is claimed -/

/-- The plan is pinned to the facts of the signed artifacts. -/
structure Pinned (repr : Doc → String) (facts : Facts) (plan : SignedPlan) : Prop where
  packages : (plan.packages.map (·.id)).Perm (facts.map Prod.fst)
  order : plan.order.Perm (facts.map Prod.fst)
  actions : (plan.actions.map (Doc.textField repr "id")).Perm (facts.map Prod.fst)
  packageVersions : ∀ p ∈ plan.packages, ∃ fact, Dict.get p.id facts = some fact ∧ p.version = fact.version
  actionVersions : ∀ a ∈ plan.actions, ∃ fact, Dict.get (Doc.textField repr "id" a) facts = some fact ∧
    Doc.field "version" a = .str fact.version
  renames : ∀ a ∈ plan.actions, renameFrom repr a ≠ "" →
    ∃ fact, Dict.get (Doc.textField repr "id" a) facts = some fact ∧ renameFrom repr a ∈ fact.previousModuleIds

/-- The fields in which a supplied version and the publisher stand. -/
def suppliedKeys : List String := ["version", "publisher_trust"]

/-- Two entries that differ only in what they say of their version and of their publisher. -/
inductive SameEntry : Doc → Doc → Prop where
  | refl (a : Doc) : SameEntry a a
  | fields {a b : Fields} (h : ∀ key, key ∉ suppliedKeys → Dict.get key a = Dict.get key b) : SameEntry (.obj a) (.obj b)

/-- Two lists of such entries, or the same value. -/
inductive SameEntries : Option Doc → Option Doc → Prop where
  | refl (a : Option Doc) : SameEntries a a
  | lists {xs ys : List Doc} (h : List.Forall₂ SameEntry xs ys) : SameEntries (some (.arr xs)) (some (.arr ys))

/-- Two jobs that differ only in supplied versions and in what they say of the publisher. -/
structure SameJob (job job' : Fields) : Prop where
  artifacts : SameEntries (Dict.get "artifacts" job) (Dict.get "artifacts" job')
  packages : SameEntries (Dict.get "packages" job) (Dict.get "packages" job')
  planFields : ∀ key, key ≠ "actions" → Dict.get key (planOf job) = Dict.get key (planOf job')
  planActions : SameEntries (Dict.get "actions" (planOf job)) (Dict.get "actions" (planOf job'))
  rest : ∀ key, key ∉ ["artifacts", "packages", "plan"] ++ suppliedKeys → Dict.get key job = Dict.get key job'

/-- Two plans install the same packages, in one order and in the same versions. -/
structure SameInstall (repr : Doc → String) (plan plan' : SignedPlan) : Prop where
  packages : plan.packages = plan'.packages
  order : plan.order = plan'.order
  actions : plan.actions.map (fun a => (Doc.textField repr "id" a, Doc.field "version" a)) =
    plan'.actions.map fun a => (Doc.textField repr "id" a, Doc.field "version" a)

/-- The actions of a job. -/
def plannedActions (job : Fields) : List Doc := (((Doc.field "actions" (planOf job)).orElse (.arr [])).items).getD []

/-- No rename of the job writes its old id with blanks around it, unless the signed manifest lists it with them. -/
def RenamesTrimmed (repr : Doc → String) (facts : Facts) (job : Fields) : Prop :=
  ∀ a, Doc.obj a ∈ plannedActions job → ∀ fact, Dict.get (Doc.textField repr "id" a) facts = some fact →
    stripped (renameFrom repr a) = renameFrom repr a ∨ renameFrom repr a ∈ fact.previousModuleIds

namespace OnlySignedAux

variable {repr : Doc → String} {staged : Staged}

/-! ## Ids that stand once -/

theorem mem_iff_of_sameIds {a b : List String} (h : sameIds a b = true) (id : String) : id ∈ a ↔ id ∈ b := by
  simp only [sameIds, Bool.and_eq_true, List.all_eq_true, decide_eq_true_eq] at h
  exact ⟨h.1 id, h.2 id⟩

theorem perm_of_sameIds {a b : List String} (h : sameIds a b = true) (ha : a.Nodup) (hb : b.Nodup) : a.Perm b :=
  (List.perm_ext_iff_of_nodup ha hb).2 (mem_iff_of_sameIds h)

theorem facts_nodup {rootTrust : List Fields} {facts : Facts} (h : authenticatedModuleFacts repr rootTrust = .ok facts) :
    (facts.map Prod.fst).Nodup := by
  refine foldlM_keeps (P := fun facts : Facts => (facts.map Prod.fst).Nodup) h ?_ List.nodup_nil
  intro facts trust facts' htrust hfacts
  split at htrust
  · cases htrust
  · refine foldlM_keeps (P := fun facts : Facts => (facts.map Prod.fst).Nodup) htrust ?_ hfacts
    intro facts row facts' hrow hfacts
    unfold addFact at hrow
    split at hrow
    · cases hrow
    · obtain ⟨_, _, hrow⟩ := bind_ok hrow
      obtain ⟨_, _, hrow⟩ := bind_ok hrow
      split at hrow
      · cases hrow
      · cases hrow
        exact Dict.nodup_set hfacts

theorem bundleFiles_nodup {trust : Fields} {mapping : List BundleFile} (h : authenticatedBundleFiles repr trust = .ok mapping) :
    (mapping.map (·.id)).Nodup := by
  unfold authenticatedBundleFiles at h
  split at h
  · refine foldlM_keeps (P := fun result : List BundleFile => (result.map (·.id)).Nodup) h ?_ List.nodup_nil
    intro result row result' hrow hresult
    unfold addBundleFile at hrow
    split at hrow
    · cases hrow
    · obtain ⟨_, _, hrow⟩ := bind_ok hrow
      obtain ⟨_, _, hrow⟩ := bind_ok hrow
      obtain ⟨_, hnew, hrow⟩ := bind_ok hrow
      cases hrow
      exact Entries.nodup_map_concat hresult (of_decide_eq_true (of_require hnew)).1
  · cases h

theorem resolved_ids {extract : String} {files : List (List Char)} {mapping : List BundleFile} {source : Doc} {packages : List Package}
    (h : resolveAuthenticatedBundlePackages extract files mapping source = .ok packages) :
    packages.map (·.id) = mapping.map (·.id) := by
  refine map_eq_of_mapM h ?_
  intro item package hitem
  obtain ⟨_, _, hitem⟩ := bind_ok hitem
  cases hitem
  rfl

theorem addPackage_nodup {result result' : List Package} {package : Package} (h : addPackage result package = .ok result')
    (hresult : (result.map (·.id)).Nodup) : (result'.map (·.id)).Nodup := by
  obtain ⟨_, hnew, h⟩ := bind_ok h
  cases h
  exact Entries.nodup_map_concat hresult (of_decide_eq_true (of_require hnew))

theorem standalone_new {artifact : Artifact} {path : String} {item trust : Fields} {seen : List String} {package : Package}
    (h : standalonePackage repr artifact path item trust seen = .ok package) : package.id ∉ seen := by
  unfold standalonePackage at h
  split at h
  · split at h
    · cases h
    · obtain ⟨_, _, h⟩ := bind_ok h
      obtain ⟨_, hnew, h⟩ := bind_ok h
      obtain ⟨_, _, h⟩ := bind_ok h
      cases h
      exact of_decide_eq_true (of_require hnew)
  · cases h

theorem addArtifact_nodup {result result' : List Package} {entry : (Doc × Fields) × Nat}
    (h : addArtifact repr staged result entry = .ok result') (hresult : (result.map (·.id)).Nodup) : (result'.map (·.id)).Nodup := by
  unfold addArtifact at h
  split at h
  · cases h
  · dsimp only at h
    split at h
    · cases h
    · split at h
      · obtain ⟨files, -, h⟩ := bind_ok h
        obtain ⟨mapping, -, h⟩ := bind_ok h
        obtain ⟨expanded, -, h⟩ := bind_ok h
        exact foldlM_keeps (P := fun result : List Package => (result.map (·.id)).Nodup) h
          (fun _ _ _ hadd hres => addPackage_nodup hadd hres) hresult
      · obtain ⟨package, hpackage, h⟩ := bind_ok h
        cases h
        exact Entries.nodup_map_concat hresult (standalone_new hpackage)

/-- The packages of a job have ids of their own. -/
theorem packages_nodup {job : Fields} {rootTrust : List Fields} {packages : List Package}
    (h : jobPackages repr staged job rootTrust = .ok packages) : (packages.map (·.id)).Nodup := by
  unfold jobPackages at h
  split at h
  · split at h
    · cases h
    · obtain ⟨files, _, h⟩ := bind_ok h
      obtain ⟨mapping, hmapping, h⟩ := bind_ok h
      rw [resolved_ids h]
      exact bundleFiles_nodup hmapping
  · obtain ⟨artifacts, -, h⟩ := bind_ok h
    obtain ⟨_, _, h⟩ := bind_ok h
    exact foldlM_keeps (P := fun result : List Package => (result.map (·.id)).Nodup) h
      (fun _ _ _ hadd hres => addArtifact_nodup hadd hres) List.nodup_nil

/-! ## What an accepted plan was compared with -/

/-- The comparisons that an accepted plan went through. -/
structure Compared (repr : Doc → String) (facts : Facts) (job : Fields) (packages : List Package) (plan : SignedPlan) : Prop where
  packageIds : sameIds (packages.map (·.id)) (facts.map Prod.fst) = true
  checked : packages.mapM (checkPackage facts) = .ok plan.packages
  orderNodup : plan.order.Nodup
  orderIds : sameIds plan.order (packages.map (·.id)) = true
  order : ∃ values, ((Doc.field "order" (planOf job)).orElse (.arr [])).members = some values ∧ plan.order = values.map (Doc.text repr)
  actions : (plannedActions job).mapM (checkAction repr facts) = .ok plan.actions
  actionIds : sameIds (plan.actions.map (Doc.textField repr "id")) (packages.map (·.id)) = true
  actionCount : (plan.actions.map (Doc.textField repr "id")).length = (packages.map (·.id)).dedup.length

theorem compared_of_ok {job : Fields} {packages : List Package} {rootTrust : List Fields} {plan : SignedPlan} {facts : Facts}
    (hfacts : authenticatedModuleFacts repr rootTrust = .ok facts)
    (h : validateInstallPlan repr job packages rootTrust = .ok plan) : Compared repr facts job packages plan := by
  unfold validateInstallPlan at h
  rw [hfacts, ok_bind] at h
  obtain ⟨_, hids, h⟩ := bind_ok h
  obtain ⟨checked, hchecked, h⟩ := bind_ok h
  split at h
  · cases h
  · rename_i values hvalues
    obtain ⟨_, horder, h⟩ := bind_ok h
    split at h
    · cases h
    · rename_i actions hactions
      obtain ⟨marked, hmarked, h⟩ := bind_ok h
      obtain ⟨_, hcount, h⟩ := bind_ok h
      cases h
      have hids' := Bool.and_eq_true_iff.1 (of_require hids)
      have horder' := Bool.and_eq_true_iff.1 (of_require horder)
      have hcount' := Bool.and_eq_true_iff.1 (of_require hcount)
      exact ⟨hids'.2, hchecked, of_decide_eq_true horder'.1, horder'.2, ⟨values, hvalues, rfl⟩,
        by rw [plannedActions, hactions]; exact hmarked, hcount'.1, beq_iff_eq.1 hcount'.2⟩

/-- What a checked package keeps, and the version it gets. -/
theorem checkPackage_ok {facts : Facts} {item item' : Package} (h : checkPackage facts item = .ok item') :
    item'.id = item.id ∧ ∃ fact, Dict.get item.id facts = some fact ∧ item'.version = fact.version := by
  unfold checkPackage at h
  split at h
  · cases h
  · rename_i fact hfact
    obtain ⟨_, _, h⟩ := bind_ok h
    cases h
    exact ⟨rfl, fact, hfact, rfl⟩

/-- A field other than the version is not touched by the check. -/
theorem field_setVersion {key : String} (hkey : key ≠ "version") (v : Doc) (a : Fields) :
    Doc.field key (Dict.set "version" v a) = Doc.field key a := by
  unfold Doc.field
  rw [Dict.get_set_of_ne (Ne.symm hkey)]

theorem textField_setVersion {key : String} (hkey : key ≠ "version") (v : Doc) (a : Fields) :
    Doc.textField repr key (Dict.set "version" v a) = Doc.textField repr key a := by
  unfold Doc.textField
  rw [field_setVersion hkey]

theorem renameFrom_setVersion (v : Doc) (a : Fields) : renameFrom repr (Dict.set "version" v a) = renameFrom repr a := by
  unfold renameFrom
  rw [field_setVersion (by decide), textField_setVersion (by decide)]

/-- What the check of an action found: the facts of its module, and its old id, without the blanks, among those of the facts. -/
theorem checkAction_ok {facts : Facts} {action : Doc} {a' : Fields} (h : checkAction repr facts action = .ok a') :
    ∃ a fact, action = .obj a ∧ a' = Dict.set "version" (.str fact.version) a ∧
      Dict.get (Doc.textField repr "id" a) facts = some fact ∧
      (stripped (Doc.textField repr "previous_module_id" a) = "" ∨
        stripped (Doc.textField repr "previous_module_id" a) ∈ fact.previousModuleIds) := by
  unfold checkAction at h
  split at h
  · cases h
  · rename_i a ha
    dsimp only at h
    split at h
    · cases h
    · rename_i fact hfact
      obtain ⟨_, _, h⟩ := bind_ok h
      obtain ⟨_, hprevious, h⟩ := bind_ok h
      cases h
      have haction : action = .obj a := by
        cases action with
        | obj kvs => exact congrArg Doc.obj (Option.some.inj ha)
        | _ => cases ha
      refine ⟨a, fact, haction, rfl, hfact, ?_⟩
      simpa using of_require hprevious

/-! ## The plan is pinned -/

/-- What is pinned whatever the job holds: everything but the renames. -/
theorem pinned_of_renames {job : Fields} {packages : List Package} {rootTrust : List Fields} {plan : SignedPlan} {facts : Facts}
    (hfacts : authenticatedModuleFacts repr rootTrust = .ok facts) (hnodup : (packages.map (·.id)).Nodup)
    (h : Compared repr facts job packages plan)
    (hrenames : ∀ a ∈ plan.actions, renameFrom repr a ≠ "" →
      ∃ fact, Dict.get (Doc.textField repr "id" a) facts = some fact ∧ renameFrom repr a ∈ fact.previousModuleIds) :
    Pinned repr facts plan := by
  have hperm : (packages.map (·.id)).Perm (facts.map Prod.fst) := perm_of_sameIds h.packageIds hnodup (facts_nodup hfacts)
  have hids : plan.packages.map (·.id) = packages.map (·.id) :=
    map_eq_of_mapM h.checked fun item item' hitem => (checkPackage_ok hitem).1
  -- the actions cover the packages and are as many, so no action stands twice
  have hsub : packages.map (·.id) ⊆ plan.actions.map (Doc.textField repr "id") :=
    fun id hid => (mem_iff_of_sameIds h.actionIds id).2 hid
  have hactions : (packages.map (·.id)).Perm (plan.actions.map (Doc.textField repr "id")) := by
    refine (List.subperm_of_subset hnodup hsub).perm_of_length_le ?_
    exact Nat.le_of_eq (h.actionCount.trans (congrArg List.length hnodup.dedup))
  refine ⟨hids ▸ hperm, (perm_of_sameIds h.orderIds h.orderNodup hnodup).trans hperm, hactions.symm.trans hperm, ?_, ?_, hrenames⟩
  · intro p hp
    obtain ⟨item, _, hitem⟩ := mem_of_mapM_ok h.checked hp
    obtain ⟨hid, fact, hfact, hversion⟩ := checkPackage_ok hitem
    exact ⟨fact, hid ▸ hfact, hversion⟩
  · intro a ha
    obtain ⟨action, _, haction⟩ := mem_of_mapM_ok h.actions ha
    obtain ⟨a₀, fact, _, rfl, hfact, _⟩ := checkAction_ok haction
    refine ⟨fact, by rwa [textField_setVersion (by decide)], ?_⟩
    unfold Doc.field
    rw [Dict.get_set_self, Option.getD_some]

theorem renames_iff {job : Fields} {packages : List Package} {plan : SignedPlan} {facts : Facts}
    (h : Compared repr facts job packages plan) :
    (∀ a ∈ plan.actions, renameFrom repr a ≠ "" →
      ∃ fact, Dict.get (Doc.textField repr "id" a) facts = some fact ∧ renameFrom repr a ∈ fact.previousModuleIds) ↔
      RenamesTrimmed repr facts job := by
  constructor
  · intro hrenames a ha fact hfact
    obtain ⟨a', ha', hcheck⟩ := mapM_ok_of_mem h.actions ha
    obtain ⟨a₀, fact₀, heq, rfl, _, _⟩ := checkAction_ok hcheck
    cases heq
    by_cases hnone : renameFrom repr a = ""
    · exact Or.inl (by rw [hnone]; decide)
    · obtain ⟨fact', hfact', hmem⟩ := hrenames _ ha' (by rwa [renameFrom_setVersion])
      rw [textField_setVersion (by decide), hfact] at hfact'
      cases hfact'
      rw [renameFrom_setVersion] at hmem
      exact Or.inr hmem
  · intro htrimmed a' ha' hne
    obtain ⟨action, haction, hcheck⟩ := mem_of_mapM_ok h.actions ha'
    obtain ⟨a, fact, rfl, rfl, hfact, hprevious⟩ := checkAction_ok hcheck
    rw [renameFrom_setVersion] at hne ⊢
    refine ⟨fact, by rwa [textField_setVersion (by decide)], ?_⟩
    -- the old id of a rename is the text that was compared
    have hsource : renameFrom repr a = Doc.textField repr "previous_module_id" a := by
      unfold renameFrom at hne ⊢
      split at hne
      · rename_i hrename
        rw [if_pos hrename]
      · exact absurd rfl hne
    rcases htrimmed a haction fact hfact with hstrip | hmem
    · rw [hsource] at hstrip hne ⊢
      rcases hprevious with hempty | hmem
      · exact absurd (hstrip ▸ hempty) hne
      · exact hstrip ▸ hmem
    · exact hmem

/-! ## Two jobs that differ in what is not compared -/

theorem sameEntry_refl (xs : List Doc) : List.Forall₂ SameEntry xs xs := List.forall₂_same.2 fun x _ => .refl x

theorem SameEntries.items {a b : Option Doc} (h : SameEntries a b) {xs ys : List Doc} (hx : (a.getD .null).items = some xs)
    (hy : (b.getD .null).items = some ys) : List.Forall₂ SameEntry xs ys := by
  cases h with
  | refl a =>
    cases hx.symm.trans hy
    exact sameEntry_refl xs
  | lists h =>
    cases hx
    cases hy
    exact h

theorem SameEntries.orElse {a b : Option Doc} (h : SameEntries a b) :
    SameEntries (some ((a.getD .null).orElse (.arr []))) (some ((b.getD .null).orElse (.arr []))) := by
  cases h with
  | refl a => exact .refl _
  | lists h =>
    cases h with
    | nil => exact .refl _
    | cons hx hxs => exact .lists (.cons hx hxs)

theorem SameEntries.members {a b : Doc} (h : SameEntries (some a) (some b)) {xs ys : List Doc} (hx : a.members = some xs)
    (hy : b.members = some ys) : List.Forall₂ SameEntry xs ys := by
  cases h with
  | refl a =>
    cases hx.symm.trans hy
    exact sameEntry_refl xs
  | lists h =>
    cases hx
    cases hy
    exact h

/-- Such entries are lists on both sides or on none. -/
theorem SameEntries.isSome_items {a b : Option Doc} (h : SameEntries a b) :
    ((a.getD .null).items).isSome = ((b.getD .null).items).isSome := by
  cases h <;> rfl

theorem sameEntry_packageArtifact {a b a' b' : Doc} (h : SameEntry a b) (ha : packageArtifact a = .ok a')
    (hb : packageArtifact b = .ok b') : SameEntry a' b' := by
  cases h with
  | refl a =>
    cases ha.symm.trans hb
    exact .refl a'
  | fields h =>
    cases ha
    cases hb
    refine .fields fun key hkey => ?_
    rw [Dict.get_set, Dict.get_set, h key hkey]

theorem mapM_same {f : Doc → Except String Doc} {xs ys xs' ys' : List Doc} (h : List.Forall₂ SameEntry xs ys)
    (hf : ∀ x y x' y', SameEntry x y → f x = .ok x' → f y = .ok y' → SameEntry x' y') (hx : xs.mapM f = .ok xs')
    (hy : ys.mapM f = .ok ys') : List.Forall₂ SameEntry xs' ys' := by
  induction h generalizing xs' ys' with
  | nil =>
    cases hx
    cases hy
    exact .nil
  | cons hxy _ ih =>
    rw [List.mapM_cons] at hx hy
    obtain ⟨x', hx', hx⟩ := bind_ok hx
    obtain ⟨restX, hrestX, hx⟩ := bind_ok hx
    obtain ⟨y', hy', hy⟩ := bind_ok hy
    obtain ⟨restY, hrestY, hy⟩ := bind_ok hy
    cases hx
    cases hy
    exact .cons (hf _ _ _ _ hxy hx' hy') (ih hrestX hrestY)

theorem batchArtifacts_same {job job' : Fields} {xs ys : List Doc} (h : SameJob job job') (hx : batchArtifacts job = .ok xs)
    (hy : batchArtifacts job' = .ok ys) : List.Forall₂ SameEntry xs ys := by
  have hlists := SameEntries.isSome_items h.artifacts
  unfold batchArtifacts Doc.field at hx hy
  split at hx
  · rename_i as has
    cases hx
    split at hy
    · rename_i bs hbs
      cases hy
      exact SameEntries.items h.artifacts has hbs
    · rename_i hnone
      rw [has, hnone] at hlists
      cases hlists
  · rename_i hnone
    split at hy
    · rename_i bs hbs
      rw [hnone, hbs] at hlists
      cases hlists
    · split at hx
      · cases hx
      · rename_i items hitems
        split at hy
        · cases hy
        · rename_i items' hitems'
          exact mapM_same (SameEntries.members (SameEntries.orElse h.packages) hitems hitems')
            (fun _ _ _ _ hxy hx' hy' => sameEntry_packageArtifact hxy hx' hy') hx hy

/-- An artifact is read alike whatever it says of its version and its publisher. -/
theorem addArtifact_same {a b : Doc} (h : SameEntry a b) (result : List Package) (trust : Fields) (i : Nat) :
    addArtifact repr staged result ((a, trust), i) = addArtifact repr staged result ((b, trust), i) := by
  cases h with
  | refl a => rfl
  | fields h =>
    unfold addArtifact standalonePackage Doc.pairs
    dsimp only
    unfold Doc.field
    rw [h "kind" (by decide), h "bundle_path" (by decide), h "path" (by decide), h "id" (by decide), h "bundle_id" (by decide),
      h "source" (by decide)]

theorem zip_same {xs ys : List Doc} (h : List.Forall₂ SameEntry xs ys) (trust : List Fields) (n : Nat) :
    List.Forall₂ (fun p q => SameEntry p.1.1 q.1.1 ∧ p.1.2 = q.1.2 ∧ p.2 = q.2) ((xs.zip trust).zipIdx n) ((ys.zip trust).zipIdx n) := by
  induction h generalizing trust n with
  | nil => exact .nil
  | cons hxy _ ih =>
    cases trust with
    | nil => exact .nil
    | cons t trust => exact .cons ⟨hxy, rfl, rfl⟩ (ih trust (n + 1))

/-- Two jobs that differ only in supplied versions and publishers have the same packages. -/
theorem jobPackages_same {job job' : Fields} {rootTrust : List Fields} {packages packages' : List Package} (hsame : SameJob job job')
    (h : jobPackages repr staged job rootTrust = .ok packages) (h' : jobPackages repr staged job' rootTrust = .ok packages') :
    packages = packages' := by
  have haction : Doc.field "action" job = Doc.field "action" job' := by
    unfold Doc.field
    rw [hsame.rest "action" (by decide)]
  unfold jobPackages at h h'
  rw [← haction] at h'
  split at h
  · rename_i hbundle
    rw [if_pos hbundle] at h'
    cases rootTrust with
    | nil => cases h
    | cons trust rest =>
      have heq : bundlePackages repr staged job trust = bundlePackages repr staged job' trust := by
        unfold bundlePackages Doc.field
        rw [hsame.rest "bundle_path" (by decide), hsame.rest "source" (by decide)]
      exact Except.ok.inj (h.symm.trans (heq.trans h'))
  · rename_i hbundle
    rw [if_neg hbundle] at h'
    obtain ⟨artifacts, hartifacts, h⟩ := bind_ok h
    obtain ⟨_, _, h⟩ := bind_ok h
    obtain ⟨artifacts', hartifacts', h'⟩ := bind_ok h'
    obtain ⟨_, _, h'⟩ := bind_ok h'
    have hstep : ∀ result p q, (SameEntry p.1.1 q.1.1 ∧ p.1.2 = q.1.2 ∧ p.2 = q.2) →
        addArtifact repr staged result p = addArtifact repr staged result q := by
      rintro result ⟨⟨a, t⟩, i⟩ ⟨⟨b, t'⟩, i'⟩ ⟨hab, ht, hi⟩
      cases ht
      cases hi
      exact addArtifact_same hab result t i
    rw [foldlM_congr (zip_same (batchArtifacts_same hsame hartifacts hartifacts') rootTrust 0) hstep] at h
    exact Except.ok.inj (h.symm.trans h')

/-- The parts of an accepted plan. -/
theorem signedPlan_ok {job : Fields} {rootTrust : List Fields} {plan : SignedPlan} (h : signedPlan repr staged job rootTrust = .ok plan) :
    ∃ packages, jobPackages repr staged job rootTrust = .ok packages ∧ validateInstallPlan repr job packages rootTrust = .ok plan := by
  obtain ⟨packages, hpackages, h⟩ := bind_ok h
  obtain ⟨plan', hplan, h⟩ := bind_ok h
  obtain ⟨_, _, h⟩ := bind_ok h
  cases h
  exact ⟨packages, hpackages, hplan⟩

/-- The actions of two such jobs. -/
theorem plannedActions_same {job job' : Fields} (h : SameJob job job') :
    List.Forall₂ SameEntry (plannedActions job) (plannedActions job') := by
  have hor := SameEntries.orElse h.planActions
  have hlists := SameEntries.isSome_items hor
  unfold plannedActions Doc.field
  rw [Option.getD_some, Option.getD_some] at hlists
  cases hx : (((Dict.get "actions" (planOf job)).getD .null).orElse (.arr [])).items with
  | none =>
    rw [hx, Option.isSome_none, eq_comm, Option.isSome_eq_false_iff, Option.isNone_iff_eq_none] at hlists
    rw [hlists]
    exact .nil
  | some xs =>
    rw [hx, Option.isSome_some, eq_comm, Option.isSome_iff_exists] at hlists
    obtain ⟨ys, hy⟩ := hlists
    rw [hy]
    exact SameEntries.items hor hx hy

/-- What is installed for an action, from the action and the facts. -/
def installed (repr : Doc → String) (facts : Facts) (action : Doc) : String × Doc :=
  let id := Doc.textField repr "id" ((action.pairs).getD [])
  (id, .str (((Dict.get id facts).map (·.version)).getD ""))

theorem installed_same {facts : Facts} {a b : Doc} (h : SameEntry a b) : installed repr facts a = installed repr facts b := by
  cases h with
  | refl a => rfl
  | fields h =>
    have hid := h "id" (by decide)
    simp only [installed, Doc.pairs, Option.getD_some, Doc.textField, Doc.field, hid]

theorem actions_eq {facts : Facts} {actions : List Doc} {checked : List Fields} (h : actions.mapM (checkAction repr facts) = .ok checked) :
    checked.map (fun a => (Doc.textField repr "id" a, Doc.field "version" a)) = actions.map (installed repr facts) := by
  refine map_eq_of_mapM h fun action a' hcheck => ?_
  obtain ⟨a, fact, rfl, rfl, hfact, _⟩ := checkAction_ok hcheck
  dsimp only [installed, Doc.pairs, Option.getD_some]
  rw [textField_setVersion (by decide), hfact]
  unfold Doc.field
  rw [Dict.get_set_self, Option.getD_some, Option.map_some, Option.getD_some]

theorem map_installed_same {facts : Facts} {xs ys : List Doc} (h : List.Forall₂ SameEntry xs ys) :
    xs.map (installed repr facts) = ys.map (installed repr facts) := by
  induction h with
  | nil => rfl
  | cons hxy _ ih => rw [List.map_cons, List.map_cons, installed_same hxy, ih]

theorem sameInstall_of_same {job job' : Fields} {rootTrust : List Fields} {plan plan' : SignedPlan} {facts : Facts}
    (hfacts : authenticatedModuleFacts repr rootTrust = .ok facts) (hsame : SameJob job job')
    (h : signedPlan repr staged job rootTrust = .ok plan) (h' : signedPlan repr staged job' rootTrust = .ok plan') :
    SameInstall repr plan plan' := by
  obtain ⟨packages, hpackages, hplan⟩ := signedPlan_ok h
  obtain ⟨packages', hpackages', hplan'⟩ := signedPlan_ok h'
  cases jobPackages_same hsame hpackages hpackages'
  have hcompared := compared_of_ok hfacts hplan
  have hcompared' := compared_of_ok hfacts hplan'
  refine ⟨Except.ok.inj (hcompared.checked.symm.trans hcompared'.checked), ?_, ?_⟩
  · obtain ⟨values, hvalues, horder⟩ := hcompared.order
    obtain ⟨values', hvalues', horder'⟩ := hcompared'.order
    unfold Doc.field at hvalues hvalues'
    rw [hsame.planFields "order" (by decide)] at hvalues
    rw [horder, horder', Option.some.inj (hvalues.symm.trans hvalues')]
  · rw [actions_eq hcompared.actions, actions_eq hcompared'.actions, map_installed_same (plannedActions_same hsame)]

end OnlySignedAux

open OnlySignedAux in
/-- A job that is accepted installs only what was signed: the packages, the order and the actions range over the signed module
ids, each once, in the signed versions, every rename is of an id that the signed manifest names, and a job that differs only in
the versions and publishers it supplies installs the same. This holds exactly when no rename of the job writes its old id with
blanks around it that the signed manifest does not have. -/
theorem installs_only_signed_iff (repr : Doc → String) (staged : Staged) (job : Fields) (rootTrust : List Fields) (facts : Facts)
    (plan : SignedPlan) (hfacts : authenticatedModuleFacts repr rootTrust = .ok facts)
    (h : signedPlan repr staged job rootTrust = .ok plan) :
    (Pinned repr facts plan ∧ ∀ job' plan', SameJob job job' → signedPlan repr staged job' rootTrust = .ok plan' →
      SameInstall repr plan plan') ↔ RenamesTrimmed repr facts job := by
  obtain ⟨packages, hpackages, hplan⟩ := signedPlan_ok h
  have hcompared := compared_of_ok hfacts hplan
  constructor
  · rintro ⟨hpinned, _⟩
    exact (renames_iff hcompared).1 hpinned.renames
  · intro htrimmed
    refine ⟨pinned_of_renames hfacts (packages_nodup hpackages) hcompared ((renames_iff hcompared).2 htrimmed), ?_⟩
    intro job' plan' hsame h'
    exact sameInstall_of_same hfacts hsame h h'

/-! ## A rename -/

/-- The verifier read one module, `sonde`, which was `probe` before. -/
def sondeTrust : Fields :=
  [("package_sha256", .str "ab"),
    ("artifact_modules", .arr [.obj [("id", .str "sonde"), ("version", .str "2.0.0"), ("previous_module_ids", .arr [.str "probe"])]])]

/-- A job that renames a module to `sonde`. -/
def sondeJob (previous : String) : Fields :=
  [("action", .str "batch_install"), ("artifacts", .arr [.obj [("kind", .str "package"), ("path", .str "sonde.zip")]]),
    ("plan", .obj [("order", .arr [.str "sonde"]),
      ("actions", .arr [.obj [("id", .str "sonde"), ("action", .str "rename"), ("previous_module_id", .str previous)]])])]

/-- The staged package of `sonde`. -/
def sondeStaged : Staged := fun path => if path = "sonde.zip" then some ⟨"ab", []⟩ else none

/-- The plan that is accepted for such a job. -/
def sondePlan (previous : String) : SignedPlan where
  packages := [⟨"sonde", "sonde.zip", "2.0.0", .null⟩]
  order := ["sonde"]
  actions := [[("id", .str "sonde"), ("action", .str "rename"), ("previous_module_id", .str previous), ("version", .str "2.0.0")]]

theorem sonde_renames_probe :
    (Pinned (fun _ => "") [("sonde", ⟨"2.0.0", ["probe"]⟩)] (sondePlan "probe") ∧
      ∀ job' plan', SameJob (sondeJob "probe") job' → signedPlan (fun _ => "") sondeStaged job' [sondeTrust] = .ok plan' →
        SameInstall (fun _ => "") (sondePlan "probe") plan') := by
  refine (installs_only_signed_iff (fun _ => "") sondeStaged (sondeJob "probe") [sondeTrust] [("sonde", ⟨"2.0.0", ["probe"]⟩)]
    (sondePlan "probe") rfl rfl).2 ?_
  intro a ha fact hfact
  cases List.mem_singleton.1 ha
  exact Or.inl (by decide)

/-- A blank after the old id: the job is accepted, and renames an id that the signed manifest does not name. -/
theorem blank_renames_unsigned_id :
    signedPlan (fun _ => "") sondeStaged (sondeJob "probe ") [sondeTrust] = .ok (sondePlan "probe ") ∧
      ¬ Pinned (fun _ => "") [("sonde", ⟨"2.0.0", ["probe"]⟩)] (sondePlan "probe ") := by
  refine ⟨rfl, fun hpinned => ?_⟩
  obtain ⟨fact, hfact, hmem⟩ := hpinned.renames _ List.mem_cons_self (by decide)
  cases hfact
  exact absurd hmem (by decide)

end Helper

end TecTac
