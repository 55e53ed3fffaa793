import TecTac.InstallJob
import TecTac.Lemmas.JobHelper

/-!
# What the steps of an install job leave

The backup reads the folders of the tree it was made from, the installs change the folders of the modules of the job and
remove those of the modules that are renamed, and nothing after the backup touches it. A module that the job switched off
was on before it.
-/

namespace TecTac

open Raise

namespace Helper

variable {C : Type} {out : Outside C} {job : InstallJob} {preInstalled : List String} {w w' : Work C}

/-! ## Folders -/

theorem Tree.set_apply (t : Tree C) (kind kind' : Kind) (id id' : String) (content : Option C) :
    t.set kind id content kind' id' = if kind' = kind ∧ id' = id then content else t kind' id' := rfl

/-- The folder that `restore_modules` puts back. -/
def Backup.restored (b : Backup C) (kind : Kind) (id : String) : Option C :=
  if (kind, id) ∈ b.contents.getD [] then b.folders kind id else none

/-- The rollback puts back the folders of the modules it is given and leaves the others. -/
theorem restoreModules_tree (ids : List String) (b : Backup C) (disk : Disk C) (kind : Kind) (id : String) :
    (restoreModules ids b disk).tree kind id = if id ∈ ids then b.restored kind id else disk.tree kind id := by
  obtain ⟨tree, state⟩ := disk
  unfold restoreModules
  dsimp only
  induction ids generalizing tree with
  | nil => rfl
  | cons first ids ih =>
    rw [List.foldl_cons, ih]
    simp only [List.foldl_cons, List.foldl_nil, Tree.set_apply, Backup.restored]
    by_cases hrest : id ∈ ids
    · simp [hrest]
    · by_cases hfirst : id = first
      · cases kind <;> simp [hfirst]
      · simp [hrest, hfirst]

/-- The modules of the job are backed up, and so is every module that an action renames. -/
theorem mem_backupIds (job : InstallJob) (id : String) :
    id ∈ job.backupIds ↔ id ∈ job.order ∨ id ≠ "" ∧ ∃ a ∈ job.actions, a.previousModuleId = id := by
  have hfold : ∀ (actions : List Action) (ids : List String),
      id ∈ actions.foldl
        (fun ids a => if a.previousModuleId ≠ "" ∧ a.previousModuleId ∉ ids then ids ++ [a.previousModuleId] else ids) ids ↔
        id ∈ ids ∨ id ≠ "" ∧ ∃ a ∈ actions, a.previousModuleId = id := by
    intro actions
    induction actions with
    | nil => simp
    | cons a actions ih =>
      intro ids
      rw [List.foldl_cons, ih]
      by_cases hadd : a.previousModuleId ≠ "" ∧ a.previousModuleId ∉ ids
      · rw [if_pos hadd]
        constructor
        · rintro (hmem | ⟨hne, b, hb, heq⟩)
          · rcases List.mem_append.1 hmem with hmem | hmem
            · exact Or.inl hmem
            · have heq := List.mem_singleton.1 hmem
              exact Or.inr ⟨heq ▸ hadd.1, a, List.mem_cons_self, heq.symm⟩
          · exact Or.inr ⟨hne, b, List.mem_cons_of_mem _ hb, heq⟩
        · rintro (hmem | ⟨hne, b, hb, heq⟩)
          · exact Or.inl (List.mem_append_left _ hmem)
          · rcases List.mem_cons.1 hb with rfl | hb
            · exact Or.inl (List.mem_append_right _ (heq ▸ List.mem_singleton_self _))
            · exact Or.inr ⟨hne, b, hb, heq⟩
      · rw [if_neg hadd]
        constructor
        · rintro (hmem | ⟨hne, b, hb, heq⟩)
          · exact Or.inl hmem
          · exact Or.inr ⟨hne, b, List.mem_cons_of_mem _ hb, heq⟩
        · rintro (hmem | ⟨hne, b, hb, heq⟩)
          · exact Or.inl hmem
          · rcases List.mem_cons.1 hb with rfl | hb
            · by_contra hno
              exact hadd ⟨fun hempty => hne (heq ▸ hempty), fun hmem => hno (Or.inl (heq ▸ hmem))⟩
            · exact Or.inr ⟨hne, b, hb, heq⟩
  exact hfold job.actions job.order

/-- A module that is renamed is backed up. -/
theorem renameFrom_mem_backupIds {id : String} (h : job.renameFrom id ≠ "") : job.renameFrom id ∈ job.backupIds := by
  unfold InstallJob.renameFrom at h ⊢
  split at h
  · rename_i a hfind
    split at h
    · rename_i hrename
      simp only [hrename, if_true]
      exact (mem_backupIds job _).2 (Or.inr ⟨h, a, List.mem_of_find?_eq_some hfind, rfl⟩)
    · exact absurd rfl h
  · exact absurd rfl h

/-! ## The backup -/

/-- While the folders are copied nothing else has happened, and what was copied is what the tree holds. -/
structure Copying (disk : Disk C) (job : InstallJob) (w : Work C) : Prop where
  tree : w.tree = disk.tree
  state : w.state = disk.state
  backupIds : w.backupIds = job.order
  disabled : w.disabledByJob = []
  disables : w.disables = []
  contents : w.backup.contents = none
  copiedState : w.backup.state = .absent
  sound : ∀ kind id, (w.backup.folders kind id).isSome → w.backup.folders kind id = disk.tree kind id
  recorded : ∀ kind id, (kind, id) ∈ w.records ↔ (w.backup.folders kind id).isSome

theorem copying_start (job : InstallJob) (disk : Disk C) : Copying disk job (startWork job disk) where
  tree := rfl
  state := rfl
  backupIds := rfl
  disabled := rfl
  disables := rfl
  contents := rfl
  copiedState := rfl
  sound := by simp [startWork]
  recorded := by simp [startWork]

/-- A copied folder is in the backup, and the folders copied before stay there. -/
theorem copyFolder_run {disk : Disk C} {kind : Kind} {id : String} (hw : Copying disk job w)
    (h : Step.run out job preInstalled (.copyFolder kind id) w = .ok w') :
    Copying disk job w' ∧ w'.backup.folders kind id = disk.tree kind id ∧
      ∀ kind' id', w.backup.folders kind' id' = disk.tree kind' id' → w'.backup.folders kind' id' = disk.tree kind' id' := by
  simp only [Step.run] at h
  split at h
  · rename_i hnone
    cases h
    have htree : disk.tree kind id = none := hw.tree ▸ hnone
    refine ⟨hw, ?_, fun _ _ hcopied => hcopied⟩
    cases hfolder : w.backup.folders kind id with
    | none => exact htree.symm
    | some content =>
      have hsound := hw.sound kind id (by simp [hfolder])
      rw [← hfolder]
      exact hsound
  · cases h
  · rename_i content hsome hfree
    cases h
    have htree : disk.tree kind id = some content := hw.tree ▸ hsome
    have hset : ∀ kind' id', w.backup.folders.set kind id (some content) kind' id' =
        if kind' = kind ∧ id' = id then disk.tree kind' id' else w.backup.folders kind' id' := by
      intro kind' id'
      rw [Tree.set_apply]
      split
      · rename_i heq
        rw [heq.1, heq.2, htree]
      · rfl
    refine ⟨{ hw with sound := ?_, recorded := ?_ }, ?_, ?_⟩
    · intro kind' id' hsome'
      dsimp only at hsome' ⊢
      rw [hset] at hsome' ⊢
      split
      · rfl
      · rename_i hne
        rw [if_neg hne] at hsome'
        exact hw.sound kind' id' hsome'
    · intro kind' id'
      dsimp only
      rw [hset, List.mem_append, hw.recorded, List.mem_singleton, Prod.mk.injEq]
      by_cases heq : kind' = kind ∧ id' = id
      · simp [heq, htree]
      · simp [heq]
    · dsimp only
      rw [hset, if_pos ⟨rfl, rfl⟩]
    · intro kind' id' hcopied
      dsimp only
      rw [hset]
      split
      · rfl
      · exact hcopied

/-- When the loop of `backup_modules` went through, every folder of its modules is copied. -/
theorem copyFolders_run {disk : Disk C} (ids : List String) {w w' : Work C} (hw : Copying disk job w)
    (h : Steps.runAll (Step.run out job preInstalled)
      (ids.flatMap fun id => [.copyFolder .extensions id, .copyFolder .reportsets id]) w = .ok w') :
    Copying disk job w' ∧ (∀ id ∈ ids, ∀ kind, w'.backup.folders kind id = disk.tree kind id) ∧
      ∀ kind id, w.backup.folders kind id = disk.tree kind id → w'.backup.folders kind id = disk.tree kind id := by
  induction ids generalizing w with
  | nil =>
    cases h
    exact ⟨hw, fun id hid => (by cases hid), fun _ _ hcopied => hcopied⟩
  | cons first ids ih =>
    rw [List.flatMap_cons] at h
    obtain ⟨both, hboth, hrest⟩ := Steps.runAll_append h
    obtain ⟨one, hone, htwo⟩ := Steps.runAll_cons hboth
    obtain ⟨hw1, hext, hkeep1⟩ := copyFolder_run hw hone
    obtain ⟨hw2, hrep, hkeep2⟩ := copyFolder_run hw1 (Steps.runAll_singleton htwo)
    obtain ⟨hw', hids, hkeep⟩ := ih hw2 hrest
    refine ⟨hw', ?_, fun kind id hcopied => hkeep kind id (hkeep2 kind id (hkeep1 kind id hcopied))⟩
    intro id hid kind
    rcases List.mem_cons.1 hid with rfl | hid
    · cases kind with
      | extensions => exact hkeep _ _ (hkeep2 _ _ hext)
      | reportsets => exact hkeep _ _ hrep
    · exact hids id hid kind

/-! ## The fields of the records -/

/-- A field of the record of a module. -/
def field (modules : Records) (id key : String) : Option Json := Dict.get key ((record modules id).toOption.getD [])

/-- `scrub_state_sources`, for one source. -/
def scrubSource (urlsplit : String → Option UrlParts) : Json → Json
  | .obj source =>
    match Dict.get "repository_url" source with
    | some url => .obj (Dict.set "repository_url" (.str (stripRepositoryUrl urlsplit url)) source)
    | none => .obj source
  | j => j

/-- Writing a flag leaves the other fields. -/
theorem field_setFlags {enabled : Bool} {ids : List String} {modules modules' : Records}
    (h : setFlags enabled ids modules = .ok modules') (id : String) {key : String} (hkey : key ≠ "enabled") :
    field modules' id key = field modules id key := by
  induction ids generalizing modules with
  | nil =>
    cases h
    rfl
  | cons first ids ih =>
    obtain ⟨written, hwritten, h⟩ := bind_ok h
    obtain ⟨fields, hfields, hwritten⟩ := bind_ok hwritten
    cases hwritten
    rw [ih h]
    unfold field
    rw [record_set]
    by_cases hfirst : first = id
    · rw [if_pos hfirst, ← hfirst, hfields]
      exact Dict.get_set_of_ne hkey.symm _ _
    · rw [if_neg hfirst]

/-- Cleaning a record cleans its source and leaves the other fields. -/
theorem get_scrub (urlsplit : String → Option UrlParts) (fields : List (String × Json)) :
    ∃ fields', scrubRecord urlsplit (.obj fields) = .obj fields' ∧
      ∀ key, Dict.get key fields' = if key = "source" then (Dict.get key fields).map (scrubSource urlsplit) else Dict.get key fields := by
  have hsame : (Dict.get "source" fields).map (scrubSource urlsplit) = Dict.get "source" fields →
      ∀ key, Dict.get key fields = if key = "source" then (Dict.get key fields).map (scrubSource urlsplit) else Dict.get key fields := by
    intro heq key
    split
    · rename_i hkey
      rw [hkey, heq]
    · rfl
  cases hsource : Dict.get "source" fields with
  | none => exact ⟨fields, by simp [scrubRecord, hsource], hsame (by simp [hsource])⟩
  | some source =>
    cases source with
    | obj pairs =>
      cases hurl : Dict.get "repository_url" pairs with
      | none => exact ⟨fields, by simp [scrubRecord, hsource, hurl], hsame (by simp [hsource, scrubSource, hurl])⟩
      | some url =>
        refine ⟨_, by simp only [scrubRecord, hsource, hurl]; rfl, ?_⟩
        intro key
        rw [Dict.get_set]
        by_cases hkey : key = "source"
        · simp [hkey, hsource, scrubSource, hurl]
        · have hne : ¬ "source" = key := fun heq => hkey heq.symm
          simp [hkey, hne]
    | _ => exact ⟨fields, by simp [scrubRecord, hsource], hsame (by simp [hsource, scrubSource])⟩

/-- Cleaning the sources leaves the other fields. -/
theorem field_scrub (urlsplit : String → Option UrlParts) (modules : Records) (id key : String) :
    field (modules.map fun p => (p.1, scrubRecord urlsplit p.2)) id key =
      if key = "source" then (field modules id key).map (scrubSource urlsplit) else field modules id key := by
  have hget := Dict.get_mapValues (scrubRecord urlsplit) id modules
  unfold Dict.mapValues at hget
  unfold field record
  rw [hget]
  cases Dict.get id modules with
  | none => simp [Except.toOption]
  | some j =>
    cases j with
    | obj fields =>
      obtain ⟨fields', heq, hnil, _⟩ := get_scrubRecord urlsplit fields
      obtain ⟨fields'', heq', hkeys⟩ := get_scrub urlsplit fields
      obtain rfl : fields' = fields'' := Json.obj.inj (heq.symm.trans heq')
      simp only [Option.map_some, heq, Json.truthy]
      by_cases hempty : fields = []
      · simp [hempty, hnil.2 hempty, Except.toOption]
      · have hne : fields' ≠ [] := fun h => hempty (hnil.1 h)
        simp [hempty, hne, Except.toOption, hkeys]
    | null => simp [scrubRecord, Json.truthy, Except.toOption]
    | bool b => cases b <;> simp [scrubRecord, Json.truthy, Except.toOption]
    | num n => by_cases h : n = 0 <;> simp [scrubRecord, Json.truthy, Except.toOption, h]
    | str t => by_cases h : t = "" <;> simp [scrubRecord, Json.truthy, Except.toOption, h]
    | arr xs => cases xs <;> simp [scrubRecord, Json.truthy, Except.toOption]

/-! ## The modules that are on -/

/-- The module is on in a state file, as `load_module_state` reads it. -/
def SwitchedOn (file : StateFile) (id : String) : Prop := enabledIn (readModules file) id = some true

/-- After a write a module is on when it is on in the records that were written. -/
theorem switchedOn_mutate {α : Type} {urlsplit : String → Option UrlParts} {fault : Option String}
    {callback : Records → Except String (α × Records)} {file file' : StateFile} {answer : α}
    (h : mutateModuleState urlsplit fault callback file = (.ok answer, file')) :
    ∃ modules, callback (readModules file) = .ok (answer, modules) ∧ ∀ id, SwitchedOn file' id ↔ enabledIn modules id = some true := by
  obtain ⟨s, modules, s', hs, hcallback, _, hs', _, hmodules, _⟩ := mutate_ok h
  refine ⟨modules, by simpa [readModules, hs] using hcallback, ?_⟩
  intro id
  unfold SwitchedOn readModules
  rw [hs']
  dsimp only
  rw [hmodules, enabledIn_scrub]

/-- What `apply_install_prepare_disable` switched off was on, and nothing was switched on. -/
theorem prepareDisable_ok {manifests : Manifests} {replaced : String} {confirmed order : List String}
    {modules modules' : Records}
    {disabled : Bool} (h : applyInstallPrepareDisable manifests replaced confirmed order modules = .ok (disabled, modules')) :
    (disabled = true → enabledIn modules replaced = some true) ∧
      ∀ id, enabledIn modules' id = some true → enabledIn modules id = some true := by
  obtain ⟨model, hmodel, h⟩ := bind_ok h
  split at h
  · cases h
    exact ⟨nofun, fun _ hon => hon⟩
  · rename_i target htarget
    split at h
    · cases h
      exact ⟨nofun, fun _ hon => hon⟩
    · rename_i hguard
      obtain ⟨_, _, h⟩ := bind_ok h
      obtain ⟨written, hwritten, h⟩ := bind_ok h
      cases h
      constructor
      · intro _
        cases hget : Dict.get replaced manifests with
        | none =>
          have hread := get_replacementModel_none hmodel hget
          rw [hread] at htarget
          cases htarget
        | some node =>
          obtain ⟨enabled, henabled, hread⟩ := get_replacementModel hmodel hget
          rw [htarget] at hread
          cases hread
          simp only [Bool.or_eq_true, Bool.not_eq_true', not_or, Bool.not_eq_false] at hguard
          rw [henabled]
          exact congrArg some hguard.1.2
      · intro id hon
        rw [enabledIn_setFlags hwritten] at hon
        split at hon
        · cases hon
        · exact hon

/-- What `verify_install_disables` answers is on. -/
theorem verifyInstallDisables_on {development : Bool} {manifests : Manifests} (htrusted : manifests.Trusted) {modules : Records}
    {disables : List String} (h : verifyInstallDisables development manifests job preInstalled modules = .ok disables) {id : String}
    (hid : id ∈ disables) : enabledIn modules id = some true := by
  obtain ⟨model, hmodel, h⟩ := bind_ok h
  obtain ⟨names, hnames, h⟩ := bind_ok h
  obtain ⟨_, _, h⟩ := bind_ok h
  cases h
  have hflat : id ∈ names.flatten := by
    unfold sortedIds at hid
    simpa using hid
  obtain ⟨some_, hsome, hmem⟩ := List.mem_flatten.1 hflat
  obtain ⟨one, _, hone⟩ := mem_of_mapM_ok hnames hsome
  unfold verifyOne at hone
  split at hone
  · cases hone
    cases hmem
  · rename_i node _
    split at hone
    · cases hone
      cases hmem
    · dsimp only at hone
      split at hone
      · cases hone
      · cases hone
        unfold hypotheticalDisableUnless hypotheticalDisable at hmem
        cases htarget : Dict.get node.replaces model with
        | none => simp [htarget] at hmem
        | some target =>
          simp only [htarget] at hmem
          split at hmem
          · cases hmem
          · split at hmem
            · cases hmem
            · rename_i hguard
              simp only [Bool.or_eq_true, Bool.not_eq_true', not_or, Bool.not_eq_false] at hguard
              cases hget : Dict.get node.replaces manifests with
              | none =>
                rw [get_replacementModel_none hmodel hget] at htarget
                cases htarget
              | some manifest =>
                obtain ⟨enabled, henabled, hread⟩ := get_replacementModel hmodel hget
                rw [htarget] at hread
                cases hread
                have hown : manifest.id = node.replaces := htrusted.ids _ (Dict.mem_of_get hget)
                have heq : id = node.replaces := (List.mem_singleton.1 hmem).trans hown
                rw [heq, henabled]
                exact congrArg some hguard.2

/-! ## The installs -/

/-- While the packages are installed the backup stays, no module is switched on, and what the job switched off was on. -/
structure Installing (disk : Disk C) (job : InstallJob) (b : Backup C) (w : Work C) : Prop where
  backup : w.backup = b
  backupIds : w.backupIds = job.order
  disables : w.disables = []
  off : ∀ id, SwitchedOn w.state id → SwitchedOn disk.state id
  named : ∀ id ∈ w.disabledByJob, SwitchedOn disk.state id

/-- The steps of the loop of `install_packages`. -/
theorem mem_installs {s : Step} (h : s ∈ job.order.flatMap (installPackage job)) :
    ∃ id ∈ job.order, s = .requirePackage id ∨ (∃ kind, job.renameFrom id ≠ "" ∧ s = .removeOld kind (job.renameFrom id)) ∨
      s = .prepare id ∨ s = .script id := by
  obtain ⟨id, hid, hs⟩ := List.mem_flatMap.1 h
  refine ⟨id, hid, ?_⟩
  unfold installPackage at hs
  simp only [List.mem_append, List.mem_cons, List.not_mem_nil, or_false] at hs
  rcases hs with (hs | hs) | hs | hs
  · exact Or.inl hs
  · split at hs
    · rename_i hne
      simp only [List.mem_cons, List.not_mem_nil, or_false] at hs
      rcases hs with hs | hs
      · exact Or.inr (Or.inl ⟨_, hne, hs⟩)
      · exact Or.inr (Or.inl ⟨_, hne, hs⟩)
    · cases hs
  · exact Or.inr (Or.inr (Or.inl hs))
  · exact Or.inr (Or.inr (Or.inr hs))

/-- What `prepare_install` does: nothing, or one write that may switch the replaced module off. -/
theorem prepareInstall_ok {id : String} (h : prepareInstall out job preInstalled id w = .ok w') :
    w' = w ∨ ∃ replaced disabled file,
      mutateModuleState out.urlsplit none
        (applyInstallPrepareDisable (out.readInstalledManifests w.tree) replaced job.confirmed job.order) w.state = (.ok disabled, file) ∧
      w' = { w with
        state := file
        disabledByJob := if disabled && decide (replaced ∉ w.disabledByJob) then w.disabledByJob ++ [replaced] else w.disabledByJob } := by
  unfold prepareInstall at h
  split at h
  · cases h
    exact Or.inl rfl
  · split at h
    · cases h
    · rename_i replaced _
      split at h
      · cases h
        exact Or.inl rfl
      · split at h
        · rename_i disabled file hwrite
          cases h
          exact Or.inr ⟨replaced, disabled, file, hwrite, rfl⟩
        · cases h

/-- A step of the loop that goes through keeps it. -/
theorem installing_step {disk : Disk C} {b : Backup C} {s : Step} (hs : s ∈ job.order.flatMap (installPackage job))
    (hw : Installing disk job b w) (h : Step.run out job preInstalled s w = .ok w') : Installing disk job b w' := by
  obtain ⟨id, _, rfl | ⟨kind, _, rfl⟩ | rfl | rfl⟩ := mem_installs hs
  · cases h
    exact hw
  · cases h
    exact { hw with }
  · rcases prepareInstall_ok h with rfl | ⟨replaced, disabled, file, hwrite, rfl⟩
    · exact hw
    · obtain ⟨modules, hcallback, hon⟩ := switchedOn_mutate hwrite
      obtain ⟨hreplaced, hoff⟩ := prepareDisable_ok hcallback
      refine { hw with off := fun id hid => hw.off id (hoff id ((hon id).1 hid)), named := ?_ }
      intro id hid
      dsimp only at hid
      split at hid
      · rename_i hdisabled
        rcases List.mem_append.1 hid with hid | hid
        · exact hw.named id hid
        · rw [List.mem_singleton.1 hid]
          simp only [Bool.and_eq_true] at hdisabled
          exact hw.off replaced (hreplaced hdisabled.1)
      · exact hw.named id hid
  · cases h
    exact { hw with }

/-- A step of the loop that raises keeps it. -/
theorem installing_leaves {disk : Disk C} {b : Backup C} {s : Step} (hs : s ∈ job.order.flatMap (installPackage job))
    (hw : Installing disk job b w) (h : Step.Leaves out job preInstalled s w w') : Installing disk job b w' := by
  obtain ⟨id, _, rfl | ⟨kind, _, rfl⟩ | rfl | rfl⟩ := mem_installs hs
  · obtain rfl := h
    exact hw
  · obtain ⟨left, _, rfl⟩ := h
    exact { hw with }
  · rcases h with rfl | ⟨replaced, s, modules, _, _, hload, hcallback, _, rfl⟩
    · exact hw
    · have hread : readModules w.state = s.modules := by simp [readModules, hload]
      have hon : SwitchedOn w.state replaced := by
        unfold SwitchedOn
        rw [hread]
        exact (prepareDisable_ok hcallback).1 rfl
      refine { hw with named := ?_ }
      intro id hid
      rcases List.mem_append.1 hid with hid | hid
      · exact hw.named id hid
      · rw [List.mem_singleton.1 hid]
        exact hw.off replaced hon
  · obtain ⟨ext, rep, rfl⟩ := h
    exact { hw with }

/-- The loop leaves the folders of a module outside the job, except those that it removes for a rename. -/
theorem installs_tree {steps : List Step} (hsteps : ∀ s ∈ steps, s ∈ job.order.flatMap (installPackage job)) {w w' : Work C}
    (h : Steps.runAll (Step.run out job preInstalled) steps w = .ok w') (kind : Kind) {old : String} (hold : old ∉ job.order) :
    w'.tree kind old = if .removeOld kind old ∈ steps then none else w.tree kind old := by
  induction steps generalizing w with
  | nil =>
    cases h
    rfl
  | cons s steps ih =>
    obtain ⟨middle, hs, hrest⟩ := bind_ok (f := fun w => Steps.runAll (Step.run out job preInstalled) steps w) h
    rw [ih (fun s hs => hsteps s (List.mem_cons_of_mem _ hs)) hrest]
    obtain ⟨id, hid, hcase⟩ := mem_installs (hsteps s List.mem_cons_self)
    have hne : old ≠ id := fun heq => hold (heq ▸ hid)
    rcases hcase with rfl | ⟨kind', _, rfl⟩ | rfl | rfl
    · cases hs
      simp
    · cases hs
      by_cases heq : Step.removeOld kind old = .removeOld kind' (job.renameFrom id)
      · obtain ⟨hkind, hsource⟩ := Step.removeOld.inj heq
        simp [Tree.set_apply, hkind, hsource]
      · have hother : ¬ (kind = kind' ∧ old = job.renameFrom id) := by
          rintro ⟨rfl, rfl⟩
          exact heq rfl
        simp [Tree.set_apply, heq, hother]
    · rcases prepareInstall_ok hs with rfl | ⟨_, _, _, _, rfl⟩
      · simp
      · simp
    · cases hs
      simp [Tree.set_apply, hne]

/-! ## The end of the job -/

/-- When the packages are installed the backup stays, and what the job switched off or is to switch off was on. -/
structure Finishing (disk : Disk C) (job : InstallJob) (b : Backup C) (w : Work C) : Prop where
  backup : w.backup = b
  backupIds : w.backupIds = job.backupIds
  named : ∀ id ∈ w.disabledByJob, SwitchedOn disk.state id
  planned : ∀ id ∈ w.disables, SwitchedOn disk.state id

/-- A write changes the state only. -/
theorem Work.write_ok {callback : Records → Except String Records} (h : w.write out callback = .ok w') :
    ∃ file, w' = { w with state := file } := by
  unfold Work.write at h
  split at h
  · rename_i file _
    cases h
    exact ⟨file, rfl⟩
  · cases h

/-- The steps after `verify_install_disables`. -/
def Step.late : Step → Bool
  | .verifyCategories | .migrateIdentity _ | .migrateState _ | .remember _ | .disableLater | .runtimeSync | .syncServerActions _ _
  | .cleanup => true
  | _ => false

/-- A late step that goes through keeps it. -/
theorem finishing_step {disk : Disk C} {b : Backup C} {s : Step} (hs : s.late = true) (hw : Finishing disk job b w)
    (h : Step.run out job preInstalled s w = .ok w') : Finishing disk job b w' := by
  cases s with
  | verifyCategories =>
    obtain ⟨categories, _, h⟩ := bind_ok h
    cases h
    exact { hw with }
  | migrateState a =>
    obtain ⟨file, rfl⟩ := Work.write_ok h
    exact { hw with }
  | remember a =>
    obtain ⟨file, rfl⟩ := Work.write_ok h
    exact { hw with }
  | disableLater =>
    simp only [Step.run] at h
    split at h
    · cases h
      exact hw
    · obtain ⟨written, hwritten, h⟩ := bind_ok h
      obtain ⟨file, rfl⟩ := Work.write_ok hwritten
      cases h
      refine { hw with named := ?_ }
      intro id hid
      rcases List.mem_append.1 hid with hid | hid
      · exact hw.named id hid
      · exact hw.planned id (List.mem_filter.1 hid).1
  | migrateIdentity a | runtimeSync | syncServerActions id remove | cleanup =>
    cases h
    exact hw
  | _ => cases hs

/-- A late step that raises leaves the work. -/
theorem leaves_late {s : Step} (hs : s.late = true) (h : Step.Leaves out job preInstalled s w w') : w' = w := by
  cases s with
  | verifyCategories | migrateState a | remember a | disableLater | migrateIdentity a | runtimeSync | syncServerActions id remove
  | cleanup => exact h
  | _ => cases hs

/-- The end of the job is the check of the disables and then late steps. -/
theorem finishInstall_eq (job : InstallJob) :
    ∃ late, finishInstall job = .verifyDisables :: late ∧ ∀ s ∈ late, s.late = true := by
  refine ⟨(finishInstall job).tail, rfl, ?_⟩
  intro s hs
  unfold finishInstall at hs
  simp only [List.cons_append, List.nil_append, List.tail_cons, List.append_assoc, List.mem_append, List.mem_cons,
    List.mem_flatMap, List.mem_map, List.not_mem_nil, or_false] at hs
  rcases hs with rfl | ⟨a, _, ha⟩ | rfl | rfl | ⟨a, _, rfl⟩ | ⟨id, _, rfl⟩ | rfl
  · rfl
  · split at ha
    · simp only [List.mem_cons, List.not_mem_nil, or_false] at ha
      rcases ha with rfl | rfl | rfl
      · rfl
      · rfl
      · rfl
    · rw [List.mem_singleton.1 ha]
      rfl
  · rfl
  · rfl
  · rfl
  · rfl
  · rfl

end Helper

end TecTac
