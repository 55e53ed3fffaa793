import TecTac.Lemmas.InstallJob

/-!
# A failed install leaves the modules

When the install branch raises, the rollback puts the folders and the state back from the backup. It removes before it
restores, from a list of modules and a backup that may not be there yet. The theorem says for every step at which the
branch can raise when the modules are as they were.
-/

namespace TecTac

open Raise

namespace Helper

variable {C : Type}

/-- The state file holds what it held: the same, or the same keys and records with some flags written out, each as it was
read before. -/
def StateKept (pre post : StateFile) : Prop :=
  post = pre ∨ ∃ s s' : State, loadModuleState pre = .ok s ∧ post = .json (.obj s') ∧
    (∀ key, key ≠ "modules" → Dict.get key s' = Dict.get key s) ∧
    ∀ id, enabledIn s'.modules id = enabledIn s.modules id ∧
      ∀ key, key ≠ "enabled" → field s'.modules id key = field s.modules id key

/-- The folders of the modules of the job and of every module it renames are as they were, and so is the state. -/
structure ModulesKept (job : InstallJob) (pre post : Disk C) : Prop where
  folders : ∀ id, id ∈ job.order ∨ (id ≠ "" ∧ ∃ new ∈ job.order, job.renameFrom new = id) →
    ∀ kind, post.tree kind id = pre.tree kind id
  state : StateKept pre.state post.state

/-- No stored source has a URL that the writer of the state would change. -/
def SourcesClean (urlsplit : String → Option UrlParts) (file : StateFile) : Prop :=
  ∀ s : State, loadModuleState file = .ok s → ∀ id source, field s.modules id "source" = some source →
    scrubSource urlsplit source = source

/-- When the rollback can put everything back. Before `contents.json` is written there must be nothing to lose; a copy of the
state that was not finished must hold the state; while the packages are installed no module outside the order may have lost
a folder to a rename; and when a module is switched back on, the stored sources must be clean. -/
def Recoverable (out : Outside C) (fault : Option String) (job : InstallJob) (disk : Disk C) (before : List Step)
    (failing : Step)
    (w : Work C) : Prop :=
  if .writeContents ∉ before then (∀ id ∈ job.order, ∀ kind, disk.tree kind id = none) ∧ disk.state = .absent
  else if .copyState ∉ before then StateKept disk.state w.backup.state
  else
    (.returned ∈ before ∨ ∀ kind old, old ∉ job.order →
      (.removeOld kind old ∈ before → disk.tree kind old = none) ∧
        (failing = .removeOld kind old → w.tree kind old = disk.tree kind old)) ∧
    (w.disabledByJob = [] ∨ (setEnabled out.urlsplit fault w.disabledByJob true disk.state).1.isOk = false ∨
      SourcesClean out.urlsplit disk.state)

namespace FailedInstallAux

variable {out : Outside C} {fault : Option String} {job : InstallJob} {disk : Disk C} {w : Work C}

/-! ## The state -/

theorem stateKept_refl (file : StateFile) : StateKept file file := Or.inl rfl

/-- A state file that was removed holds what it held only when there was none. -/
theorem stateKept_absent (file : StateFile) : StateKept file .absent ↔ file = .absent := by
  constructor
  · rintro (heq | ⟨_, _, _, heq, _⟩)
    · exact heq.symm
    · cases heq
  · rintro rfl
    exact stateKept_refl _

/-- Switching modules on that were on keeps the state when the stored sources are clean, and only then. -/
theorem stateKept_setEnabled {urlsplit : String → Option UrlParts} {ids : List String} {file file' : StateFile}
    (hon : ∀ id ∈ ids, SwitchedOn file id) (h : setEnabled urlsplit fault ids true file = (.ok (), file')) :
    StateKept file file' ↔ SourcesClean urlsplit file := by
  obtain ⟨s, modules, s', hs, hcallback, hfile', hs', hkeys, hmodules, _⟩ := mutate_ok h
  have hflags : setFlags true ids s.modules = .ok modules := by
    cases hset : setFlags true ids s.modules with
    | error e => simp [hset, Except.map] at hcallback
    | ok written =>
      simp only [hset, Except.map, Except.ok.injEq, Prod.mk.injEq, true_and] at hcallback
      rw [hcallback]
  have hfield : ∀ id key, key ≠ "enabled" → field s'.modules id key =
      if key = "source" then (field s.modules id key).map (scrubSource urlsplit) else field s.modules id key := by
    intro id key hkey
    rw [hmodules, field_scrub, field_setFlags hflags id hkey]
  constructor
  · intro hkept t ht id source hsource
    obtain rfl : s = t := Except.ok.inj (hs.symm.trans ht)
    have hsame : field s'.modules id "source" = field s.modules id "source" := by
      rcases hkept with rfl | ⟨s₁, s₂, hs₁, heq, _, hrecords⟩
      · obtain rfl : s' = s := Except.ok.inj (hs'.symm.trans hs)
        rfl
      · obtain rfl : s₁ = s := Except.ok.inj (hs₁.symm.trans hs)
        obtain rfl : s' = s₂ := Json.obj.inj (StateFile.json.inj (hfile'.symm.trans heq))
        exact (hrecords id).2 "source" (by decide)
    rw [hfield id "source" (by decide), if_pos rfl, hsource] at hsame
    exact Option.some.inj hsame
  · intro hclean
    refine Or.inr ⟨s, s', hs, hfile', hkeys, ?_⟩
    intro id
    constructor
    · rw [hmodules, enabledIn_scrub, enabledIn_setFlags hflags]
      split
      · rename_i hid
        have honid := hon id hid
        unfold SwitchedOn readModules at honid
        rw [hs] at honid
        exact honid.symm
      · rfl
    · intro key hkey
      rw [hfield id key hkey]
      split
      · rename_i hsource
        cases hget : field s.modules id key with
        | none => rfl
        | some source =>
          rw [hsource] at hget
          exact congrArg some (hclean s hs id source hget)
      · rfl

/-- The rollback from a copy of the whole state keeps it unless switching a module back on cleans a stored source. -/
theorem stateKept_rollback (out : Outside C) (fault : Option String) (hstate : w.backup.state = disk.state)
    (hnamed : ∀ id ∈ w.disabledByJob, SwitchedOn disk.state id) :
    StateKept disk.state (rollback out fault w).state ↔
      w.disabledByJob = [] ∨ (setEnabled out.urlsplit fault w.disabledByJob true disk.state).1.isOk = false ∨
        SourcesClean out.urlsplit disk.state := by
  by_cases hnone : w.disabledByJob = []
  · have hroll : (rollback out fault w).state = disk.state := by simp [rollback, hnone, restoreModules, hstate]
    rw [hroll]
    exact ⟨fun _ => Or.inl hnone, fun _ => stateKept_refl _⟩
  · have hroll : (rollback out fault w).state = (setEnabled out.urlsplit fault w.disabledByJob true disk.state).2 := by
      simp [rollback, hnone, restoreModules, hstate]
    rw [hroll]
    cases hwrite : setEnabled out.urlsplit fault w.disabledByJob true disk.state with
    | mk answer file =>
      cases answer with
      | ok u =>
        have hiff := stateKept_setEnabled hnamed hwrite
        simp [hiff, hnone, Except.isOk, Except.toBool]
      | error e =>
        have hsame : file = disk.state := by
          unfold setEnabled mutateModuleState at hwrite
          dsimp only at hwrite
          split at hwrite
          · cases hwrite
          · cases hwrite
            rfl
        simp [hsame, Except.isOk, Except.toBool, stateKept_refl]

/-! ## The folders -/

/-- A folder after the rollback. -/
theorem rollback_tree (kind : Kind) (id : String) :
    (rollback out fault w).tree kind id = if id ∈ w.backupIds then w.backup.restored kind id else w.tree kind id := by
  have htree := restoreModules_tree w.backupIds w.backup ⟨w.tree, w.state⟩ kind id
  unfold rollback
  dsimp only
  split
  · exact htree
  · exact htree

/-- The backup holds the folders of all its modules, and the state. -/
structure BackedUp (disk : Disk C) (job : InstallJob) (b : Backup C) : Prop where
  restored : ∀ id ∈ job.backupIds, ∀ kind, b.restored kind id = disk.tree kind id
  state : b.state = disk.state

theorem mem_backupIds_of_order {id : String} (h : id ∈ job.order) : id ∈ job.backupIds := (mem_backupIds job id).2 (Or.inl h)

/-! ## The four parts of the branch -/

/-- The steps up to the copies. -/
def copySteps (job : InstallJob) : List Step :=
  .requireInstaller :: job.backupIds.flatMap fun id => [.copyFolder .extensions id, .copyFolder .reportsets id]

theorem installBranch_eq (job : InstallJob) : installBranch job =
    copySteps job ++ ([Step.writeContents] ++ ([Step.copyState] ++ (job.order.flatMap (installPackage job) ++ ([Step.returned] ++ finishInstall job)))) := by
  simp [installBranch, installPackages, backupModules, copySteps]

theorem mem_copySteps {s : Step} (h : s ∈ copySteps job) : s = .requireInstaller ∨ ∃ kind id, s = .copyFolder kind id := by
  rcases List.mem_cons.1 h with rfl | h
  · exact Or.inl rfl
  · obtain ⟨id, _, hs⟩ := List.mem_flatMap.1 h
    simp only [List.mem_cons, List.not_mem_nil, or_false] at hs
    rcases hs with rfl | rfl
    · exact Or.inr ⟨_, id, rfl⟩
    · exact Or.inr ⟨_, id, rfl⟩

/-- What the work is while the folders are copied, also when a copy raises. -/
structure Untouched (disk : Disk C) (job : InstallJob) (w : Work C) : Prop where
  tree : w.tree = disk.tree
  backupIds : w.backupIds = job.order
  disabled : w.disabledByJob = []
  contents : w.backup.contents = none
  copiedState : w.backup.state = .absent

/-- When `contents.json` is not written, the rollback removes the folders of the job and the state. -/
theorem kept_without_contents (hw : Untouched disk job w) :
    ModulesKept job disk (rollback out fault w) ↔ (∀ id ∈ job.order, ∀ kind, disk.tree kind id = none) ∧ disk.state = .absent := by
  have hstate : (rollback out fault w).state = .absent := by simp [rollback, hw.disabled, restoreModules, hw.copiedState]
  have htree : ∀ kind id, (rollback out fault w).tree kind id = if id ∈ job.order then none else disk.tree kind id := by
    intro kind id
    rw [rollback_tree, hw.backupIds, hw.tree]
    simp [Backup.restored, hw.contents]
  constructor
  · rintro ⟨hfolders, hkept⟩
    refine ⟨?_, ?_⟩
    · intro id hid kind
      have hsame := hfolders id (Or.inl hid) kind
      rw [htree, if_pos hid] at hsame
      exact hsame.symm
    · rw [hstate] at hkept
      exact (stateKept_absent _).1 hkept
  · rintro ⟨hnone, habsent⟩
    refine ⟨?_, ?_⟩
    · intro id _ kind
      rw [htree]
      split
      · rename_i hid
        exact (hnone id hid kind).symm
      · rfl
    · rw [hstate, habsent]
      exact stateKept_refl _

/-- When only the copy of the state is missing, the rollback puts the folders back and what was copied of the state. -/
theorem kept_without_state (htree : w.tree = disk.tree) (hids : w.backupIds = job.order) (hdisabled : w.disabledByJob = [])
    (hrestored : ∀ id ∈ job.order, ∀ kind, w.backup.restored kind id = disk.tree kind id) :
    ModulesKept job disk (rollback out fault w) ↔ StateKept disk.state w.backup.state := by
  have hstate : (rollback out fault w).state = w.backup.state := by simp [rollback, hdisabled, restoreModules]
  constructor
  · intro hkept
    exact hstate ▸ hkept.state
  · intro hkept
    refine ⟨?_, hstate.symm ▸ hkept⟩
    intro id _ kind
    rw [rollback_tree, hids, htree]
    split
    · rename_i hid
      exact hrestored id hid kind
    · rfl

/-- While the packages are installed, the rollback puts back what the backup holds of the modules of the order. -/
theorem kept_while_installing {b : Backup C} (hb : BackedUp disk job b) (hw : Installing disk job b w) :
    ModulesKept job disk (rollback out fault w) ↔
      (∀ new ∈ job.order, job.renameFrom new ≠ "" → job.renameFrom new ∉ job.order →
        ∀ kind, w.tree kind (job.renameFrom new) = disk.tree kind (job.renameFrom new)) ∧
      (w.disabledByJob = [] ∨ (setEnabled out.urlsplit fault w.disabledByJob true disk.state).1.isOk = false ∨
        SourcesClean out.urlsplit disk.state) := by
  have hstate := stateKept_rollback out fault (hw.backup ▸ hb.state) hw.named
  have htree : ∀ kind id, (rollback out fault w).tree kind id =
      if id ∈ job.order then disk.tree kind id else w.tree kind id := by
    intro kind id
    rw [rollback_tree, hw.backupIds, hw.backup]
    split
    · rename_i hid
      exact hb.restored id (mem_backupIds_of_order hid) kind
    · rfl
  constructor
  · rintro ⟨hfolders, hkept⟩
    refine ⟨?_, hstate.1 hkept⟩
    intro new hnew hne hout kind
    have hsame := hfolders _ (Or.inr ⟨hne, new, hnew, rfl⟩) kind
    rwa [htree, if_neg hout] at hsame
  · rintro ⟨hsources, hclean⟩
    refine ⟨?_, hstate.2 hclean⟩
    intro id hid kind
    rw [htree]
    split
    · rfl
    · rename_i hout
      rcases hid with hid | ⟨hne, new, hnew, rfl⟩
      · exact absurd hid hout
      · exact hsources new hnew hne hout kind

/-- When the packages are installed, the rollback puts back every folder. -/
theorem kept_while_finishing {b : Backup C} (hb : BackedUp disk job b) (hbackup : w.backup = b)
    (hids : w.backupIds = job.backupIds)
    (hnamed : ∀ id ∈ w.disabledByJob, SwitchedOn disk.state id) :
    ModulesKept job disk (rollback out fault w) ↔
      (w.disabledByJob = [] ∨ (setEnabled out.urlsplit fault w.disabledByJob true disk.state).1.isOk = false ∨
        SourcesClean out.urlsplit disk.state) := by
  have hstate := stateKept_rollback out fault (hbackup ▸ hb.state) hnamed
  constructor
  · intro hkept
    exact hstate.1 hkept.state
  · intro hclean
    refine ⟨?_, hstate.2 hclean⟩
    intro id hid kind
    have hmem : id ∈ job.backupIds := by
      rcases hid with hid | ⟨hne, new, _, rfl⟩
      · exact mem_backupIds_of_order hid
      · exact renameFrom_mem_backupIds hne
    rw [rollback_tree, hids, if_pos hmem, hbackup]
    exact hb.restored id hmem kind

variable {preInstalled : List String} {w' : Work C}

/-- A copy that raises leaves the tree and the state. -/
theorem untouched_of_leaves {s : Step} (hs : s ∈ copySteps job) (hw : Copying disk job w)
    (h : Step.Leaves out job preInstalled s w w') : Untouched disk job w' := by
  rcases mem_copySteps hs with rfl | ⟨kind, id, rfl⟩
  · obtain rfl := h
    exact ⟨hw.tree, hw.backupIds, hw.disabled, hw.contents, hw.copiedState⟩
  · obtain ⟨left, _, rfl⟩ := h
    exact ⟨hw.tree, hw.backupIds, hw.disabled, hw.contents, hw.copiedState⟩

/-- While the folders are copied nothing else happens. -/
theorem copying_step {s : Step} (hs : s ∈ copySteps job) (hw : Copying disk job w)
    (h : Step.run out job preInstalled s w = .ok w') : Copying disk job w' := by
  rcases mem_copySteps hs with rfl | ⟨kind, id, rfl⟩
  · cases h
    exact hw
  · exact (copyFolder_run hw h).1

/-- When the copies went through and `contents.json` is written, the folders can be put back. -/
theorem copied_all (h : Steps.runAll (Step.run out job preInstalled) (copySteps job) (startWork job disk) = .ok w) :
    Copying disk job w ∧ ∀ id ∈ job.backupIds, ∀ kind,
      ({ w.backup with contents := some w.records } : Backup C).restored kind id = disk.tree kind id := by
  obtain ⟨first, hfirst, hcopies⟩ := Steps.runAll_cons h
  cases hfirst
  obtain ⟨hw, hcopied, _⟩ := copyFolders_run job.backupIds (copying_start job disk) hcopies
  refine ⟨hw, ?_⟩
  intro id hid kind
  unfold Backup.restored
  dsimp only [Option.getD_some]
  split
  · exact hcopied id hid kind
  · rename_i hnot
    rw [hw.recorded, hcopied id hid kind] at hnot
    exact (Option.not_isSome_iff_eq_none.1 hnot).symm

/-- When the backup went through, everything can be put back, and the installs begin. -/
theorem installing_of_backup {copied written saved : Work C}
    (hcopied : Steps.runAll (Step.run out job preInstalled) (copySteps job) (startWork job disk) = .ok copied)
    (hwritten : Step.run out job preInstalled .writeContents copied = .ok written)
    (hsaved : Step.run out job preInstalled .copyState written = .ok saved) :
    saved.tree = disk.tree ∧ BackedUp disk job saved.backup ∧ Installing disk job saved.backup saved := by
  obtain ⟨hcopying, hrestored⟩ := copied_all hcopied
  cases hwritten
  cases hsaved
  refine ⟨hcopying.tree, ⟨hrestored, hcopying.state⟩, rfl, hcopying.backupIds, hcopying.disables, ?_, ?_⟩
  · intro id hid
    exact hcopying.state ▸ hid
  · intro id hid
    dsimp only at hid
    rw [hcopying.disabled] at hid
    cases hid

/-- A step of the loop that raises leaves the folders of a module outside the job, unless it was removing one. -/
theorem leaves_tree {s : Step} (hs : s ∈ job.order.flatMap (installPackage job)) (h : Step.Leaves out job preInstalled s w w')
    (kind : Kind) {old : String} (hold : old ∉ job.order) :
    (s ≠ .removeOld kind old → w'.tree kind old = w.tree kind old) ∧ (w.tree kind old = none → w'.tree kind old = none) := by
  obtain ⟨id, hid, hcase⟩ := mem_installs hs
  have hne : old ≠ id := fun heq => hold (heq ▸ hid)
  rcases hcase with rfl | ⟨kind', _, rfl⟩ | rfl | rfl
  · obtain rfl := h
    exact ⟨fun _ => rfl, fun hnone => hnone⟩
  · obtain ⟨left, hleft, rfl⟩ := h
    dsimp only
    rw [Tree.set_apply]
    by_cases heq : kind = kind' ∧ old = job.renameFrom id
    · obtain ⟨rfl, rfl⟩ := heq
      rw [if_pos ⟨rfl, rfl⟩]
      exact ⟨fun hother => absurd rfl hother, hleft⟩
    · rw [if_neg heq]
      exact ⟨fun _ => rfl, fun hnone => hnone⟩
  · rcases h with rfl | ⟨_, _, _, _, _, _, _, _, rfl⟩
    · exact ⟨fun _ => rfl, fun hnone => hnone⟩
    · exact ⟨fun _ => rfl, fun hnone => hnone⟩
  · obtain ⟨ext, rep, rfl⟩ := h
    simp [Tree.set_apply, hne]

/-- A removal of the loop is one of a module that is renamed. -/
theorem renamed_of_removeOld {kind : Kind} {old : String}
    (h : Step.removeOld kind old ∈ job.order.flatMap (installPackage job)) :
    ∃ new ∈ job.order, job.renameFrom new ≠ "" ∧ job.renameFrom new = old := by
  obtain ⟨id, hid, heq | ⟨kind', hne, heq⟩ | heq | heq⟩ := mem_installs h
  · cases heq
  · exact ⟨id, hid, hne, (Step.removeOld.inj heq).2.symm⟩
  · cases heq
  · cases heq

/-- No module outside the order has lost a folder to a rename, told by the steps. -/
theorem sources_stand_iff {before : List Step} {failing : Step} {start middle : Work C} (hstart : start.tree = disk.tree)
    (hbefore : ∀ s ∈ before, s ∈ job.order.flatMap (installPackage job)) (hfailing : failing ∈ job.order.flatMap (installPackage job))
    (hrun : Steps.runAll (Step.run out job preInstalled) before start = .ok middle)
    (hleft : Step.Leaves out job preInstalled failing middle w) :
    (∀ new ∈ job.order, job.renameFrom new ≠ "" → job.renameFrom new ∉ job.order →
        ∀ kind, w.tree kind (job.renameFrom new) = disk.tree kind (job.renameFrom new)) ↔
      ∀ kind old, old ∉ job.order → (.removeOld kind old ∈ before → disk.tree kind old = none) ∧
        (failing = .removeOld kind old → w.tree kind old = disk.tree kind old) := by
  constructor
  · intro hstand kind old hold
    have hmiddle := installs_tree hbefore hrun kind hold
    refine ⟨?_, ?_⟩
    · intro hremoved
      obtain ⟨new, hnew, hne, rfl⟩ := renamed_of_removeOld (hbefore _ hremoved)
      rw [if_pos hremoved] at hmiddle
      rw [← hstand new hnew hne hold kind]
      exact (leaves_tree hfailing hleft kind hold).2 hmiddle
    · rintro rfl
      obtain ⟨new, hnew, hne, rfl⟩ := renamed_of_removeOld hfailing
      exact hstand new hnew hne hold kind
  · intro hsteps new _ _ hold kind
    obtain ⟨hbeforeNone, hfailingSame⟩ := hsteps kind _ hold
    by_cases heq : failing = .removeOld kind (job.renameFrom new)
    · exact hfailingSame heq
    · rw [(leaves_tree hfailing hleft kind hold).1 heq, installs_tree hbefore hrun kind hold, hstart]
      split
      · rename_i hremoved
        exact (hbeforeNone hremoved).symm
      · rfl

/-- The copies hold none of the later steps. -/
theorem not_mem_copySteps {s : Step} (hinstaller : s ≠ .requireInstaller) (hcopy : ∀ kind id, s ≠ .copyFolder kind id) :
    s ∉ copySteps job := by
  intro hmem
  rcases mem_copySteps hmem with heq | ⟨kind, id, heq⟩
  · exact hinstaller heq
  · exact hcopy kind id heq

/-- The loop does not hand `backup_ids` on. -/
theorem returned_not_mem {steps : List Step} (h : ∀ s ∈ steps, s ∈ job.order.flatMap (installPackage job)) :
    .returned ∉ steps := by
  intro hmem
  obtain ⟨_, _, heq | ⟨_, _, heq⟩ | heq | heq⟩ := mem_installs (h _ hmem)
  · cases heq
  · cases heq
  · cases heq
  · cases heq

/-- What the job switched off was on, wherever its end raises. -/
theorem named_of_finish {b : Backup C} {before : List Step} {failing : Step} {start : Work C}
    (htrusted : ∀ tree, (out.readInstalledManifests tree).Trusted) (hstart : Finishing disk job b start)
    (hoff : ∀ id, SwitchedOn start.state id → SwitchedOn disk.state id)
    (h : Steps.StopsAt (Step.run out job preInstalled) (Step.Leaves out job preInstalled) (finishInstall job) start before failing w) :
    Finishing disk job b w := by
  obtain ⟨late, hfinish, hlate⟩ := finishInstall_eq job
  rw [hfinish] at h
  rcases h.in_head with ⟨_, hleft⟩ | ⟨verified, before', hverified, hrest⟩
  · obtain rfl := hleft
    exact hstart
  · have hfinishing : Finishing disk job b verified := by
      obtain ⟨disables, hdisables, hv⟩ := bind_ok hverified
      cases hv
      exact { hstart with planned := fun id hid => hoff id (verifyInstallDisables_on (htrusted _) hdisables hid) }
    obtain ⟨middle, hrun, hleft⟩ := hrest.left_by
    have hmiddle := Steps.runAll_keeps (fun s hs w w' => finishing_step (hlate s (hrest.before_mem s hs))) hrun hfinishing
    obtain rfl := leaves_late (hlate _ hrest.failing_mem) hleft
    exact hmiddle

end FailedInstallAux

open FailedInstallAux in
/-- At whatever step the install branch raises, the rollback leaves the folders and the state as they were exactly when they
are recoverable there. -/
theorem failed_install_keeps_modules_iff (out : Outside C) (htrusted : ∀ tree, (out.readInstalledManifests tree).Trusted)
    (fault : Option String) (job : InstallJob) (disk : Disk C) (before : List Step) (failing : Step) (w : Work C)
    (h : FailsAt out job disk before failing w) :
    ModulesKept job disk (rollback out fault w) ↔ Recoverable out fault job disk before failing w := by
  unfold FailsAt at h
  dsimp only at h
  rw [installBranch_eq] at h
  have hcontents : Step.writeContents ∉ copySteps job := not_mem_copySteps nofun nofun
  have hcopyState : Step.copyState ∉ copySteps job := not_mem_copySteps nofun nofun
  have hreturned : Step.returned ∉ copySteps job := not_mem_copySteps nofun nofun
  have hremoved : ∀ kind old, Step.removeOld kind old ∉ copySteps job := fun kind old => not_mem_copySteps nofun nofun
  rcases h.in_part with hcopy | ⟨copied, before₁, hcopied, rfl, h₁⟩
  · -- the installer was refused, or a copy raised
    obtain ⟨middle, hrun, hleft⟩ := hcopy.left_by
    have hmiddle := Steps.runAll_keeps (fun s hs w w' => copying_step (hcopy.before_mem s hs)) hrun (copying_start job disk)
    rw [Recoverable, if_pos (fun hmem => hcontents (hcopy.before_mem _ hmem))]
    exact kept_without_contents (untouched_of_leaves hcopy.failing_mem hmiddle hleft)
  obtain ⟨hcopying, hrestored⟩ := copied_all hcopied
  rcases h₁.in_part with hwrite | ⟨written, before₂, hwritten, rfl, h₂⟩
  · -- `contents.json` could not be written
    obtain ⟨rfl, rfl, hleft⟩ := hwrite.singleton
    obtain rfl := hleft
    rw [Recoverable, if_pos (by simpa using hcontents)]
    exact kept_without_contents
      ⟨hcopying.tree, hcopying.backupIds, hcopying.disabled, hcopying.contents, hcopying.copiedState⟩
  have hwritten := Steps.runAll_singleton hwritten
  rcases h₂.in_part with hstate | ⟨saved, before₃, hsaved, rfl, h₃⟩
  · -- the state could not be copied
    obtain ⟨rfl, rfl, left, _, rfl⟩ := hstate.singleton
    cases hwritten
    rw [Recoverable, if_neg (by simp), if_pos (by simpa using hcopyState)]
    exact kept_without_state hcopying.tree hcopying.backupIds hcopying.disabled
      (fun id hid kind => hrestored id (mem_backupIds_of_order hid) kind)
  obtain ⟨htree, hb, hinstalling⟩ := installing_of_backup hcopied hwritten (Steps.runAll_singleton hsaved)
  rw [Recoverable, if_neg (by simp), if_neg (by simp)]
  rcases h₃.in_part with hloop | ⟨installed, before₄, hinstalled, rfl, h₄⟩
  · -- a package could not be installed
    obtain ⟨middle, hrun, hleft⟩ := hloop.left_by
    have hmiddle := Steps.runAll_keeps (fun s hs w w' => installing_step (hloop.before_mem s hs)) hrun hinstalling
    have hw := installing_leaves hloop.failing_mem hmiddle hleft
    rw [kept_while_installing hb hw, sources_stand_iff htree hloop.before_mem hloop.failing_mem hrun hleft]
    simp [hreturned, hremoved, returned_not_mem hloop.before_mem]
  · rcases h₄.in_part with hreturn | ⟨after, before₅, hafter, rfl, h₅⟩
    · obtain ⟨_, _, hleft⟩ := hreturn.singleton
      cases hleft
    · -- the packages were installed and the rest raised
      have hinstalled' := Steps.runAll_keeps (fun s hs w w' => installing_step hs) hinstalled hinstalling
      cases Steps.runAll_singleton hafter
      have hplanned : ∀ id ∈ installed.disables, SwitchedOn disk.state id := by
        intro id hid
        rw [hinstalled'.disables] at hid
        cases hid
      have hfinishing : Finishing disk job saved.backup { installed with backupIds := job.backupIds } :=
        ⟨hinstalled'.backup, rfl, hinstalled'.named, hplanned⟩
      have hw := named_of_finish htrusted hfinishing hinstalled'.off h₅
      rw [kept_while_finishing hb hw.backup hw.backupIds hw.named]
      simp

/-! ## An upgrade that fails -/

/-- A job that upgrades one installed module. -/
def upgradeJob : InstallJob where
  order := ["probe"]
  actions := [⟨"probe", "2.0.0", .replace, ""⟩]
  sources := []
  confirmed := []
  order_nodup := by decide
  actions_nodup := by decide
  mem_actions := by simp

/-- The module is installed with one folder, and its record names its version. -/
def upgradeDisk : Disk String where
  tree := fun kind id => if kind = .extensions ∧ id = "probe" then some "probe 1.0.0" else none
  state := .json (.obj [("schema", .num 1), ("modules", .obj [("probe", .obj [("version", .str "1.0.0")])])])

/-- A server with this module: the script puts the new version there. -/
def upgradeOutside : Outside String where
  urlsplit := fun _ => none
  development := false
  now := "2026-01-01T00:00:00Z"
  readInstalledManifests := fun tree => if (tree .extensions "probe").isSome then [("probe", ⟨"probe", .premium, "", none⟩)] else []
  packageReplaces := fun _ => .ok ""
  installs := fun _ _ _ kind => if kind = .extensions then some "probe 2.0.0" else none

theorem upgradeOutside_trusted (tree : Tree String) : (upgradeOutside.readInstalledManifests tree).Trusted := by
  unfold upgradeOutside
  dsimp only
  split
  · refine ⟨by simp, by simp, ?_⟩
    intro p hp
    rw [List.mem_singleton.1 hp]
    exact ⟨by decide, by decide, fun h => absurd rfl h, fun h => (by cases h)⟩
  · exact ⟨by simp, by simp, by simp⟩

/-- What a script leaves that raised when it had removed the old folder. -/
def upgradeBroken : Work String :=
  { startWork upgradeJob upgradeDisk with
    tree := (upgradeDisk.tree.set .extensions "probe" none).set .reportsets "probe" none
    backup :=
      { folders := Tree.set (fun _ _ => none) .extensions "probe" (some "probe 1.0.0")
        contents := some [(.extensions, "probe")]
        state := upgradeDisk.state }
    records := [(.extensions, "probe")] }

/-- The steps before the script. -/
def upgradeBefore : List Step :=
  [.requireInstaller, .copyFolder .extensions "probe", .copyFolder .reportsets "probe", .writeContents, .copyState,
    .requirePackage "probe", .prepare "probe"]

/-- A script that removed the old folder and raised: the rollback puts the old version back. -/
theorem failed_upgrade_is_undone :
    FailsAt upgradeOutside upgradeJob upgradeDisk upgradeBefore (.script "probe") upgradeBroken ∧
      ModulesKept upgradeJob upgradeDisk (rollback upgradeOutside none upgradeBroken) := by
  have hfails : FailsAt upgradeOutside upgradeJob upgradeDisk upgradeBefore (.script "probe") upgradeBroken :=
    ⟨⟨_, rfl⟩, _, rfl, none, none, rfl⟩
  refine ⟨hfails, ?_⟩
  refine (failed_install_keeps_modules_iff upgradeOutside upgradeOutside_trusted none upgradeJob upgradeDisk upgradeBefore
    (.script "probe") upgradeBroken hfails).2 ?_
  rw [Recoverable, if_neg (by decide), if_neg (by decide)]
  refine ⟨Or.inr ?_, Or.inl rfl⟩
  intro kind old _
  refine ⟨?_, nofun⟩
  intro hmem
  simp [upgradeBefore] at hmem

/-- The same upgrade on a server whose installer is missing: nothing was backed up, and the rollback removes the module. -/
theorem refused_upgrade_loses_module :
    FailsAt upgradeOutside upgradeJob upgradeDisk [] .requireInstaller (startWork upgradeJob upgradeDisk) ∧
      ¬ ModulesKept upgradeJob upgradeDisk (rollback upgradeOutside none (startWork upgradeJob upgradeDisk)) := by
  refine ⟨⟨⟨_, rfl⟩, _, rfl, rfl⟩, ?_⟩
  intro hkept
  have hfolder := hkept.folders "probe" (Or.inl (by decide)) .extensions
  exact absurd hfolder (by decide)

end Helper

end TecTac
