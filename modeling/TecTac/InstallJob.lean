import TecTac.InstallPlan
import TecTac.Lib.Steps

/-!
# The install job of the root helper

`run_job` of `module-v2-job-helper.py` for `batch_install` and `bundle_install`: the backup of the module folders and of
the module state, the installs, the checks, the state writes, and the rollback when one of them raises. The job is the list
of its steps in the order of the source, so that it can stop at each of them. A module folder is its content or nothing;
the database, the services and the registered maintenance actions are outside.
-/

namespace TecTac

namespace Helper

/-! ## The job -/

/-- One action of the plan, as the helper reads it; the id of a module that is not renamed is empty. -/
structure Action where
  id : String
  version : String
  action : ActionKind
  previousModuleId : String
  deriving DecidableEq

/-- An install job, after `_validate_install_plan_against_signed_artifacts`: every module of the order has one action. -/
structure InstallJob where
  order : List String
  actions : List Action
  sources : List (String × Json)
  confirmed : List String
  order_nodup : order.Nodup
  actions_nodup : (actions.map (·.id)).Nodup
  mem_actions : ∀ id, id ∈ actions.map (·.id) ↔ id ∈ order

variable {C : Type}

/-- The two folders of a module. -/
inductive Kind where
  | extensions
  | reportsets
  deriving DecidableEq

instance kindLawful : LawfulBEq (Kind × String) := inferInstance

/-- The installed tree: the content of `extensions/<id>` and `reportsets/<id>`, or nothing. -/
abbrev Tree (C : Type) := Kind → String → Option C

/-- Write, or remove, one folder. -/
def Tree.set (t : Tree C) (kind : Kind) (id : String) (content : Option C) : Tree C :=
  fun kind' id' => if kind' = kind ∧ id' = id then content else t kind' id'

/-- The module folders and the module state. -/
structure Disk (C : Type) where
  tree : Tree C
  state : StateFile

/-- The backup folder of a job: the copied folders, the folders that `contents.json` says were copied, and the copy of the
module state. -/
structure Backup (C : Type) where
  folders : Tree C
  contents : Option (List (Kind × String))
  state : StateFile

/-- What the install branch of `run_job` works on. -/
structure Work (C : Type) where
  tree : Tree C
  state : StateFile
  backup : Backup C
  records : List (Kind × String)
  backupIds : List String
  disabledByJob : List String
  disables : List String
  categories : List (String × Category)

/-- What the job gets from outside: the reader of the manifests, the packages and `install-extension.sh`, which leaves
some content in the two folders of its module and in no other. -/
structure Outside (C : Type) where
  urlsplit : String → Option UrlParts
  development : Bool
  now : String
  readInstalledManifests : Tree C → Manifests
  packageReplaces : String → Except String String
  installs : String → (replace : Bool) → Tree C → Kind → Option C

/-- The action of a module. -/
def InstallJob.actionOf (job : InstallJob) (id : String) : Option Action := job.actions.find? (·.id = id)

/-- `rename_from`. -/
def InstallJob.renameFrom (job : InstallJob) (id : String) : String :=
  match job.actionOf id with
  | some a => if a.action = .rename then a.previousModuleId else ""
  | none => ""

/-- `backup_ids`, as `install_packages` makes it: the modules of the job and the modules they were before. -/
def InstallJob.backupIds (job : InstallJob) : List String :=
  job.actions.foldl
    (fun ids a => if a.previousModuleId ≠ "" ∧ a.previousModuleId ∉ ids then ids ++ [a.previousModuleId] else ids) job.order

/-! ## The state writes -/

/-- `set_enabled`. -/
def setEnabled (urlsplit : String → Option UrlParts) (fault : Option String) (ids : List String) (enabled : Bool)
    (file : StateFile) : Except String Unit × StateFile :=
  mutateModuleState urlsplit fault (fun modules => (setFlags enabled ids modules).map fun modules => ((), modules)) file

/-- The text of a category in a manifest. -/
def categoryText : Category → String
  | .unset => ""
  | .core => "core"
  | .server => "server"
  | .premium => "premium"
  | .test => "test"

/-- `remember_version`. -/
def rememberVersion (urlsplit : String → Option UrlParts) (now id version : String) (source : Json)
    (category : Option Category) (modules : Records) : Except String Records := do
  let fields ← record modules id
  let fields := if (Dict.get "enabled" fields).isSome then fields else Dict.set "enabled" (.bool true) fields
  let fields := Dict.set "version" (.str version) fields
  let fields :=
    match category with
    | some c => Dict.set "category" (.str (categoryText c)) fields
    | none => fields
  let fields ←
    if !source.truthy then .ok fields
    else
      match source with
      | .obj pairs =>
        let pairs :=
          match Dict.get "repository_url" pairs with
          | some url => Dict.set "repository_url" (.str (stripRepositoryUrl urlsplit url)) pairs
          | none => pairs
        .ok (Dict.set "source" (.obj (Dict.set "installed_at" (.str now) pairs)) fields)
      | _ => .error "not a mapping"
  return Dict.set id (.obj fields) modules

/-- `migrate_module_state_identity`. -/
def migrateModuleStateIdentity (oldId newId : String) (modules : Records) : Except String Records :=
  if (Dict.get newId modules).isSome then .error ("destination module state already exists: " ++ newId)
  else
    match Dict.get oldId modules with
    | none => .ok modules
    | some j => .ok (Dict.set newId j (Dict.erase oldId modules))

/-! ## The checks -/

/-- `load_module_state`, which reads a file that cannot be read as one without modules. -/
def readModules (file : StateFile) : Records :=
  match loadModuleState file with
  | .ok s => s.modules
  | .error _ => []

/-- The callback of `apply_install_prepare_disable`: whether it disabled the replaced module, and the records. -/
def applyInstallPrepareDisable (manifests : Manifests) (replaced : String) (confirmed order : List String) (modules : Records) :
    Except String (Bool × Records) := do
  let model ← replacementModel manifests modules
  match Dict.get replaced model with
  | none => return (false, modules)
  | some target =>
    if !target.category.replaceable || !target.enabled || decide (replaced ∈ order) then return (false, modules)
    else do
      Raise.require (decide (replaced ∈ confirmed))
        ("module replacement would disable a module the operator did not confirm: " ++ replaced)
      let modules ← setFlags false [replaced] modules
      return (true, modules)

/-- `_hypothetical_disable`, which leaves the blocked modules. -/
def hypotheticalDisableUnless (blocked : List String) (model : HelperModel) (node : HelperNode) : HelperModel × List String :=
  match Dict.get node.replaces model with
  | none => (model, [])
  | some target => if target.id ∈ blocked then (model, []) else hypotheticalDisable model node

/-- What one module of the order disables, in `verify_install_disables`. -/
def verifyOne (development : Bool) (model : HelperModel) (job : InstallJob) (preInstalled : List String) (id : String) :
    Except String (List String) :=
  match Dict.get id model with
  | none => .ok []
  | some node =>
    if node.replaces = "" ∨ id ∈ preInstalled ∨ (job.actionOf id).map (·.action) ≠ some .install ∨ !node.enabled then .ok []
    else
      let plan := hypotheticalDisableUnless job.order model node
      match replacementCheck development plan.1 id true with
      | some reason => .error ("module replacement rule refuses installing " ++ id ++ ": " ++ reason)
      | none => .ok plan.2

/-- `verify_install_disables`. -/
def verifyInstallDisables (development : Bool) (manifests : Manifests) (job : InstallJob) (preInstalled : List String)
    (modules : Records) : Except String (List String) := do
  let model ← replacementModel manifests modules
  let names ← job.order.mapM (verifyOne development model job preInstalled)
  let disables := sortedIds names.flatten.dedup
  let unconfirmed := sortedMinus disables job.confirmed
  Raise.require unconfirmed.isEmpty
    ("module replacement would disable a module the operator did not confirm: " ++ String.intercalate ", " unconfirmed)
  return disables

/-- `category_refused`: a missing category counts as test. -/
def categoryRefused (development : Bool) (category : Category) : Bool :=
  (category == .unset || category == .test) && !development

/-- `verify_install_categories`. -/
def verifyInstallCategories (development : Bool) (manifests : Manifests) (job : InstallJob) :
    Except String (List (String × Category)) :=
  (job.order.filterMap fun id => (Dict.get id manifests).map fun node => (id, node.category)).mapM fun p => do
    Raise.require (!categoryRefused development p.2)
      ("module " ++ p.1 ++ " is a Test module (or states no category) and this is not a development server: refusing to install it")
    return p

/-! ## The steps -/

/-- The steps of the install branch of `run_job`. -/
inductive Step where
  | requireInstaller
  | copyFolder (kind : Kind) (id : String)
  | writeContents
  | copyState
  | requirePackage (id : String)
  | removeOld (kind : Kind) (old : String)
  | prepare (id : String)
  | script (id : String)
  | returned
  | verifyDisables
  | verifyCategories
  | migrateIdentity (a : Action)
  | migrateState (a : Action)
  | remember (a : Action)
  | disableLater
  | runtimeSync
  | syncServerActions (id : String) (remove : Bool)
  | cleanup
  deriving DecidableEq

/-- `backup_modules`. -/
def backupModules (ids : List String) : List Step :=
  ids.flatMap (fun id => [Step.copyFolder .extensions id, .copyFolder .reportsets id]) ++ [Step.writeContents, .copyState]

/-- One turn of the loop of `install_packages`. -/
def installPackage (job : InstallJob) (id : String) : List Step :=
  [Step.requirePackage id] ++
    (if job.renameFrom id ≠ "" then [Step.removeOld .extensions (job.renameFrom id), .removeOld .reportsets (job.renameFrom id)]
      else []) ++
    [Step.prepare id, .script id]

/-- `install_packages`; the last step hands `backup_ids` to `run_job`. -/
def installPackages (job : InstallJob) : List Step :=
  .requireInstaller :: (backupModules job.backupIds ++ (job.order.flatMap (installPackage job) ++ [Step.returned]))

/-- What `run_job` does when the packages are installed. -/
def finishInstall (job : InstallJob) : List Step :=
  [Step.verifyDisables, .verifyCategories] ++
    job.actions.flatMap (fun a => if a.action = .rename then [.migrateIdentity a, .migrateState a, .remember a] else [.remember a]) ++
    [Step.disableLater, .runtimeSync] ++
    (job.actions.filter fun a => decide (a.action = .rename ∧ a.previousModuleId ≠ "")).map
      (fun a => Step.syncServerActions a.previousModuleId true) ++
    job.order.map (fun id => Step.syncServerActions id false) ++ [Step.cleanup]

/-- The `try` block of `run_job`. -/
def installBranch (job : InstallJob) : List Step := installPackages job ++ finishInstall job

/-- Where the `try` block begins. -/
def startWork (job : InstallJob) (disk : Disk C) : Work C where
  tree := disk.tree
  state := disk.state
  backup := ⟨fun _ _ => none, none, .absent⟩
  records := []
  backupIds := job.order
  disabledByJob := []
  disables := []
  categories := []

/-- A write of the module state. -/
def Work.write (w : Work C) (out : Outside C) (callback : Records → Except String Records) : Except String (Work C) :=
  match mutateModuleState out.urlsplit none (fun modules => (callback modules).map fun modules => ((), modules)) w.state with
  | (.ok _, file) => .ok { w with state := file }
  | (.error e, _) => .error e

/-- `prepare_install`. -/
def prepareInstall (out : Outside C) (job : InstallJob) (preInstalled : List String) (id : String) (w : Work C) :
    Except String (Work C) :=
  if id ∈ preInstalled ∨ (job.actionOf id).map (·.action) ≠ some .install then .ok w
  else
    match out.packageReplaces id with
    | .error e => .error e
    | .ok replaced =>
      if replaced = "" then .ok w
      else
        match mutateModuleState out.urlsplit none
          (applyInstallPrepareDisable (out.readInstalledManifests w.tree) replaced job.confirmed job.order) w.state with
        | (.ok disabled, file) =>
          .ok { w with
            state := file
            disabledByJob :=
              if disabled && decide (replaced ∉ w.disabledByJob) then w.disabledByJob ++ [replaced] else w.disabledByJob }
        | (.error e, _) => .error e

/-- A step that goes through. The steps outside the folders and the state change nothing here. -/
def Step.run (out : Outside C) (job : InstallJob) (preInstalled : List String) : Step → Work C → Except String (Work C)
  | .copyFolder kind id, w =>
    match w.tree kind id, w.backup.folders kind id with
    | none, _ => .ok w
    | some _, some _ => .error "the folder exists"
    | some content, none =>
      .ok { w with
        backup := { w.backup with folders := w.backup.folders.set kind id (some content) }
        records := w.records ++ [(kind, id)] }
  | .writeContents, w => .ok { w with backup := { w.backup with contents := some w.records } }
  | .copyState, w => .ok { w with backup := { w.backup with state := w.state } }
  | .removeOld kind old, w => .ok { w with tree := w.tree.set kind old none }
  | .prepare id, w => prepareInstall out job preInstalled id w
  | .script id, w =>
    let replace := job.renameFrom id = "" ∧ (w.tree .extensions id).isSome
    let left := out.installs id (decide replace) w.tree
    .ok { w with tree := (w.tree.set .extensions id (left .extensions)).set .reportsets id (left .reportsets) }
  | .returned, w => .ok { w with backupIds := job.backupIds }
  | .verifyDisables, w => do
    let disables ← verifyInstallDisables out.development (out.readInstalledManifests w.tree) job preInstalled (readModules w.state)
    return { w with disables := disables }
  | .verifyCategories, w => do
    let categories ← verifyInstallCategories out.development (out.readInstalledManifests w.tree) job
    return { w with categories := categories }
  | .migrateState a, w => w.write out (migrateModuleStateIdentity a.previousModuleId a.id)
  | .remember a, w =>
    let version := if a.version = "" then "0.0.0" else a.version
    w.write out
      (rememberVersion out.urlsplit out.now a.id version ((Dict.get a.id job.sources).getD .null) (Dict.get a.id w.categories))
  | .disableLater, w =>
    let later := w.disables.filter fun id => decide (id ∉ w.disabledByJob)
    if later.isEmpty then .ok w
    else do
      let w ← w.write out (setFlags false later)
      return { w with disabledByJob := w.disabledByJob ++ later }
  | .requireInstaller, w | .requirePackage _, w | .migrateIdentity _, w | .runtimeSync, w | .syncServerActions _ _, w | .cleanup, w =>
    .ok w

/-- What a step that raises may leave: a copy that was not finished, a folder that was removed in part, whatever the script
made of the folders of its module, and the name of a replaced module whose disabling could not be saved. A write of the
state is made at once or not at all. -/
def Step.Leaves (out : Outside C) (job : InstallJob) (preInstalled : List String) : Step → Work C → Work C → Prop
  | .copyFolder kind id, w, w' =>
    ∃ left, (w.tree kind id = none → left = none) ∧
      w' = { w with backup := { w.backup with folders := w.backup.folders.set kind id left } }
  | .copyState, w, w' => ∃ left, (w.state = .absent → left = .absent) ∧ w' = { w with backup := { w.backup with state := left } }
  | .removeOld kind old, w, w' => ∃ left, (w.tree kind old = none → left = none) ∧ w' = { w with tree := w.tree.set kind old left }
  | .prepare id, w, w' =>
    w' = w ∨
      ∃ replaced s modules, id ∉ preInstalled ∧ out.packageReplaces id = .ok replaced ∧ loadModuleState w.state = .ok s ∧
        applyInstallPrepareDisable (out.readInstalledManifests w.tree) replaced job.confirmed job.order s.modules =
          .ok (true, modules) ∧
        replaced ∉ w.disabledByJob ∧ w' = { w with disabledByJob := w.disabledByJob ++ [replaced] }
  | .script id, w, w' => ∃ ext rep, w' = { w with tree := (w.tree.set .extensions id ext).set .reportsets id rep }
  | .returned, _, _ => False
  | _, w, w' => w' = w

/-! ## The rollback -/

/-- `restore_modules`: a folder is removed, and copied back when `contents.json` says that it was copied; with no copy of the
state the state file is removed. -/
def restoreModules (ids : List String) (backup : Backup C) (disk : Disk C) : Disk C where
  tree := ids.foldl
    (fun tree id => [Kind.extensions, .reportsets].foldl
      (fun tree kind => tree.set kind id (if (kind, id) ∈ backup.contents.getD [] then backup.folders kind id else none)) tree)
    disk.tree
  state := backup.state

/-- The rollback of `run_job`; when switching the disabled modules back on raises, that is only logged. -/
def rollback (out : Outside C) (fault : Option String) (w : Work C) : Disk C :=
  let disk := restoreModules w.backupIds w.backup ⟨w.tree, w.state⟩
  if w.disabledByJob.isEmpty then disk else { disk with state := (setEnabled out.urlsplit fault w.disabledByJob true disk.state).2 }

/-- The install branch raises at a step and leaves this work to the rollback. -/
def FailsAt (out : Outside C) (job : InstallJob) (disk : Disk C) (before : List Step) (failing : Step) (w : Work C) : Prop :=
  let preInstalled := (out.readInstalledManifests disk.tree).map Prod.fst
  Steps.StopsAt (Step.run out job preInstalled) (Step.Leaves out job preInstalled) (installBranch job) (startWork job disk)
    before failing w

end Helper

end TecTac
