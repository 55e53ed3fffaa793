import TecTac.JobHelper
import TecTac.Lib.DepthFirst

/-!
# Enabling and disabling modules

`queue_set_enabled` of `module_manager_v2.py`: what Core checks before it queues an enable or a disable job, and the job it
queues. The catalogue and the live model are read from the installed modules and the module state file; queued jobs that are
not applied yet count for the replacement rules. The comparison of versions is a parameter.
-/

namespace TecTac

/-! ## The installed modules -/

/-- A runtime requirement and whether it is met. -/
structure RuntimeCheck where
  component : String
  constraint : String
  satisfied : Bool
  deriving DecidableEq

/-- What the registry and the manifest say of an installed module. The registry takes no blank id, and a constraint is never
blank: `_string_map` puts `*` for it. -/
structure Installed where
  id : String
  name : String := ""
  legacy : Bool := false
  isProtected : Bool := false
  extensionVersion : String := ""
  category : Category := .unset
  replaces : String := ""
  capabilities : Option (List (String × CapVersion)) := none
  dependencies : List (String × String) := []
  runtimeRequirements : List RuntimeCheck := []
  id_ne : id ≠ "" := by decide
  constraint_ne : ∀ d ∈ dependencies, d.2 ≠ "" := by decide

theorem no_constraints : ∀ d ∈ ([] : List (String × String)), d.2 ≠ "" := by decide

theorem base_named : "base" ≠ "" := by decide

/-- The installed modules. The registry refuses a second module with an id. -/
structure Site where
  development : Bool
  versionSatisfies : String → String → Except String Bool
  installed : List Installed
  nodup : (installed.map (·.id)).Nodup

/-- The flag of a module as Core reads it from the records; a record that is not a mapping is empty. -/
def coreFlag (modules : Helper.Records) (id : String) : Bool :=
  match Dict.get id modules with
  | some (.obj fields) => Helper.flag fields
  | _ => Helper.flag []

/-- `is_enabled` of Core: nothing is enabled in a state that cannot be read. -/
def isEnabled (file : Helper.StateFile) (id : String) : Bool :=
  match Helper.loadModuleState file with
  | .error _ => false
  | .ok s =>
    if ((Dict.get "_corrupt" s).getD .null).truthy then false else coreFlag s.modules id

/-- A row of `installed_catalog_v2`. -/
structure CatalogRow where
  id : String
  legacy : Bool
  managed : Bool
  isProtected : Bool
  extensionVersion : String
  enabled : Bool
  dependencies : List (String × String)
  runtimeRequirements : List RuntimeCheck
  deriving DecidableEq

/-- `version or "0.0.0"`. -/
def orZero (version : String) : String := if version = "" then "0.0.0" else version

/-- The row of an installed module. -/
def Installed.row (file : Helper.StateFile) (m : Installed) : CatalogRow where
  id := m.id
  legacy := m.legacy
  managed := !m.isProtected && !m.legacy
  isProtected := m.isProtected || m.legacy
  extensionVersion := m.extensionVersion
  enabled := m.legacy || isEnabled file m.id
  dependencies := if m.legacy then [] else m.dependencies
  runtimeRequirements := if m.legacy then [] else m.runtimeRequirements

/-- `installed_catalog_v2`: it compares the version of every installed dependency, which may raise. -/
def installedCatalogV2 (site : Site) (file : Helper.StateFile) : Except String (List CatalogRow) := do
  site.installed.forM fun m =>
    (m.row file).dependencies.forM fun d =>
      match site.installed.find? (·.id = d.1) with
      | none => .ok ()
      | some dep => (site.versionSatisfies (orZero dep.extensionVersion) d.2).map fun _ => ()
  return site.installed.map (Installed.row file)

/-- `catalog.get(module_id)`. -/
def catalogRow (catalog : List CatalogRow) (id : String) : Option CatalogRow := catalog.find? (·.id = id)

/-- `live_model`. -/
def liveModel (site : Site) (file : Helper.StateFile) : Model :=
  (site.installed.filter fun m => !m.legacy).map fun m =>
    (m.id, ⟨m.id, m.category, isEnabled file m.id, m.replaces, m.capabilities⟩)

/-! ## Jobs -/

/-- The actions of the jobs that change flags. -/
inductive JobAction where
  | enable
  | disable
  | install
  deriving DecidableEq

/-- A job that Core queued. -/
structure QueuedJob where
  action : JobAction
  pluginId : String
  cascade : Bool
  affectedModules : List String
  disableModules : List String
  enableModules : List String
  replacementConfirmed : Bool
  handBackSkipped : List String
  deriving DecidableEq

/-- `job.get("affected_modules") or [job.get("plugin_id")]`. -/
def QueuedJob.affected (job : QueuedJob) : List String :=
  if job.affectedModules.isEmpty then [job.pluginId] else job.affectedModules

/-- What one pending job does to the model, in `_model_with_pending_jobs`. -/
def applyPending (model : Model) (job : QueuedJob) : Model :=
  let switched :=
    match job.action with
    | .enable => withEnabled model (job.affected.map fun id => (id, true))
    | .disable => withEnabled model (job.affected.map fun id => (id, false))
    | .install => model
  withEnabled (withEnabled switched (job.disableModules.map fun id => (id, false))) (job.enableModules.map fun id => (id, true))

/-- `_model_with_pending_jobs`, for the pending jobs in the order they were created. -/
def modelWithPendingJobs (model : Model) (pending : List QueuedJob) : Model := pending.foldl applyPending model

/-! ## Enabling -/

/-- A problem that stops a module being enabled. -/
inductive EnableProblem where
  | missingDependency (dependency constraint : String)
  | disabledDependency (dependency constraint : String)
  | dependencyVersion (dependency constraint version : String)
  | runtime (check : RuntimeCheck)
  | replacement (problem : ReplacementProblem)
  | notManageable (module : String)
  deriving DecidableEq

/-- The dependency that a problem names. -/
def EnableProblem.dependency : EnableProblem → Option String
  | .missingDependency d _ | .disabledDependency d _ | .dependencyVersion d _ _ => some d
  | _ => none

/-- `_problem_text`. -/
def EnableProblem.text : EnableProblem → String
  | .missingDependency d _ => "it needs module '" ++ d ++ "', which is not installed"
  | .disabledDependency d _ => "it needs module '" ++ d ++ "', which is disabled"
  | .dependencyVersion d c v => "module '" ++ d ++ "' is at version " ++ v ++ ", and it needs " ++ c
  | .runtime _ => "a runtime requirement is not met"
  | .notManageable _ => "it cannot be enabled or disabled from the UI"
  | .replacement p => p.message

/-- Whether a dependency counts as enabled: as the catalogue has it now, or as the model has it after the job. -/
def dependencyEnabled (model : Model) (hypothetical : Bool) (dep : CatalogRow) : Bool :=
  match Dict.get dep.id model with
  | some node => if hypothetical then node.enabled else dep.enabled
  | none => dep.enabled

/-- The problems of one dependency. -/
def dependencyProblems (site : Site) (catalog : List CatalogRow) (model : Model) (hypothetical : Bool) (d : String × String) :
    Except String (List EnableProblem) :=
  match catalogRow catalog d.1 with
  | none => .ok [.missingDependency d.1 d.2]
  | some dep => do
    let satisfied ← site.versionSatisfies (orZero dep.extensionVersion) d.2
    return (if !dependencyEnabled model hypothetical dep && (satisfiesDependency site.development model d.1).isNone then
        [.disabledDependency d.1 d.2] else []) ++
      if !satisfied then [.dependencyVersion d.1 d.2 dep.extensionVersion] else []

/-- `_enable_problems`. -/
def moduleEnableProblems (site : Site) (catalog : List CatalogRow) (model : Model) (target : CatalogRow) (hypothetical : Bool) :
    Except String (List EnableProblem) := do
  let dependencies ← target.dependencies.mapM (dependencyProblems site catalog model hypothetical)
  return dependencies.flatten ++ (target.runtimeRequirements.filter fun c => !c.satisfied).map .runtime ++
    (enableProblems site.development model target.id).map .replacement

/-- `_replacement_dependants`. -/
def replacementDependants (catalog : List CatalogRow) (model : Model) (id : String) (replacements : List String) :
    List (String × List String) :=
  replacements.filterMap fun replacement =>
    let rows := (catalog.insertionSort fun a b => a.id ≤ b.id).filter fun row =>
      !row.legacy && row.id != id && row.id != replacement && (Dict.get replacement row.dependencies).isSome &&
        match Dict.get row.id model with
        | some node => node.enabled
        | none => row.enabled
    if rows.isEmpty then none else some (replacement, rows.map (·.id))

/-! ## Refusals -/

/-- A module that cannot come back, with the reasons and the modules it needs. -/
structure Unavailable where
  module : String
  reasons : List String
  requiredModules : List String
  deriving DecidableEq

/-- What a request is refused with. -/
inductive Refusal where
  | error (text : String)
  | confirmationRequired (willDisable : List String) (subject : String)
  | secondConfirmationRequired (willDisable : List String) (module : String) (dependants : List (String × List String))
  | handBackConfirmationRequired (module : String) (willEnable : List String) (unavailable : List Unavailable)
  deriving DecidableEq

/-- An error of a reader is the refusal with its text. -/
def refuse {α : Type} (x : Except String α) : Except Refusal α := x.mapError .error

/-- `_confirmed_disables`. -/
def confirmedDisables (willDisable : List String) (disableReplaced : Option (List String)) (subject : String) :
    Except Refusal (List String) :=
  let needed := sortedIds willDisable.dedup
  if needed.isEmpty then .ok []
  else if sortedIds (disableReplaced.getD []).dedup = needed then .ok needed
  else .error (.confirmationRequired needed subject)

/-! ## Disabling -/

/-- `honoured_replacement`. -/
def honouredReplacement (development : Bool) (model : Model) (id : String) : Option String :=
  match Dict.get id model with
  | none => none
  | some node =>
    if node.replaces = "" then none else if (check development model node.id).1.isNone then some node.replaces else none

/-- An enabled module that depends on another. -/
structure Dependant where
  id : String
  constraint : String
  via : Option String
  deriving DecidableEq

/-- The constraint of a row on one of the watched modules: on the module itself first, then on the module it replaces. -/
def watchedConstraint (row : CatalogRow) (id : String) (replaced : Option String) : Option (String × Option String) :=
  match (Dict.get id row.dependencies).filter (· ≠ "") with
  | some c => some (c, none)
  | none => replaced.bind fun r => ((Dict.get r row.dependencies).filter (· ≠ "")).map fun c => (c, some r)

/-- `_enabled_dependants`. -/
def enabledDependants (site : Site) (file : Helper.StateFile) (catalog : List CatalogRow) (id : String) : List Dependant :=
  let replaced := honouredReplacement site.development (liveModel site file) id
  (catalog.filter fun row => !row.legacy && isEnabled file row.id && row.id != id).filterMap fun row =>
    (watchedConstraint row id replaced).map fun found => ⟨row.id, found.1, found.2⟩

/-- `_hand_back_split`: the modules that can come back, and the others with the problems. -/
def handBackSplit (site : Site) (catalog : List CatalogRow) (model : Model) (willEnable off : List String) :
    Except String (List String × List Unavailable) :=
  let future := withEnabled model (off.map fun id => (id, false))
  willEnable.foldlM
    (fun acc back => do
      let inner ←
        match catalogRow catalog back with
        | none => .ok [EnableProblem.notManageable back]
        | some item =>
          if item.isProtected || !item.managed then .ok [EnableProblem.notManageable back]
          else moduleEnableProblems site catalog future item true
      if inner.isEmpty then return (acc.1 ++ [back], acc.2)
      else return (acc.1, acc.2 ++ [⟨back, inner.map (·.text), sortedIds (inner.filterMap (·.dependency)).dedup⟩]))
    ([], [])

/-- `_hand_back_wanted`. -/
def handBackWanted (model : Model) (affected : List String) : List String :=
  let off := affected.dedup
  off.foldl
    (fun wanted id =>
      (handBackPlan (withEnabled model ((off.filter (· ≠ id)).map fun mid => (mid, false))) id).foldl
        (fun wanted back => if back ∉ wanted ∧ back ∉ off then wanted ++ [back] else wanted) wanted)
    []

/-! ## The request -/

/-- The arguments of `queue_set_enabled` that are read. -/
structure SetEnabled where
  moduleId : String
  enabled : Bool
  cascade : Bool := false
  disableReplaced : Option (List String) := none
  confirmReplacementSwitch : Bool := false
  confirmWithoutHandBack : Bool := false
  deriving DecidableEq

/-- The enable branch of `queue_set_enabled`, with `validate_enable`. -/
def queueEnable (site : Site) (model : Model) (catalog : List CatalogRow) (target : CatalogRow) (request : SetEnabled) :
    Except Refusal QueuedJob := do
  Raise.require (!target.isProtected) (.error "Protected framework modules cannot be enabled/disabled from the UI.")
  let problems ← refuse (moduleEnableProblems site catalog model target false)
  let replacement := problems.filterMap fun
    | .replacement p => some p.message
    | _ => none
  Raise.require replacement.isEmpty (.error ("Module cannot be enabled. " ++ String.intercalate " " replacement))
  Raise.require problems.isEmpty
    (.error "Module cannot be enabled until its dependencies and runtime requirements are satisfied.")
  let willDisable := disablePlan site.development model target.id
  let disableModules ← confirmedDisables willDisable request.disableReplaced ("Module '" ++ target.id ++ "'")
  let switches := !disableModules.isEmpty && switchesReplacement model target.id
  Raise.require (!switches || request.confirmReplacementSwitch)
    (.secondConfirmationRequired disableModules target.id (replacementDependants catalog model target.id disableModules))
  return { action := .enable, pluginId := target.id, cascade := request.cascade, affectedModules := [target.id],
           disableModules := disableModules, enableModules := [], replacementConfirmed := switches, handBackSkipped := [] }

/-- The disable branch of `queue_set_enabled`. -/
def queueDisable (site : Site) (file : Helper.StateFile) (live : Model) (catalog : List CatalogRow) (target : CatalogRow)
    (request : SetEnabled) : Except Refusal QueuedJob := do
  let firstPlan := handBackPlan live target.id
  let comingBack ← refuse (handBackSplit site catalog live firstPlan [target.id])
  let dependantsOf := fun id =>
    ((enabledDependants site file catalog id).filter fun d => !(!comingBack.1.isEmpty && id == target.id && d.via.isSome)).map (·.id)
  Raise.require ((dependantsOf target.id).isEmpty || request.cascade)
    (.error ("Module is required by enabled module(s): " ++ String.intercalate ", " (dependantsOf target.id) ++
      ". Disable dependants first or request cascade."))
  let affected :=
    if request.cascade then
      -- `visit`: a visit goes down only to a module that was not seen, so the installed modules bound its depth
      ((DepthFirst.visit dependantsOf (catalog.length + 1) target.id ⟨[], [target.id]⟩).finished.filter (· ≠ target.id)) ++ [target.id]
    else [target.id]
  let wanted := handBackWanted live affected
  let split ← refuse (handBackSplit site catalog live wanted affected)
  Raise.require (split.2.isEmpty || request.confirmWithoutHandBack) (.handBackConfirmationRequired target.id split.1 split.2)
  return { action := .disable, pluginId := target.id, cascade := request.cascade, affectedModules := affected, disableModules := [],
           enableModules := split.1, replacementConfirmed := false, handBackSkipped := sortedIds (split.2.map (·.module)) }

/-- `queue_set_enabled`: the job it queues, or the refusal. -/
def queueSetEnabled (site : Site) (file : Helper.StateFile) (pending : List QueuedJob) (request : SetEnabled) :
    Except Refusal QueuedJob := do
  let catalog ← refuse (installedCatalogV2 site file)
  match catalogRow catalog request.moduleId with
  | none => .error (.error ("Module '" ++ request.moduleId ++ "' is not installed."))
  | some target => do
    Raise.require target.managed (.error "Protected modules cannot be enabled or disabled from the UI.")
    let model := modelWithPendingJobs (liveModel site file) pending
    if request.enabled then queueEnable site model catalog target request else queueDisable site file model catalog target request

/-! ## The worker -/

/-- The jobs in flight, in the order they were created, and the module state file. -/
structure JobQueue where
  file : Helper.StateFile
  pending : List QueuedJob

/-- What the root helper needs to apply a job: the manifests it reads, and `urlsplit`. -/
structure RootWorker where
  urlsplit : String → Option Helper.UrlParts
  development : Bool
  manifests : Helper.Manifests

/-- `run_job`, for an enable or a disable job: the state file when the job is applied. -/
def RootWorker.apply (worker : RootWorker) (job : QueuedJob) (file : Helper.StateFile) : Except String Helper.StateFile :=
  match job.action with
  | .enable =>
    match Helper.enableJob worker.urlsplit none worker.development worker.manifests job.affected job.disableModules
      job.replacementConfirmed file with
    | (.ok _, file) => .ok file
    | (.error e, _) => .error e
  | .disable =>
    match Helper.disableJob worker.urlsplit none worker.manifests job.affected job.enableModules file with
    | (.ok _, file) => .ok file
    | (.error e, _) => .error e
  | .install => .error "not an enable or a disable job"

/-- One step of the system, with the job that it queues: a request is accepted, or the oldest job is applied. -/
inductive QueueStep (site : Site) (worker : RootWorker) : JobQueue → Option QueuedJob → JobQueue → Prop where
  | accept (q : JobQueue) (request : SetEnabled) (job : QueuedJob) (h : queueSetEnabled site q.file q.pending request = .ok job) :
      QueueStep site worker q (some job) { q with pending := q.pending ++ [job] }
  | apply (file file' : Helper.StateFile) (job : QueuedJob) (pending : List QueuedJob) (h : worker.apply job file = .ok file') :
      QueueStep site worker ⟨file, job :: pending⟩ none ⟨file', pending⟩

/-- A run of the system in which every job is queued under a condition on the system. -/
inductive QueueRun (site : Site) (worker : RootWorker) (condition : JobQueue → QueuedJob → Prop) (start : JobQueue) : JobQueue → Prop where
  | start : QueueRun site worker condition start start
  | step {q q' : JobQueue} {queued : Option QueuedJob} (hrun : QueueRun site worker condition start q)
      (hstep : QueueStep site worker q queued q') (hqueued : ∀ job, queued = some job → condition q job) :
      QueueRun site worker condition start q'

end TecTac
