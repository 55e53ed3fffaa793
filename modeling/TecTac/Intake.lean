import TecTac.InstallPlan

/-!
# The three ways to install

`queue_v2_install` for a single package and for a bundle, and `queue_batch_install` of `module_manager_v2.py`: what is refused
before anything is queued, and the job that is queued. The staged files are verified and the licences checked outside; the
candidates are the packages as they are read from the staged files.
-/

namespace TecTac

/-! ## The gates -/

/-- `" ".join(text.split())`. -/
def oneLine (text : String) : String :=
  String.intercalate " " (((text.toList.splitOnP isSpace).filter fun word => !word.isEmpty).map String.ofList)

/-- `_manifest_name`. -/
def manifestName (site : Site) (id : String) : String :=
  match site.installed.find? (·.id = id) with
  | some m => if oneLine m.name = "" then id else oneLine m.name
  | none => id

/-- `replaced_by`. -/
def replacedBy (development : Bool) (model : Model) (id : String) : Option String :=
  (model.find? fun p => p.2.replaces == id && honouredReplacement development model p.2.id == some id).map fun p => p.2.id

/-- The state can be read and has an entry for the module, which is disabled. -/
def storedDisabled (file : Helper.StateFile) (id : String) : Bool :=
  match Helper.loadModuleState file with
  | .error _ => false
  | .ok s =>
    !((Dict.get "_corrupt" s).getD .null).truthy && (Dict.get id s.modules).isSome && !isEnabled file id

/-- `disabled_install_refusal`. -/
def disabledInstallRefusal (site : Site) (file : Helper.StateFile) (c : Candidate) : Option String :=
  if !storedDisabled file c.id then none
  else
    let shown := if oneLine c.name = "" then manifestName site c.id else oneLine c.name
    match replacedBy site.development (liveModel site file) c.id with
    | some replacement =>
      let other := manifestName site replacement
      some (shown ++ " is disabled because " ++ other ++ " replaces it. Disable " ++ other ++ " and enable " ++ shown ++
        ", then install again.")
    | none => some (shown ++ " is disabled. Enable it, then install again.")

/-- `PROTECTED_PLUGIN_IDS`. -/
def protectedPluginIds : List String := ["example"]

/-- Why a single package is not installable: `install_block_reason` of `inspect_archive`, or nothing. -/
def installBlockReason (development : Bool) (c : Candidate) : Option String :=
  if c.id ∈ protectedPluginIds then some "This module ID is framework-protected and cannot be installed or replaced from the UI."
  else if !(categoryProblem development c).isEmpty then
    some ("Core refuses to install a Test module on a server that is not a development server. " ++
      "The module's next release needs to carry a category (core, server or premium).")
  else if !c.versionsMatch then some "Extension and ReportSet versions must match when a ReportSet is included."
  else none

/-- The order a caller asks for: none, one that is not an array of texts, or an array of texts. -/
inductive RequestedOrder where
  | unset
  | malformed
  | ids (order : List String)
  deriving DecidableEq

/-- A dependency of the order that comes after its dependant. -/
def misplaced (plan : Plan) (order : List String) : Option (String × String) :=
  order.findSome? fun id =>
    (plan.actions.find? (·.id = id)).bind fun action =>
      (action.dependencies.find? fun d => decide (d.1 ∈ order ∧ order.idxOf id < order.idxOf d.1)).map fun d => (id, d.1)

/-- `_plan_with_requested_order`. -/
def planWithRequestedOrder (plan : Plan) : RequestedOrder → Except String Plan
  | .unset | .ids [] => .ok plan
  | .malformed => .error "Install order must be an array of module IDs."
  | .ids requested => do
    let order := requested.map fun id => String.ofList (strip id.toList)
    Raise.require (decide ("" ∉ order ∧ order.Nodup)) "Install order contains blank or duplicate module IDs."
    Raise.require (decide (order.length = plan.order.length ∧ ∀ id, id ∈ order ++ plan.order → id ∈ order ∧ id ∈ plan.order))
      "Install order must contain every staged module exactly once."
    match misplaced plan order with
    | some (id, dependency) => .error ("Install order is invalid: " ++ id ++ " requires " ++ dependency ++ " to be installed first.")
    | none => return { plan with order := order, actions := order.filterMap fun id => plan.actions.find? (·.id = id) }

/-! ## The paths -/

/-- What a request brings and what is read outside: whether the staged files can be trusted, the licence of a candidate, the
provenance of a single package, the order and the disables that the operator sends. -/
structure Intake where
  site : Site
  preflight : Preflight
  file : Helper.StateFile
  trust : Except String Unit
  license : Candidate → Except String Unit
  source : Bool
  requestedOrder : RequestedOrder
  disableReplaced : Option (List String)

/-- A job that was queued: one for the v1 worker, or one for the v2 worker with its plan. -/
inductive QueuedInstall where
  | v1 (id : String) (replace : Bool)
  | v2 (action : String) (plan : Plan) (disableModules : List String)
  deriving DecidableEq

/-- `_refuse_disabled_install`. -/
def refuseDisabledInstall (i : Intake) (c : Candidate) : Except Refusal Unit :=
  match disabledInstallRefusal i.site i.file c with
  | some message => .error (.error message)
  | none => .ok ()

/-- The action that `queue_v2_install` writes for a single package. -/
def singleAction (c : Candidate) (replace : Bool) (disableModules : List String) : PlanAction where
  id := c.id
  version := c.extensionVersion
  action := if replace then .replace else .install
  -- the preview of a package has no `installed_version`, and the action no previous id and no migration
  previousModuleId := none
  currentVersion := none
  dependencies := c.dependencies
  migration := {}
  willDisable := disableModules

/-- `queue_v2_install`, for a single package. -/
def queueSingle (i : Intake) (c : Candidate) : Except Refusal QueuedInstall := do
  refuseDisabledInstall i c
  refuse i.trust
  refuse (i.license c)
  let plan ← refuse (resolveInstallPlan i.site i.preflight i.file [c])
  let plan ← refuse (planWithRequestedOrder plan i.requestedOrder)
  let blocked := installBlockReason i.site.development c
  Raise.require (blocked.isNone && plan.valid) (.error (blocked.getD "Package dependency plan is not satisfiable."))
  let disableModules ← confirmedDisables plan.willDisable i.disableReplaced ("Module '" ++ c.id ++ "'")
  let replace := decide (c.id ∈ i.site.installed.map (·.id))
  let rename := plan.actions.any fun a => a.action = .rename
  if i.source || rename || !disableModules.isEmpty then
    return .v2 "batch_install" { plan with actions := [singleAction c replace disableModules] } disableModules
  else return .v1 c.id replace

/-- `queue_v2_install`, for a bundle. -/
def queueBundle (i : Intake) (bundleId : String) (candidates : List Candidate) : Except Refusal QueuedInstall := do
  candidates.forM fun c => refuse (i.license c)
  let plan ← refuse (resolveInstallPlan i.site i.preflight i.file candidates)
  refuse i.trust
  Raise.require plan.valid (.error "Bundle dependency plan is not satisfiable.")
  let plan ← refuse (planWithRequestedOrder plan i.requestedOrder)
  let disableModules ← confirmedDisables plan.willDisable i.disableReplaced ("Bundle '" ++ bundleId ++ "'")
  return .v2 "bundle_install" plan disableModules

/-- `queue_batch_install`. -/
def queueBatch (i : Intake) (candidates : List Candidate) : Except Refusal QueuedInstall := do
  candidates.forM fun c => do
    refuseDisabledInstall i c
    refuse i.trust
    refuse (i.license c)
  let plan ← refuse (resolveInstallPlan i.site i.preflight i.file candidates)
  Raise.require plan.valid (.error "Batch dependency plan is not satisfiable.")
  let plan ← refuse (planWithRequestedOrder plan i.requestedOrder)
  let disableModules ← confirmedDisables plan.willDisable i.disableReplaced "This install"
  return .v2 "batch_install" plan disableModules

end TecTac
