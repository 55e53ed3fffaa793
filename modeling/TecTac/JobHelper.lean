import TecTac.Lib.Json
import TecTac.Lib.Raise
import TecTac.Lib.Text
import TecTac.Replacement

/-!
# The root helper

The replacement rules and the enable and disable jobs of `module-v2-job-helper.py`. The helper runs as root and never
imports Core, so it has the rules a second time, over nodes of its own that it reads from root-owned manifests, and it
keeps the module state file. What it raises is the text of the error.
-/

namespace TecTac

namespace Helper

/-! ## The nodes -/

/-- `manifest_node`: the facts of one manifest. -/
structure ManifestNode where
  id : String
  category : Category
  replaces : String
  capabilities : Option (List (String × CapVersion))
  deriving DecidableEq

/-- The rules a manifest keeps, or `manifest_node` answers nothing for it: the ids are plain words, a module does not
replace itself, a core, a server and a test module replace nothing, and the capabilities of a core and a server module
begin with its id. -/
structure ManifestNode.Allowed (n : ManifestNode) : Prop where
  id_ne : n.id ≠ ""
  replaces_ne : n.replaces ≠ n.id
  replaces_category : n.replaces ≠ "" → n.category = .unset ∨ n.category = .premium
  capabilities_own : n.category.replaceable = true →
    ∀ c ∈ n.capabilities.getD [], (n.id ++ ".").toList <+: c.1.toList

/-- A manifest node with its enabled flag. -/
structure HelperNode extends ManifestNode where
  enabled : Bool
  deriving DecidableEq

/-- The manifest nodes by id, as `read_installed_manifests` reads them. -/
abbrev Manifests := List (String × ManifestNode)

/-- The nodes by id. -/
abbrev HelperModel := List (String × HelperNode)

/-- `sorted(model.values(), key=lambda item: item["id"])`. -/
def HelperModel.sorted (model : HelperModel) : List HelperNode := (model.map Prod.snd).insertionSort fun a b => a.id ≤ b.id

/-! ## The module state -/

/-- The pairs of `state["modules"]`. -/
abbrev Records := List (String × Json)

/-- `modules.get(module_id) or {}`, used as a dictionary. -/
def record (modules : Records) (id : String) : Except String (List (String × Json)) :=
  match Dict.get id modules with
  | none => .ok []
  | some j =>
    if !j.truthy then .ok []
    else
      match j with
      | .obj kvs => .ok kvs
      | _ => .error "not a mapping"

/-- `bool(record.get("enabled", True))`. -/
def flag (fields : List (String × Json)) : Bool := ((Dict.get "enabled" fields).getD (.bool true)).truthy

/-- `modules[mid] = {**(modules.get(mid) or {}), "enabled": enabled}`, for each of the ids. -/
def setFlags (enabled : Bool) (ids : List String) (modules : Records) : Except String Records :=
  ids.foldlM
    (fun modules id => do
      let fields ← record modules id
      return Dict.set id (.obj (Dict.set "enabled" (.bool enabled) fields)) modules)
    modules

/-- `replacement_model`. -/
def replacementModel (manifests : Manifests) (modules : Records) : Except String HelperModel :=
  manifests.mapM fun p => do
    let fields ← record modules p.1
    return (p.1, { p.2 with enabled := flag fields })

/-! ## The state file -/

/-- What `urlsplit` answers, as far as it is read. -/
structure UrlParts where
  scheme : String
  hostname : Option String
  port : Option Nat
  path : String

/-- `strip_repository_url`, where `urlsplit` answers nothing when it or a part it is asked for raises. -/
def stripRepositoryUrl (urlsplit : String → Option UrlParts) : Json → String
  | .str value =>
    match urlsplit (String.ofList (strip value.toList)) with
    | none => ""
    | some parts =>
      let host := parts.hostname.getD ""
      if parts.scheme.toLower ∉ ["http", "https"] ∨ host = "" then ""
      else
        let host := if host.contains ':' then "[" ++ host ++ "]" else host
        parts.scheme.toLower ++ "://" ++ host ++ parts.port.elim "" (fun port => ":" ++ toString port) ++
          String.ofList (parts.path.toList.takeWhile (· ≠ ';'))
  | _ => ""

/-- `scrub_state_sources`, for one record. -/
def scrubRecord (urlsplit : String → Option UrlParts) : Json → Json
  | .obj fields =>
    match Dict.get "source" fields with
    | some (.obj source) =>
      match Dict.get "repository_url" source with
      | some url => .obj (Dict.set "source" (.obj (Dict.set "repository_url" (.str (stripRepositoryUrl urlsplit url)) source)) fields)
      | none => .obj fields
    | _ => .obj fields
  | j => j

/-- `module-state.json`. -/
inductive StateFile where
  | absent
  | unreadable
  | json (j : Json)
  deriving DecidableEq

/-- The top-level pairs of the state. -/
abbrev State := List (String × Json)

/-- `state["modules"]`. -/
def State.modules (s : State) : Records :=
  match Dict.get "modules" s with
  | some (.obj kvs) => kvs
  | _ => []

/-- `load_module_state_unlocked(mutation=True)`. -/
def loadModuleState : StateFile → Except String State
  | .absent => .ok [("schema", .num 1), ("modules", .obj [])]
  | .unreadable => .error "module-state.json is unreadable; refusing to overwrite it"
  | .json (.obj payload) =>
    let payload' := if (Dict.get "schema" payload).isSome then payload else Dict.set "schema" (.num 1) payload
    match Dict.get "modules" payload with
    | none => .ok (Dict.set "modules" (.obj []) payload')
    | some (.obj _) => .ok payload'
    | some _ => .error "module-state.json has an invalid structure; refusing to overwrite it"
  | .json _ => .error "module-state.json has an invalid structure; refusing to overwrite it"

/-- `save_module_state_unlocked`: the file is replaced at once, so a write that fails leaves it. -/
def saveModuleState (urlsplit : String → Option UrlParts) (fault : Option String) (s : State) : Except String StateFile := do
  Raise.require (!((Dict.get "_corrupt" s).getD .null).truthy) "corrupt module state cannot be saved"
  match fault with
  | some e => .error e
  | none => return .json (.obj (Dict.set "modules" (.obj (s.modules.map fun p => (p.1, scrubRecord urlsplit p.2))) s))

/-- `mutate_module_state`: what the callback answers, and the file afterwards. -/
def mutateModuleState {α : Type} (urlsplit : String → Option UrlParts) (fault : Option String)
    (callback : Records → Except String (α × Records)) (file : StateFile) : Except String α × StateFile :=
  let saved := do
    let s ← loadModuleState file
    let (answer, modules) ← callback s.modules
    let file ← saveModuleState urlsplit fault (Dict.set "modules" (.obj modules) s)
    return (answer, file)
  match saved with
  | .ok (answer, file') => (.ok answer, file')
  | .error e => (.error e, file)

/-! ## The check -/

/-- `replacement_category_ok`. -/
def replacementCategoryOk (development : Bool) (category : Category) : Bool :=
  if category = .premium then true else category == .unset && development

/-- `_version_within_declared`. -/
def versionWithinDeclared (declared registered : CapVersion) : Option String :=
  if registered.major ≠ declared.major then some "capability-major-mismatch"
  else if registered.minor < declared.minor ∨ (registered.minor = declared.minor ∧ registered.patch < declared.patch) then
    some "capability-version-lower"
  else none

/-- The loop over the capabilities of the replaced module. -/
def capabilitiesReason (expected : List (String × CapVersion)) (offered : List (String × CapVersion)) : Option String :=
  (sortedIds (expected.map Prod.fst)).foldl
    (fun (reason : Option String) cap =>
      match Dict.get cap expected with
      | none => reason
      | some want =>
        let code :=
          match Dict.get cap offered with
          | none => some "capability-missing"
          | some have_ => versionWithinDeclared want have_
        reason <|> code)
    none

/-- `replacement_check`. -/
def replacementCheck (development : Bool) (model : HelperModel) (id : String) (assumeEnabled : Bool := false) : Option String :=
  match Dict.get id model with
  | none => some "target-missing"
  | some node =>
    if node.replaces = "" then some "target-missing"
    else if !node.enabled && !assumeEnabled then some "replacement-disabled"
    else if !replacementCategoryOk development node.category then some "replacement-category"
    else
      match Dict.get node.replaces model with
      | none => some "target-missing"
      | some target =>
        if !target.category.replaceable then some "target-not-core"
        else if target.enabled then some "target-enabled"
        else if model.any fun p => p.2.id != id && p.2.enabled && p.2.replaces == node.replaces then some "competing-replacement"
        else
          match target.capabilities with
          | none => some "capabilities-undeclared"
          | some expected => capabilitiesReason expected (node.capabilities.getD [])

/-! ## The plan of an enable job -/

/-- `_hypothetical_disable`, with nothing blocked. -/
def hypotheticalDisable (model : HelperModel) (node : HelperNode) : HelperModel × List String :=
  match Dict.get node.replaces model with
  | none => (model, [])
  | some target =>
    if !target.category.replaceable || !target.enabled then (model, [])
    else (Dict.set target.id { target with enabled := false } model, [target.id])

/-- What a module that replaces another disables when it is enabled, or the refusal. -/
def planReplaced (development : Bool) (model : HelperModel) (id : String) (node : HelperNode) : Except String (List String) :=
  if node.replaces = "" then .ok []
  else
    let plan := if node.enabled then (model, []) else hypotheticalDisable model node
    match replacementCheck development plan.1 id true with
    | some reason => .error ("module replacement rule refuses enabling " ++ id ++ ": " ++ reason)
    | none => .ok plan.2

/-- The enabled replacements of a disabled core or server module, or the refusal when one of them is in the same job. -/
def planReplacements (model : HelperModel) (moduleIds : List String) (id : String) (node : HelperNode) :
    Except String (List String) :=
  if node.category.replaceable && !node.enabled then
    let others := model.sorted.filter fun other => other.enabled && other.replaces == id
    match others.find? fun other => decide (other.id ∈ moduleIds) with
    | some other =>
      .error ("module replacement rule refuses enabling " ++ id ++ ": " ++ other.id ++
        " replaces it and is enabled in the same job")
    | none => .ok (others.map (·.id))
  else .ok []

/-- One turn of the loop of `plan_enable_disables`: the disables so far, and whether a replacement is switched off. -/
def planOne (development : Bool) (model : HelperModel) (moduleIds confirmed : List String) (acc : List String × Bool)
    (id : String) : Except String (List String × Bool) :=
  match Dict.get id model with
  | none =>
    if confirmed.isEmpty then .ok acc
    else .error ("cannot verify the module replacement rules for " ++ id ++ ": no trusted manifest")
  | some node => do
    let replaced ← planReplaced development model id node
    let replacements ← planReplacements model moduleIds id node
    return (acc.1 ++ replaced ++ replacements, acc.2 || !replacements.isEmpty)

/-- `sorted(set(ids) - set(others))`. -/
def sortedMinus (ids others : List String) : List String := sortedIds ((ids.filter fun id => decide (id ∉ others)).dedup)

/-- `plan_enable_disables`. -/
def planEnableDisables (development : Bool) (model : HelperModel) (moduleIds confirmed : List String)
    (replacementConfirmed : Bool) : Except String (List String) := do
  let planned ← moduleIds.foldlM (planOne development model moduleIds confirmed) ([], false)
  let disables := sortedMinus planned.1 moduleIds
  let unconfirmed := sortedMinus disables confirmed
  Raise.require unconfirmed.isEmpty
    ("module replacement would disable a module the operator did not confirm: " ++ String.intercalate ", " unconfirmed)
  Raise.require (!planned.2 || replacementConfirmed)
    "module replacement would switch off a replacement and the operator did not confirm the switch"
  return disables

/-! ## The plan of a disable job -/

/-- One confirmed module of `plan_hand_back`. -/
def handBackOne (model : HelperModel) (moduleIds : List String) (id : String) : Except String Unit :=
  match Dict.get id model with
  | none => .error ("cannot verify the hand-back of " ++ id ++ ": no trusted manifest")
  | some target => do
    let refuse (why : String) := "module replacement rule refuses enabling " ++ id ++ " as a hand-back: " ++ why
    Raise.require target.category.replaceable (refuse "it is not a core or server module")
    Raise.require (!target.enabled) (refuse "it is enabled already")
    let leaving := moduleIds.filter fun mid => (Dict.get mid model).any fun node => node.replaces == id && node.enabled
    Raise.require (!leaving.isEmpty) (refuse "no enabled replacement of it is being disabled")
    let rivals := (model.map Prod.snd).filter fun other => other.enabled && other.replaces == id && decide (other.id ∉ moduleIds)
    Raise.require rivals.isEmpty
      (refuse (String.intercalate ", " (sortedIds (rivals.map (·.id))) ++ " also replaces it and stays enabled"))

/-- `plan_hand_back`. -/
def planHandBack (model : HelperModel) (moduleIds confirmedEnable : List String) : Except String (List String) := do
  let ids := sortedIds confirmedEnable.dedup
  ids.forM (handBackOne model moduleIds)
  return ids

/-! ## The jobs -/

/-- `conflicted_replacement_ids`: the enabled replacements whose replaced module is also enabled. -/
def conflictedReplacementIds (model : HelperModel) : List String :=
  let pairs := (model.map Prod.snd).filter fun node =>
    node.replaces != "" && node.enabled &&
      (Dict.get node.replaces model).any fun target => target.enabled && target.category.replaceable
  sortedIds (pairs.map (·.id))

/-- The flags that the ids have. -/
def flags (modules : Records) (ids : List String) : Except String (List (String × Bool)) :=
  ids.mapM fun id => do
    let fields ← record modules id
    return (id, flag fields)

/-- What an enable job did: the records, the modules it disabled, the replacements it settled, and the flags that every
module it touched had before. -/
structure EnableResult where
  modules : Records
  disabled : List String
  reconciled : List String
  previous : List (String × Bool)

/-- The callback of `apply_enable_job`. -/
def applyEnableJob (development : Bool) (manifests : Manifests) (moduleIds confirmed : List String)
    (replacementConfirmed : Bool)
    (modules : Records) : Except String EnableResult := do
  let model ← replacementModel manifests modules
  let disables ← planEnableDisables development model moduleIds confirmed replacementConfirmed
  let previous ← flags modules (moduleIds ++ disables)
  let modules ← setFlags true moduleIds modules
  let modules ← setFlags false disables modules
  let after ← replacementModel manifests modules
  let reconciled := (conflictedReplacementIds after).filter fun id => decide (id ∉ moduleIds)
  let modules ← setFlags false reconciled modules
  return ⟨modules, disables, reconciled, previous ++ reconciled.map fun id => (id, true)⟩

/-- What a disable job did: the records, the modules it switched back on, and the flags that every module it touched had
before. -/
structure DisableResult where
  modules : Records
  enabled : List String
  previous : List (String × Bool)

/-- The modules a disable job switches back on: none, or the confirmed ones, checked. -/
def handBack (manifests : Manifests) (moduleIds confirmedEnable : List String) (modules : Records) :
    Except String (List String) :=
  if confirmedEnable.isEmpty then .ok []
  else do
    let model ← replacementModel manifests modules
    planHandBack model moduleIds confirmedEnable

/-- The callback of `apply_disable_job`. -/
def applyDisableJob (manifests : Manifests) (moduleIds confirmedEnable : List String) (modules : Records) :
    Except String DisableResult := do
  let enables ← handBack manifests moduleIds confirmedEnable modules
  let previous ← flags modules (moduleIds ++ enables.filter fun id => decide (id ∉ moduleIds))
  let modules ← setFlags false moduleIds modules
  let modules ← setFlags true enables modules
  return ⟨modules, enables, previous⟩

/-- `apply_enable_job` on the state file. -/
def enableJob (urlsplit : String → Option UrlParts) (fault : Option String) (development : Bool) (manifests : Manifests)
    (moduleIds confirmed : List String) (replacementConfirmed : Bool) (file : StateFile) : Except String EnableResult × StateFile :=
  mutateModuleState urlsplit fault
    (fun modules =>
      (applyEnableJob development manifests moduleIds confirmed replacementConfirmed modules).map fun r => (r, r.modules))
    file

/-- `apply_disable_job` on the state file. -/
def disableJob (urlsplit : String → Option UrlParts) (fault : Option String) (manifests : Manifests)
    (moduleIds confirmedEnable : List String) (file : StateFile) : Except String DisableResult × StateFile :=
  mutateModuleState urlsplit fault
    (fun modules => (applyDisableJob manifests moduleIds confirmedEnable modules).map fun r => (r, r.modules)) file

end Helper

end TecTac
