import Mathlib
import TecTac.Lib.Dict

/-!
# Module replacement

The rules of `module_replacement.py`: when a module may stand in for the core or server module it names, what enabling,
disabling and installing it switches on or off, and when an honoured replacement satisfies a dependency. The model of the
installed modules is a dictionary of nodes. `development` says whether the server is a development server, which
`module_category.is_development_server` reads from the configuration.
-/

namespace TecTac

/-! ## The nodes -/

/-- The category a manifest names, in lower case. -/
inductive Category where
  | unset | core | server | premium | test
  deriving DecidableEq, Repr

/-- A member of `REPLACEABLE_CATEGORIES`. -/
def Category.replaceable : Category → Bool
  | .core | .server => true
  | _ => false

/-- The version of a declared capability. The manifest readers take texts of the form X.Y.Z only, each a number of at most
six digits, so what `_parse_version` makes of the text is always there. -/
structure CapVersion where
  major : Nat
  minor : Nat
  patch : Nat
  major_lt : major < 1000000
  minor_lt : minor < 1000000
  patch_lt : patch < 1000000
  deriving DecidableEq

/-- `Node`: what the rules read of an installed module. -/
structure Node where
  id : String
  category : Category := .unset
  enabled : Bool := true
  replaces : String := ""
  capabilities : Option (List (String × CapVersion)) := none
  deriving DecidableEq

/-- The installed modules by id. -/
abbrev Model := List (String × Node)

/-- The values of a model in the order of their ids. -/
def Model.sorted (model : Model) : List Node := (model.map Prod.snd).insertionSort fun a b => a.id ≤ b.id

/-- `sorted(ids)`. -/
def sortedIds (ids : List String) : List String := ids.insertionSort (· ≤ ·)

/-! ## The check -/

/-- The reason codes. -/
inductive Reason where
  | replacementDisabled | targetMissing | targetNotCore | targetEnabled | competing | capsUndeclared | capMissing | capMajor
  | capLower | replacementCategory
  deriving DecidableEq, Repr

/-- The text of a reason code. -/
def Reason.code : Reason → String
  | .replacementDisabled => "replacement-disabled"
  | .targetMissing => "target-missing"
  | .targetNotCore => "target-not-core"
  | .targetEnabled => "target-enabled"
  | .competing => "competing-replacement"
  | .capsUndeclared => "capabilities-undeclared"
  | .capMissing => "capability-missing"
  | .capMajor => "capability-major-mismatch"
  | .capLower => "capability-version-lower"
  | .replacementCategory => "replacement-category"

/-- `MESSAGES`. -/
def Reason.message : Reason → String
  | .replacementDisabled => "The replacement module is disabled, so the core module keeps its routes and contracts."
  | .targetMissing => "The core module this module replaces is not installed."
  | .targetNotCore => "The module this module replaces is not a core or server module."
  | .targetEnabled =>
    "Both modules are enabled. Core does not run the replacement; it disables the replacement and keeps the module it replaces."
  | .competing => "Another enabled module also replaces the same module. Only one replacement can be enabled."
  | .capsUndeclared =>
    "The module it replaces does not declare its capabilities, so Core cannot check that the replacement covers them."
  | .capMissing => "The replacement does not publish every capability of the module it replaces."
  | .capMajor => "The replacement publishes a capability at a different major version from the replaced module's."
  | .capLower => "The replacement publishes a capability at a lower version than the replaced module's."
  | .replacementCategory =>
    "A replacement must be a Premium module. A module with no category counts as Test, and Core honours that on a development server only."

/-- `CONFLICT_REASONS`. -/
def Reason.isConflict : Reason → Bool
  | .targetEnabled | .competing => true
  | _ => false

/-- `version_within_declared`. -/
def versionWithinDeclared (declared registered : CapVersion) : Option Reason :=
  if registered.major ≠ declared.major then some .capMajor
  else if registered.minor < declared.minor ∨ (registered.minor = declared.minor ∧ registered.patch < declared.patch) then
    some .capLower
  else none

/-- A capability that fails the comparison. -/
structure CapFailure where
  capability : String
  required : CapVersion
  declared : Option CapVersion
  reason : Reason
  deriving DecidableEq

/-- One capability of the comparison. -/
def capReason (want : CapVersion) : Option CapVersion → Option Reason
  | none => some .capMissing
  | some have_ => versionWithinDeclared want have_

/-- `parity`: the first reason, and one row for each capability that fails. -/
def parity (replaced replacement : Node) : Option Reason × List CapFailure :=
  let expected := replaced.capabilities.getD []
  let offered := replacement.capabilities.getD []
  (sortedIds (expected.map Prod.fst)).foldl
    (fun (acc : Option Reason × List CapFailure) cap =>
      match Dict.get cap expected with
      | none => acc
      | some want =>
        match capReason want (Dict.get cap offered) with
        | none => acc
        | some code => (acc.1 <|> some code, acc.2 ++ [⟨cap, want, Dict.get cap offered, code⟩]))
    (none, [])

/-- `module_category.replacement_category_ok`. -/
def replacementCategoryOk (development : Bool) (category : Category) : Bool :=
  category == .premium || (category == .unset && development)

/-- Another enabled module of the model replaces the same target. -/
def Model.competing (model : Model) (id target : String) : Bool :=
  model.any fun p => p.2.id != id && p.2.enabled && p.2.replaces == target

/-- `check`: none when the replacement is honoured, else the first refusal, with the failing capabilities. -/
def check (development : Bool) (model : Model) (id : String) (assumeEnabled : Bool := false) :
    Option Reason × List CapFailure :=
  match Dict.get id model with
  | none => (some .targetMissing, [])
  | some node =>
    if node.replaces = "" then (some .targetMissing, [])
    else if !node.enabled && !assumeEnabled then (some .replacementDisabled, [])
    else if !replacementCategoryOk development node.category then (some .replacementCategory, [])
    else
      match Dict.get node.replaces model with
      | none => (some .targetMissing, [])
      | some target =>
        if !target.category.replaceable then (some .targetNotCore, [])
        else if target.enabled then (some .targetEnabled, [])
        else if model.competing id node.replaces then (some .competing, [])
        else if target.capabilities.isNone then (some .capsUndeclared, [])
        else parity target node

/-! ## The plans -/

/-- `_with_enabled`. -/
def withEnabled (model : Model) (changes : List (String × Bool)) : Model :=
  changes.foldl
    (fun out change =>
      match Dict.get change.1 out with
      | none => out
      | some node => if node.enabled ≠ change.2 then Dict.set change.1 { node with enabled := change.2 } out else out)
    model

/-- `_hypothetical`: the model once `node` is enabled and the module it replaces is disabled, and that module's id. -/
def hypothetical (model : Model) (node : Node) (willEnable : Bool) (blocked : List String := []) : Model × List String :=
  match Dict.get node.replaces model with
  | none => (model, [])
  | some target =>
    if !willEnable || !target.category.replaceable || !target.enabled || decide (target.id ∈ blocked) then (model, [])
    else (withEnabled model [(target.id, false)], [target.id])

/-- `replacements_of`: the enabled modules that replace an installed core or server module. -/
def replacementsOf (model : Model) (id : String) : List String :=
  match Dict.get id model with
  | none => []
  | some target =>
    if !target.category.replaceable then []
    else
      let others := (model.map Prod.snd).filter fun other => other.enabled && other.replaces == id && other.id != id
      sortedIds (others.map (·.id))

/-- `switches_replacement`. -/
def switchesReplacement (model : Model) (id : String) : Bool :=
  match Dict.get id model with
  | none => false
  | some node => !node.enabled && !(replacementsOf model id).isEmpty

/-- `hand_back_plan`. -/
def handBackPlan (model : Model) (id : String) : List String :=
  match Dict.get id model with
  | none => []
  | some node =>
    if node.replaces = "" || !node.enabled then []
    else
      match Dict.get node.replaces model with
      | none => []
      | some target =>
        if !target.category.replaceable || target.enabled then []
        else if model.competing id node.replaces then []
        else [target.id]

/-- `disable_plan`. -/
def disablePlan (development : Bool) (model : Model) (id : String) : List String :=
  match Dict.get id model with
  | none => []
  | some node =>
    if node.enabled then []
    else if node.replaces = "" then replacementsOf model id
    else
      let plan := hypothetical model node true
      if plan.2.isEmpty then []
      else if (check development plan.1 id true).1.isSome then [] else plan.2

/-- A problem of a replacement, as the lifecycle reports it. -/
structure ReplacementProblem where
  module : String
  replaces : String
  reason : Reason
  capabilities : List CapFailure
  deriving DecidableEq

/-- The type of the problem. -/
def ReplacementProblem.type (p : ReplacementProblem) : String :=
  if p.reason.isConflict then "replacement_conflict" else "replacement_incomplete"

/-- The message of the problem. -/
def ReplacementProblem.message (p : ReplacementProblem) : String := p.reason.message

/-- The problem of a check that has a reason. -/
def checkProblem (id replaces : String) (checked : Option Reason × List CapFailure) : List ReplacementProblem :=
  match checked.1 with
  | none => []
  | some reason => [⟨id, replaces, reason, checked.2⟩]

/-- `enable_problems`. -/
def enableProblems (development : Bool) (model : Model) (id : String) : List ReplacementProblem :=
  match Dict.get id model with
  | none => []
  | some node =>
    if node.replaces = "" then []
    else checkProblem id node.replaces (check development (hypothetical model node (!node.enabled)).1 id true)

/-- `install_disables`: for each fresh candidate what its install would disable. -/
def installDisables (development : Bool) (model : Model) (candidates installed : List String) : List (String × List String) :=
  (sortedIds (candidates.dedup.filter fun id => decide (id ∉ installed))).filterMap fun id =>
    match Dict.get id model with
    | none => none
    | some node =>
      if node.replaces = "" then none
      else
        let plan := hypothetical model node true candidates
        if !plan.2.isEmpty && (check development plan.1 id true).1.isNone then some (id, plan.2) else none

/-- `satisfies_dependency`: the honoured replacement of a module. -/
def satisfiesDependency (development : Bool) (model : Model) (dep : String) : Option String :=
  (model.sorted.find? fun node => node.replaces == dep && node.enabled && (check development model node.id).1.isNone).map (·.id)

/-- `install_problems`. -/
def installProblems (development : Bool) (model : Model) (candidates installed : List String) : List ReplacementProblem :=
  model.sorted.flatMap fun node =>
    if node.replaces = "" then []
    else if node.id ∈ candidates then
      if node.id ∈ installed then checkProblem node.id node.replaces (check development model node.id true)
      else checkProblem node.id node.replaces (check development (hypothetical model node true candidates).1 node.id true)
    else if node.replaces ∈ candidates ∧ node.enabled = true then
      let checked := check development model node.id
      -- an upgrade of a module that was already enabled next to it does not make that worse
      if checked.1.any Reason.isConflict && decide (node.replaces ∈ installed) then [] else checkProblem node.id node.replaces checked
    else []

end TecTac
