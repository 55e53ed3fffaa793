import TecTac.InstallPlan

/-!
# What a plan leaves installed

The modules after the actions of a plan: a candidate is installed with the flag that is stored for it, under the id it had
before when it is renamed, and a fresh one is enabled; a rename removes the old id; and the modules that the plan disables are
off. A dependency is met when it is installed in a version that suits, and is enabled or has an honoured replacement.
-/

namespace TecTac

/-- An installed module: what the replacement rules read of it, its version and its hard dependencies. -/
structure Deployed where
  node : Node
  extensionVersion : String
  dependencies : List (String × String)
  deriving DecidableEq

/-- The installed modules by id. -/
abbrev Deployment := List (String × Deployed)

/-- What the replacement rules read of the installed modules. -/
def Deployment.model (deployment : Deployment) : Model := Dict.mapValues Deployed.node deployment

/-- The installed modules before a plan. -/
def deployment (site : Site) (file : Helper.StateFile) : Deployment :=
  (site.installed.filter fun m => !m.legacy).map fun m =>
    (m.id, ⟨⟨m.id, m.category, isEnabled file m.id, m.replaces, m.capabilities⟩, m.extensionVersion, m.dependencies⟩)

/-- The flag that is stored for a module, under the id it had before; a module that is not installed counts as enabled. -/
def storedFlag (before : Deployment) (id : String) : Bool := ((Dict.get id before).map (·.node.enabled)).getD true

/-- What an action does. -/
def carryOut (before : Deployment) (candidates : List Candidate) (now : Deployment) (a : PlanAction) : Deployment :=
  match candidates.find? (·.id = a.id) with
  | none => now
  | some c =>
    let flag := storedFlag before (a.previousModuleId.getD a.id)
    let module := ⟨⟨c.id, c.category, flag, c.replaces, c.capabilities⟩, c.extensionVersion, c.dependencies⟩
    Dict.move now ⟨a.id, module, a.previousModuleId⟩

/-- Switch modules off. -/
def switchedOff (ids : List String) (now : Deployment) : Deployment :=
  now.map fun p => (p.1, if p.1 ∈ ids then { p.2 with node := { p.2.node with enabled := false } } else p.2)

/-- The modules after all actions of a plan. -/
def afterPlan (site : Site) (file : Helper.StateFile) (candidates : List Candidate) (plan : Plan) : Deployment :=
  switchedOff plan.willDisable (plan.actions.foldl (carryOut (deployment site file) candidates) (deployment site file))

/-- A hard dependency is met. -/
def Met (site : Site) (now : Deployment) (d : String × String) : Prop :=
  ∃ m, Dict.get d.1 now = some m ∧
    (m.node.enabled = true ∨ (satisfiesDependency site.development now.model d.1).isSome = true) ∧
    site.versionSatisfies (orZero m.extensionVersion) d.2 = .ok true

/-- A module is installed and enabled. -/
def Enabled (now : Deployment) (id : String) : Prop := ∃ m, Dict.get id now = some m ∧ m.node.enabled = true

end TecTac
