import TecTac.ModuleManager

/-!
# The install plan

`resolve_install_plan` of `module_manager_v2.py`: the order in which the candidate packages are installed, the action of each,
what they disable, and the problems that make the plan invalid. The plan looks at a catalogue and at a replacement model as
they will be after the install. The preflight of an identity migration is a parameter.
-/

namespace TecTac

/-! ## Candidates and plans -/

/-- `_identity_migration_metadata`: the ids a module had before, and what is moved with it. -/
structure Migration where
  previousModuleIds : List String := []
  permissions : List (String × String) := []
  schedulerActions : List (String × String) := []
  uiRoutes : List (String × String) := []
  dashboardWidgets : List (String × String) := []
  deriving DecidableEq

/-- A candidate package, as `_package_metadata` reads it. -/
structure Candidate where
  id : String
  name : String := ""
  extensionVersion : String := ""
  category : Category := .unset
  replaces : String := ""
  capabilities : Option (List (String × CapVersion)) := none
  dependencies : List (String × String) := []
  optionalDependencies : List (String × String) := []
  runtimeRequirements : List RuntimeCheck := []
  migration : Migration := {}
  versionsMatch : Bool := true
  deriving DecidableEq

/-- The kinds of action of a plan. -/
inductive ActionKind where
  | install
  | replace
  | rename
  deriving DecidableEq

/-- An action of a plan. -/
structure PlanAction where
  id : String
  version : String
  action : ActionKind
  previousModuleId : Option String
  currentVersion : Option String
  dependencies : List (String × String)
  migration : Migration
  willDisable : List String
  deriving DecidableEq

/-- A problem of a plan. -/
inductive PlanProblem where
  | renameDestinationExists (module previous : String)
  | renameBreaksDependant (module dependency replacement constraint : String)
  | identityMigrationPreflight (module previous reason : String)
  | runtime (module : String) (check : RuntimeCheck)
  | missingDependency (module dependency constraint : String)
  | disabledDependency (module dependency constraint : String)
  | dependencyVersion (module dependency constraint version : String)
  | categoryRefused (module : String) (category : Category)
  | replacement (problem : ReplacementProblem)
  | breaksDependant (module dependency constraint version : String)
  | dependencyCycle (modules : List String)
  deriving DecidableEq

/-- An optional dependency of a candidate. -/
structure OptionalDependency where
  module : String
  dependency : String
  constraint : String
  installed : Bool
  satisfied : Bool
  deriving DecidableEq

/-- What `resolve_install_plan` answers. -/
structure Plan where
  problems : List PlanProblem
  optionalDependencies : List OptionalDependency
  order : List String
  actions : List PlanAction
  willDisable : List String
  deriving DecidableEq

/-- `plan["valid"]`. -/
def Plan.valid (plan : Plan) : Bool := plan.problems.isEmpty

/-! ## The models of the plan -/

/-- A row of the catalogue that the plan reads. -/
structure PlanRow where
  id : String
  extensionVersion : String
  enabled : Bool
  dependencies : List (String × String)
  deriving DecidableEq

/-- The rows of the plan, by id. -/
abbrev PlanRows := List (String × PlanRow)

/-- The installed catalogue without the legacy modules. -/
def planRows (catalog : List CatalogRow) : PlanRows :=
  (catalog.filter fun row => !row.legacy).map fun row => (row.id, ⟨row.id, row.extensionVersion, row.enabled, row.dependencies⟩)

/-- `_installed_rename_source`. -/
def installedRenameSource (installed : List String) (c : Candidate) : Except String (Option String) :=
  let previous := c.migration.previousModuleIds.filter fun id => decide (id ∈ installed)
  if 1 < previous.length then
    .error ("Module '" ++ c.id ++ "' declares multiple previous IDs that are installed: " ++ String.intercalate ", " previous ++ ".")
  else .ok previous.head?

/-- One candidate of `_future_catalog`. -/
def futureStep (installed : List String) (current : PlanRows) (c : Candidate) : Except String PlanRows := do
  let renameFrom ← installedRenameSource installed c
  let row : PlanRow := ⟨c.id, c.extensionVersion, true, c.dependencies⟩
  match renameFrom with
  | none => return Dict.set c.id row current
  | some old => if c.id ∈ installed then return current else return Dict.set c.id row (Dict.erase old current)

/-- `_future_catalog`. -/
def futureCatalog (rows : PlanRows) (candidates : List Candidate) : Except String PlanRows :=
  candidates.foldlM (futureStep (rows.map Prod.fst)) rows

/-- `_replacement_install_model`. -/
def replacementInstallModel (model : Model) (candidates : List Candidate) : Model :=
  candidates.foldl
    (fun model c =>
      let enabled :=
        match Dict.get c.id model with
        | some was => was.enabled
        | none => true
      Dict.set c.id ⟨c.id, c.category, enabled, c.replaces, c.capabilities⟩ model)
    model

/-! ## The order -/

/-- The loop over `remaining`, which keeps the packages in the order they were offered: the order, and the packages of a
dependency cycle. Every turn takes at least one package away, so the packages bound the number of turns. -/
def orderLoop : Nat → List (String × List String) → List String → List String × Option (List String)
  | 0, remaining, order => (order, if remaining.isEmpty then none else some (sortedIds (remaining.map Prod.fst)))
  | fuel + 1, remaining, order =>
    if remaining.isEmpty then (order, none)
    else
      let ready := (remaining.filter fun p => p.2.isEmpty).map Prod.fst
      if ready.isEmpty then (order, some (sortedIds (remaining.map Prod.fst)))
      else
        let rest := remaining.filter fun p => decide (p.1 ∉ ready)
        orderLoop fuel (rest.map fun p => (p.1, p.2.filter fun id => decide (id ∉ ready))) (order ++ ready)

/-- The ordering constraints among the candidates. -/
def orderGraph (candidates : List Candidate) : List (String × List String) :=
  candidates.map fun c => (c.id, (c.dependencies.map Prod.fst).filter fun id => decide (id ∈ candidates.map (·.id)))

/-! ## The problems -/

/-- The candidates that are installed under an id they had before, with that id. -/
def renameSources (installed : List String) (candidates : List Candidate) :
    Except String (List PlanProblem × List (String × String)) :=
  candidates.foldlM
    (fun acc c => do
      match ← installedRenameSource installed c with
      | none => return acc
      | some old =>
        if c.id ∈ installed then return (acc.1 ++ [.renameDestinationExists c.id old], acc.2)
        else return (acc.1, acc.2 ++ [(c.id, old)]))
    ([], [])

/-- The installed modules that depend on an id that a rename removes. -/
def renameBreaks (rows : PlanRows) (candidates : List Candidate) (sources : List (String × String)) : List PlanProblem :=
  sources.flatMap fun source => rows.filterMap fun p =>
    if p.1 ∈ candidates.map (·.id) ∨ p.2.enabled = false then none
    else (Dict.get source.2 p.2.dependencies).map fun constraint => .renameBreaksDependant p.1 source.2 source.1 constraint

/-- The problems of one hard dependency of a candidate. -/
def candidateDependency (site : Site) (future : PlanRows) (futureModel : Model) (c : Candidate) (d : String × String) :
    Except String (List PlanProblem) :=
  match Dict.get d.1 future with
  | none => .ok [.missingDependency c.id d.1 d.2]
  | some dep =>
    if !dep.enabled && (satisfiesDependency site.development futureModel d.1).isNone then .ok [.disabledDependency c.id d.1 d.2]
    else do
      let satisfied ← site.versionSatisfies (orZero dep.extensionVersion) d.2
      return if satisfied then [] else [.dependencyVersion c.id d.1 d.2 (orZero dep.extensionVersion)]

/-- The runtime and dependency problems of a candidate. -/
def candidateProblems (site : Site) (future : PlanRows) (futureModel : Model) (c : Candidate) :
    Except String (List PlanProblem) := do
  let dependencies ← c.dependencies.mapM (candidateDependency site future futureModel c)
  return (c.runtimeRequirements.filter fun check => !check.satisfied).map (.runtime c.id) ++ dependencies.flatten

/-- The optional dependencies of a candidate. -/
def candidateOptional (site : Site) (future : PlanRows) (c : Candidate) : Except String (List OptionalDependency) :=
  c.optionalDependencies.mapM fun d =>
    match Dict.get d.1 future with
    | none => return ⟨c.id, d.1, d.2, false, false⟩
    | some dep => do
      let satisfied ← site.versionSatisfies (orZero dep.extensionVersion) d.2
      return ⟨c.id, d.1, d.2, true, satisfied⟩

/-- `module_category.refusal_problem`: a missing category counts as test. -/
def categoryProblem (development : Bool) (c : Candidate) : List PlanProblem :=
  if (c.category = .unset ∨ c.category = .test) ∧ development = false then [.categoryRefused c.id c.category] else []

/-- The problem that an installed module has with the version of one candidate. -/
def breaksOne (site : Site) (future : PlanRows) (candidates : List Candidate) (row : PlanRow) (d : String × String) :
    Except String (List PlanProblem) :=
  if d.1 ∉ candidates.map (·.id) then .ok []
  else
    match Dict.get d.1 future with
    | none => .error "a candidate is not in the future catalogue"
    | some dep => do
      let satisfied ← site.versionSatisfies (orZero dep.extensionVersion) d.2
      return if satisfied then [] else [.breaksDependant row.id d.1 d.2 (orZero dep.extensionVersion)]

/-- The installed modules that depend on a candidate whose version does not suit them. -/
def breaksDependants (site : Site) (future : PlanRows) (candidates : List Candidate) : Except String (List PlanProblem) := do
  let rows := future.filter fun p => decide (p.1 ∉ candidates.map (·.id)) && p.2.enabled
  let problems ← rows.mapM fun p => do
    let found ← p.2.dependencies.mapM (breaksOne site future candidates p.2)
    return found.flatten
  return problems.flatten

/-! ## The plan -/

/-- `preflight_identity_migration`: why a module cannot take over the id of another, or nothing. -/
abbrev Preflight := (old new : String) → Migration → Option String

/-- The action of one candidate. -/
def planAction (rows : PlanRows) (sources : List (String × String)) (disables : List (String × List String)) (c : Candidate) :
    PlanAction :=
  let renameFrom := Dict.get c.id sources
  { id := c.id
    version := c.extensionVersion
    action := if renameFrom.isSome then .rename else if (Dict.get c.id rows).isSome then .replace else .install
    previousModuleId := renameFrom
    currentVersion := (Dict.get (renameFrom.getD c.id) rows).map (·.extensionVersion)
    dependencies := c.dependencies
    migration := c.migration
    willDisable := (Dict.get c.id disables).getD [] }

/-- `resolve_install_plan`. -/
def resolveInstallPlan (site : Site) (preflight : Preflight) (file : Helper.StateFile) (candidates : List Candidate) :
    Except String Plan := do
  let ids := candidates.map (·.id)
  Raise.require (!candidates.isEmpty) "Install plan contains no packages."
  Raise.require (decide ids.Nodup) "Install plan contains duplicate module IDs."
  let rows := planRows (← installedCatalogV2 site file)
  let installed := rows.map Prod.fst
  let future ← futureCatalog rows candidates
  let model := replacementInstallModel (liveModel site file) candidates
  let disables := installDisables site.development model ids installed
  let futureModel := withEnabled model (disables.flatMap fun p => p.2.map fun id => (id, false))
  let (destinations, sources) ← renameSources installed candidates
  let preflights := sources.filterMap fun source =>
    (candidates.find? (·.id = source.1)).bind fun c =>
      (preflight source.2 source.1 c.migration).map fun reason => PlanProblem.identityMigrationPreflight source.1 source.2 reason
  let dependencies ← candidates.mapM (candidateProblems site future futureModel)
  let optional ← candidates.mapM (candidateOptional site future)
  let breaks ← breaksDependants site future candidates
  let (order, cycle) := orderLoop (candidates.length + 1) (orderGraph candidates) []
  return {
    problems := destinations ++ renameBreaks rows candidates sources ++ preflights ++ dependencies.flatten ++
      candidates.flatMap (categoryProblem site.development) ++
      (installProblems site.development model ids installed).map .replacement ++ breaks ++ cycle.toList.map .dependencyCycle
    optionalDependencies := optional.flatten
    order := order
    actions := order.filterMap fun id => (candidates.find? (·.id = id)).map (planAction rows sources disables)
    willDisable := sortedIds (disables.flatMap (·.2)).dedup }

end TecTac
