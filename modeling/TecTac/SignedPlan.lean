import Mathlib
import TecTac.Lib.Document
import TecTac.Lib.Raise
import TecTac.Lib.Text

/-!
# The install plan and the signed artifacts

The part of `module-v2-job-helper.py` that binds an install job to what the root verifier read in the signed artifacts. The
job is a document that an unprivileged process wrote; the trust results are what the verifier answered, one dictionary for
each artifact. The packages come from the artifacts, and `_validate_install_plan_against_signed_artifacts` compares the ids,
the versions, the order, the actions and the old ids of the job with the facts of the artifacts. An artifact is its hash and
the members of its archive; what raises is the text of the error.
-/

namespace TecTac

namespace Helper

/-- The pairs of a dictionary of a document. -/
abbrev Fields := List (String × Doc)

/-! ## Ids and texts -/

/-- A character that `PLUGIN_RE` allows. -/
def isPluginChar (c : Char) : Bool := c.isAlphanum || c == '_' || c == '-'

/-- `PLUGIN_RE.fullmatch`. -/
def isPluginId (id : String) : Bool := !id.toList.isEmpty && id.toList.all isPluginChar

/-- `text.strip()`. -/
def stripped (s : String) : String := String.ofList (strip s.toList)

/-- `set(a) == set(b)`. -/
def sameIds (a b : List String) : Bool := a.all (fun id => decide (id ∈ b)) && b.all fun id => decide (id ∈ a)

/-! ## The facts of the signed artifacts -/

/-- What is known of a module from its signed manifest. -/
structure Fact where
  version : String
  previousModuleIds : List String
  deriving DecidableEq

/-- The facts by module id. -/
abbrev Facts := List (String × Fact)

/-- One row of `artifact_modules`. -/
def addFact (repr : Doc → String) (facts : Facts) (row : Doc) : Except String Facts :=
  match row.pairs with
  | none => .error "the row is no dictionary"
  | some row => do
    let moduleId := Doc.textField repr "id" row
    Raise.require (isPluginId moduleId) "root verifier returned invalid module identity"
    Raise.require (Dict.get moduleId facts).isNone ("duplicate authenticated module id: " ++ moduleId)
    match ((Doc.field "previous_module_ids" row).orElse (.arr [])).members with
    | none => .error "not iterable"
    | some previous => return Dict.set moduleId ⟨Doc.textField repr "version" row, previous.map (Doc.text repr)⟩ facts

/-- `_authenticated_module_facts`. -/
def authenticatedModuleFacts (repr : Doc → String) (rootTrust : List Fields) : Except String Facts :=
  rootTrust.foldlM
    (fun facts trust =>
      match ((Doc.field "artifact_modules" trust).orElse (.arr [])).members with
      | none => .error "not iterable"
      | some rows => rows.foldlM (addFact repr) facts)
    []

/-! ## The packages -/

/-- A member of an archive; the name of a directory ends with a slash. -/
structure Member where
  name : String
  symlink : Bool := false

/-- A staged artifact. -/
structure Artifact where
  sha256 : String
  members : List Member

/-- The staged artifacts by path. -/
abbrev Staged := String → Option Artifact

/-- A package that is to be installed. -/
structure Package where
  id : String
  path : String
  version : String
  source : Doc

/-- A row of the package mapping of a bundle. -/
structure BundleFile where
  id : String
  file : String
  version : String

/-- `Path(name).parts`, for a path that is not absolute. -/
def pathParts (name : String) : List (List Char) := (name.toList.splitOn '/').filter fun part => part != [] && part != ['.']

/-- A file name that leads out of the bundle, or to nothing. -/
def unsafeFile (file : String) : Bool :=
  file.toList.head? == some '/' || (pathParts file).contains ['.', '.'] || (pathParts file).isEmpty

/-- One row of `artifact_package_files`. -/
def addBundleFile (repr : Doc → String) (result : List BundleFile) (row : Doc) : Except String (List BundleFile) :=
  match row.pairs with
  | none => .error "root verifier returned invalid bundle package mapping"
  | some row => do
    let moduleId := Doc.textField repr "id" row
    let filename := Doc.textField repr "file" row
    let version := Doc.textField repr "version" row
    Raise.require (isPluginId moduleId && filename != "" && version != "") "root verifier returned invalid bundle package mapping"
    Raise.require (!unsafeFile filename) "root verifier returned unsafe bundle package path"
    Raise.require (decide (moduleId ∉ result.map (·.id) ∧ filename ∉ result.map (·.file)))
      "root verifier returned duplicate bundle package mapping"
    return result ++ [⟨moduleId, filename, version⟩]

/-- `_authenticated_bundle_files`. -/
def authenticatedBundleFiles (repr : Doc → String) (trust : Fields) : Except String (List BundleFile) :=
  match (Doc.field "artifact_package_files" trust).items with
  | some (row :: rows) => (row :: rows).foldlM (addBundleFile repr) []
  | _ => .error "root verifier did not return authenticated bundle package mapping"

/-- `_require_expected_hash`. -/
def requireExpectedHash (actual : String) (expected : String) (label : String) : Except String Unit := do
  let expected := String.ofList ((strip expected.toList).map Char.toLower)
  Raise.require (expected != "") (label ++ " is missing package_sha256")
  Raise.require (actual == expected) (label ++ " SHA-256 changed after trust verification")

/-- `_validated_bundle_member_name`, without the slash at the end of a directory. -/
def validatedBundleMemberName (name : String) : Except String (List Char) := do
  let chars := name.toList
  Raise.require (!chars.isEmpty && !chars.contains '\\' && chars.head? != some '/') "unsafe path in bundle"
  let body := if chars.getLast? = some '/' then chars.dropLast else chars
  Raise.require (!body.isEmpty && (body.splitOn '/').all fun part => !([[], ['.'], ['.', '.']].contains part))
    "unsafe or aliased path in bundle"
  return body

/-- One member of a bundle: the paths that were seen, and the files among them. -/
def addMember (seen : List (List Char) × List (List Char)) (member : Member) : Except String (List (List Char) × List (List Char)) := do
  let key ← validatedBundleMemberName member.name
  Raise.require (decide (key ∉ seen.1)) "duplicate or aliased path in bundle"
  Raise.require (!member.symlink) "symlink entry in bundle is not allowed"
  return (key :: seen.1, if member.name.toList.getLast? = some '/' then seen.2 else key :: seen.2)

/-- `_extract_verified_bundle`: the files that were extracted. -/
def extractVerifiedBundle (source : Option Artifact) (expectedHash label : String) : Except String (List (List Char)) :=
  match source with
  | none => .error "root-private bundle snapshot is missing"
  | some artifact => do
    requireExpectedHash artifact.sha256 expectedHash label
    let seen ← artifact.members.foldlM addMember ([], [])
    return seen.2

/-- `_resolve_authenticated_bundle_packages`. -/
def resolveAuthenticatedBundlePackages (extract : String) (files : List (List Char)) (mapping : List BundleFile) (source : Doc) :
    Except String (List Package) :=
  mapping.mapM fun item => do
    let candidate := List.intercalate ['/'] (pathParts item.file)
    Raise.require (decide (candidate ∈ files)) ("authenticated bundle package file is missing: " ++ item.file)
    return ⟨item.id, extract ++ "/" ++ String.ofList candidate, item.version, source⟩

/-- `bundle_packages`. -/
def bundlePackages (repr : Doc → String) (staged : Staged) (job trust : Fields) : Except String (List Package) := do
  let path := ((Dict.get "bundle_path" job).getD (.str "")).text repr
  let files ← extractVerifiedBundle (staged path) (Doc.textField repr "package_sha256" trust) "bundle"
  let mapping ← authenticatedBundleFiles repr trust
  resolveAuthenticatedBundlePackages "bundle" files mapping (Doc.field "source" job)

/-- A package of an older job, as an artifact. -/
def packageArtifact (item : Doc) : Except String Doc :=
  match item.pairs with
  | none => .error "the package is no dictionary"
  | some fields => .ok (.obj (Dict.set "kind" (.str "package") fields))

/-- The artifacts of a batch; an older job names its packages only. -/
def batchArtifacts (job : Fields) : Except String (List Doc) :=
  match (Doc.field "artifacts" job).items with
  | some artifacts => .ok artifacts
  | none =>
    match ((Doc.field "packages" job).orElse (.arr [])).members with
    | none => .error "not iterable"
    | some items => items.mapM packageArtifact

/-- The one package of a standalone artifact. -/
def standalonePackage (repr : Doc → String) (artifact : Artifact) (path : String) (item trust : Fields) (seen : List String) :
    Except String Package :=
  match (Doc.field "artifact_modules" trust).items with
  | some [authenticated] =>
    match authenticated.pairs with
    | none => .error "root verifier returned invalid standalone module identity"
    | some authenticated => do
      let moduleId := Doc.textField repr "id" authenticated
      let version := Doc.textField repr "version" authenticated
      Raise.require (isPluginId moduleId && version != "") "root verifier returned invalid standalone module identity"
      Raise.require (decide (moduleId ∉ seen)) ("duplicate module id in batch: " ++ moduleId)
      requireExpectedHash artifact.sha256 (Doc.textField repr "package_sha256" trust) ("batch package " ++ moduleId)
      return ⟨moduleId, path, version, Doc.field "source" item⟩
  | _ => .error "root verifier must return exactly one authenticated module for a standalone batch package"

/-- A package of a bundle of a batch joins the packages. -/
def addPackage (result : List Package) (package : Package) : Except String (List Package) := do
  Raise.require (decide (package.id ∉ result.map (·.id))) ("duplicate module id in batch: " ++ package.id)
  return result ++ [package]

/-- One artifact of a batch. -/
def addArtifact (repr : Doc → String) (staged : Staged) (result : List Package) (entry : (Doc × Fields) × Nat) :
    Except String (List Package) :=
  match entry.1.1.pairs with
  | none => .error "the artifact is no dictionary"
  | some item => do
    let trust := entry.1.2
    let isBundle := ((Doc.field "kind" item).orElse (.str "package")).text repr == "bundle"
    let path :=
      if isBundle then (Doc.field "bundle_path" item).text repr else ((Dict.get "path" item).getD (.str "")).text repr
    match staged path with
    | none =>
      .error ("staged batch artifact missing: " ++
        (((Doc.field "id" item).orElse (Doc.field "bundle_id" item)).orElse (.num entry.2)).text repr)
    | some artifact =>
      if isBundle then do
        let files ← extractVerifiedBundle (some artifact) (Doc.textField repr "package_sha256" trust) ("batch bundle " ++ toString entry.2)
        let mapping ← authenticatedBundleFiles repr trust
        let expanded ← resolveAuthenticatedBundlePackages ("bundle-" ++ toString entry.2) files mapping (Doc.field "source" item)
        expanded.foldlM addPackage result
      else do
        let package ← standalonePackage repr artifact path item trust (result.map (·.id))
        return result ++ [package]

/-- `batch_packages`. -/
def batchPackages (repr : Doc → String) (staged : Staged) (job : Fields) (rootTrust : List Fields) : Except String (List Package) := do
  let artifacts ← batchArtifacts job
  Raise.require (rootTrust.length == artifacts.length) "root trust results do not match staged batch artifacts"
  (artifacts.zip rootTrust).zipIdx.foldlM (addArtifact repr staged) []

/-! ## The plan -/

/-- What is installed: the packages and the actions with the signed versions, and the order. -/
structure SignedPlan where
  packages : List Package
  order : List String
  actions : List Fields

/-- One package against its facts. -/
def checkPackage (facts : Facts) (item : Package) : Except String Package :=
  match Dict.get item.id facts with
  | none => .error "no facts"
  | some fact => do
    let supplied := stripped item.version
    Raise.require (supplied == "" || supplied == fact.version) ("install plan version mismatch for " ++ item.id)
    return { item with version := fact.version }

/-- One action against its facts. -/
def checkAction (repr : Doc → String) (facts : Facts) (action : Doc) : Except String Fields :=
  match action.pairs with
  | none => .error "install action is invalid"
  | some action =>
    let moduleId := Doc.textField repr "id" action
    match Dict.get moduleId facts with
    | none => .error "install action targets an unauthenticated module"
    | some fact => do
      let supplied := stripped (Doc.textField repr "version" action)
      Raise.require (supplied == "" || supplied == fact.version) ("install action version mismatch for " ++ moduleId)
      let previous := stripped (Doc.textField repr "previous_module_id" action)
      Raise.require (previous == "" || decide (previous ∈ fact.previousModuleIds))
        ("rename source for " ++ moduleId ++ " is not authorized by the signed module manifest")
      return Dict.set "version" (.str fact.version) action

/-- The plan of a job. -/
def planOf (job : Fields) : Fields := ((Doc.field "plan" job).pairs).getD []

/-- `_validate_install_plan_against_signed_artifacts`. -/
def validateInstallPlan (repr : Doc → String) (job : Fields) (packages : List Package) (rootTrust : List Fields) :
    Except String SignedPlan := do
  let facts ← authenticatedModuleFacts repr rootTrust
  let packageIds := packages.map (·.id)
  Raise.require (!packageIds.isEmpty && sameIds packageIds (facts.map Prod.fst))
    "install plan package identities do not match root-verified signed artifacts"
  let packages ← packages.mapM (checkPackage facts)
  match ((Doc.field "order" (planOf job)).orElse (.arr [])).members with
  | none => .error "not iterable"
  | some values => do
    let order := values.map (Doc.text repr)
    Raise.require (decide order.Nodup && sameIds order packageIds) "install order does not exactly match root-verified signed artifacts"
    match ((Doc.field "actions" (planOf job)).orElse (.arr [])).items with
    | none => .error "install actions are invalid"
    | some actions => do
      let actions ← actions.mapM (checkAction repr facts)
      let actionIds := actions.map (Doc.textField repr "id")
      Raise.require (sameIds actionIds packageIds && actionIds.length == packageIds.dedup.length)
        "install actions do not exactly match root-verified signed artifacts"
      return ⟨packages, order, actions⟩

/-- The packages of a job, by its action. -/
def jobPackages (repr : Doc → String) (staged : Staged) (job : Fields) (rootTrust : List Fields) : Except String (List Package) :=
  if (Doc.field "action" job).isText "bundle_install" then
    match rootTrust with
    | [] => .error "there is no trust result"
    | trust :: _ => bundlePackages repr staged job trust
  else batchPackages repr staged job rootTrust

/-- The install branch of `run_job` up to the install: the packages of the job, compared with the signed artifacts. -/
def signedPlan (repr : Doc → String) (staged : Staged) (job : Fields) (rootTrust : List Fields) : Except String SignedPlan := do
  let packages ← jobPackages repr staged job rootTrust
  let plan ← validateInstallPlan repr job packages rootTrust
  Raise.require (plan.order.all isPluginId) "invalid install order"
  return plan

/-- `rename_from` of `install_packages`: the old id that an action renames. -/
def renameFrom (repr : Doc → String) (action : Fields) : String :=
  if (Doc.field "action" action).isText "rename" then Doc.textField repr "previous_module_id" action else ""

end Helper

end TecTac
