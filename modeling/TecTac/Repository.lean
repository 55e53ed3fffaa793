import Mathlib
import TecTac.Version
import TecTac.Lib.Document

/-!
# Module repositories

`module_repository.py`: how the entries of a repository's index are checked and kept, and how a release is chosen among those that the caches hold. An
entry is any value of a JSON document. The addresses are judged outside: joining and parsing them is the standard library's, and the guard that resolves
them may refuse one.
-/

namespace TecTac

namespace Repository

/-- What the check of an entry raises: `ModuleRepositoryError`, `_RemoteAddressRefused` or `ValueError`. -/
inductive EntryError where
  | repository (text : String)
  | refused (text : String)
  | value (text : String)
  deriving DecidableEq

/-- The parts of an address that the check of a release notes link reads; `plain` is the address without its query, its fragment and its parameters. -/
structure NotesUrl where
  scheme : String
  hostname : Option String
  username : Option String
  password : Option String
  query : String
  fragment : String
  params : String
  plain : String

/-- What is outside: `repr`, the addresses, and the guard of remote addresses. -/
structure Web where
  repr : Doc → String
  urljoin : String → String → Except String String
  urlparse : String → Except String NotesUrl
  validateRemoteUrl : String → String → Except EntryError Unit

/-- A release as the cache keeps it. -/
structure Release where
  id : String
  name : String
  description : String
  version : String
  download : String
  downloadUrl : String
  sha256 : String
  signatureUrl : Option String
  releaseMetadataUrl : Option String
  dependencies : List (String × String)
  optionalDependencies : List (String × String)
  requires : List (String × String)
  channel : Option String
  lifecycle : Option String
  recommended : Option Bool
  downgradePolicy : Option String
  signingEnvironment : Option String
  releaseNotesUrl : Option String
  deriving DecidableEq

def maxSkippedText : Nat := 100

def maxSkippedReason : Nat := 300

def maxInformationalText : Nat := 64

/-- `_CONTROL_CHARACTERS`. -/
def isControl (c : Char) : Bool := decide (c.toNat ≤ 31) || decide (127 ≤ c.toNat ∧ c.toNat ≤ 159)

/-- `_CONTROL_CHARACTERS.sub("", value)`. -/
def withoutControls (s : String) : List Char := s.toList.filter fun c => !isControl c

/-- `_informational_text`. -/
def informationalText : Doc → Option String
  | .str s =>
    let text := String.ofList ((strip (withoutControls s)).take maxInformationalText)
    if text = "" then none else some text
  | _ => none

/-- `_plain_text`. -/
def plainText (limit : Nat) : Doc → Option String
  | .str s => some (String.ofList ((withoutControls s).take limit))
  | _ => none

/-- `str(fields.get(key, "")).strip()`. -/
def stripped (web : Web) (key : String) (fields : List (String × Doc)) : String :=
  String.ofList (strip (((Dict.get key fields).getD (.str "")).text web.repr).toList)

/-- `str(value or "").strip()`. -/
def strippedOr (web : Web) (v : Doc) : String := String.ofList (strip ((v.orElse (.str "")).text web.repr).toList)

/-- `[A-Za-z0-9_-]+`. -/
def isModuleId (s : String) : Bool := s != "" && s.toList.all fun c => Version.isAlphanumeric c || c == '_' || c == '-'

/-- `[0-9a-f]{64}`. -/
def isSha256 (s : String) : Bool := s.toList.length == 64 && s.toList.all fun c => ('0' ≤ c && c ≤ '9') || ('a' ≤ c && c ≤ 'f')

/-- The text of a `ModuleStateError`. -/
def stateText (web : Web) : StateError → String
  | .version value => "Invalid semantic version: " ++ web.repr (.str (String.ofList value))
  | .constraint value => "Invalid version constraint: " ++ web.repr (.str (String.ofList value))

/-- A `ModuleStateError` becomes a `ModuleRepositoryError` with its text. -/
def liftState (web : Web) {α : Type} : Except StateError α → Except EntryError α
  | .ok a => .ok a
  | .error e => .error (.repository (stateText web e))

/-- A `ValueError` of the standard library. -/
def liftValue {α : Type} : Except String α → Except EntryError α
  | .ok a => .ok a
  | .error text => .error (.value text)

/-- The constraint that an entry of a map is checked with: `str(constraint or "*")`. -/
def checkedText (web : Web) (v : Doc) : List Char := ((v.orElse (.str "*")).text web.repr).toList

/-- The constraint that is stored: `str(v)`. -/
def storedText (web : Web) (v : Doc) : String := v.text web.repr

/-- The check of one of the three maps. -/
def checkMapping (web : Web) (moduleId label : String) (mapping : Doc) : Except EntryError (List (String × Doc)) :=
  match mapping.pairs with
  | none => .error (.repository (moduleId ++ " " ++ label ++ " must be an object."))
  | some kvs => do
    kvs.forM fun kv => do
      let _ ← liftState web (versionSatisfies "0.0.0".toList (checkedText web kv.2))
    return kvs

def storedMapping (web : Web) (kvs : List (String × Doc)) : List (String × String) := kvs.map fun kv => (kv.1, storedText web kv.2)

/-- The release notes link, or nothing when it is not a plain https address. -/
def releaseNotesUrl (web : Web) (repoUrl : String) : Doc → Option String
  | .str ref =>
    if strip ref.toList ≠ [] ∧ ref.toList.length ≤ 500 ∧ ref.toList.all (fun c => !isControl c) then
      match web.urljoin repoUrl (String.ofList (strip ref.toList)) >>= web.urlparse with
      | .error _ => none
      | .ok notes =>
        if notes.scheme = "https" ∧ (notes.hostname.getD "") ≠ "" ∧ notes.username = none ∧ notes.password = none ∧ notes.query = "" ∧
            notes.fragment = "" ∧ notes.params = "" ∧ ref.toList.all fun c => c != '?' && c != '#' && c != ';' then some notes.plain
        else none
    else none
  | _ => none

/-- The address of something that an entry need not publish. -/
def optionalUrl (web : Web) (repoUrl ref : String) : Except EntryError (Option String) :=
  if ref = "" then .ok none else (liftValue (web.urljoin repoUrl ref)).map some

/-- `bool(url)`. -/
def published (url : Option String) : Bool := url.getD "" != ""

/-- The guard of the two addresses that are published together. -/
def checkPublished (web : Web) (trust : String) (signatureUrl metadataUrl : Option String) : Except EntryError Unit :=
  if published signatureUrl then do
    web.validateRemoteUrl trust (signatureUrl.getD "")
    web.validateRemoteUrl trust (metadataUrl.getD "")
  else .ok ()

/-- `_validate_release`. -/
def validateRelease (web : Web) (repoUrl trust : String) (raw : Doc) : Except EntryError Release :=
  match raw.pairs with
  | none => .error (.repository "Repository modules entries must be objects.")
  | some fields => do
    let moduleId := stripped web "id" fields
    let version := stripped web "version" fields
    let download := stripped web "download" fields
    let sha256 := String.ofList ((stripped web "sha256" fields).toList.map Char.toLower)
    Raise.require (moduleId != "" && version != "" && download != "")
      (.repository "Every repository module entry requires id, version and download.")
    Raise.require (isModuleId moduleId) (.repository ("Repository module id is invalid: " ++ web.repr (.str moduleId) ++
      ". Use only letters, digits, '-' and '_' (a dot is not allowed)."))
    Raise.require (isSha256 sha256) (.repository ("Repository module " ++ moduleId ++ " " ++ version ++ " requires a valid SHA-256 digest."))
    let _ ← liftState web (versionSatisfies version.toList ['*'])
    let dependencies ← checkMapping web moduleId "dependencies" ((Doc.field "dependencies" fields).orElse (.obj []))
    let optional ← checkMapping web moduleId "optional_dependencies" ((Doc.field "optional_dependencies" fields).orElse (.obj []))
    let requires ← checkMapping web moduleId "requires" ((Doc.field "requires" fields).orElse (.obj []))
    let absolute ← liftValue (web.urljoin repoUrl download)
    web.validateRemoteUrl trust absolute
    let signatureRef := strippedOr web (Doc.field "signature" fields)
    let metadataRef := strippedOr web ((Doc.field "release_metadata" fields).orElse (Doc.field "metadata" fields))
    let signatureUrl ← optionalUrl web repoUrl signatureRef
    let metadataUrl ← optionalUrl web repoUrl metadataRef
    Raise.require (published signatureUrl == published metadataUrl) (.repository ("Repository module " ++ moduleId ++ " " ++ version ++
      " must publish both signature and release_metadata together."))
    checkPublished web trust signatureUrl metadataUrl
    return {
      id := moduleId
      name := ((Doc.field "name" fields).orElse (.str moduleId)).text web.repr
      description := Doc.textField web.repr "description" fields
      version := version
      download := download
      downloadUrl := absolute
      sha256 := sha256
      signatureUrl := signatureUrl
      releaseMetadataUrl := metadataUrl
      dependencies := storedMapping web dependencies
      optionalDependencies := storedMapping web optional
      requires := storedMapping web requires
      channel := informationalText (Doc.field "channel" fields)
      lifecycle := informationalText (Doc.field "lifecycle" fields)
      recommended := match Doc.field "recommended" fields with
        | .bool b => some b
        | _ => none
      downgradePolicy := informationalText (Doc.field "downgrade_policy" fields)
      signingEnvironment := informationalText (Doc.field "signing_environment" fields)
      releaseNotesUrl := releaseNotesUrl web repoUrl (Doc.field "release_notes" fields) }

/-- A record of an entry that is not used. -/
structure Skipped where
  index : Nat
  id : Option String
  version : Option String
  reason : String
  deriving DecidableEq

/-- `_skipped_record` for a value of the index. -/
def skippedEntry (index : Nat) (raw : Doc) (reason : String) : Skipped :=
  let fields := raw.pairs.getD []
  ⟨index, plainText maxSkippedText (Doc.field "id" fields), plainText maxSkippedText (Doc.field "version" fields),
    (plainText maxSkippedReason (.str reason)).getD ""⟩

/-- `_skipped_record` for a release that was checked. -/
def skippedRelease (index : Nat) (release : Release) (reason : String) : Skipped :=
  ⟨index, plainText maxSkippedText (.str release.id), plainText maxSkippedText (.str release.version),
    (plainText maxSkippedReason (.str reason)).getD ""⟩

/-- What becomes of one entry: it is accepted or skipped; a refused address ends the whole index. -/
def sortEntry (web : Web) (repoUrl trust : String) (entry : Doc × Nat) : Except EntryError ((Nat × Release) ⊕ Skipped) :=
  match validateRelease web repoUrl trust entry.1 with
  | .ok release => .ok (.inl (entry.2, release))
  | .error (.refused text) => .error (.refused text)
  | .error (.repository text) | .error (.value text) => .ok (.inr (skippedEntry entry.2 entry.1 text))

/-- The key by which two releases are copies of each other. -/
def Release.key (r : Release) : String × String := (r.id, r.version)

/-- Whether no other accepted entry has the id and the version of this one. -/
def isOnly (accepted : List (Nat × Release)) (release : Release) : Bool :=
  !decide (1 < (accepted.map fun entry => entry.2.key).count release.key)

/-- `_accepted_releases`. -/
def acceptedReleases (web : Web) (repoUrl trust : String) (rawModules : List Doc) : Except EntryError (List Release × List Skipped) := do
  let sorted ← rawModules.zipIdx.mapM (sortEntry web repoUrl trust)
  let accepted := sorted.filterMap Sum.getLeft?
  let modules := (accepted.filter fun entry => isOnly accepted entry.2).map Prod.snd
  let duplicates := (accepted.filter fun entry => !isOnly accepted entry.2).map fun entry => skippedRelease entry.1 entry.2 "duplicate"
  Raise.require (rawModules.isEmpty || !modules.isEmpty) (.repository ("Every one of the " ++ toString rawModules.length ++
    " entries in the repository index was invalid, so the index was not used. The previous catalog is kept."))
  return (modules, (sorted.filterMap Sum.getRight? ++ duplicates).insertionSort fun a b => a.index ≤ b.index)

/-! ## The choice of a release -/

/-- A row of `_cached_modules`. -/
structure CachedRelease extends Release where
  repositoryId : String
  repositoryPriority : Int
  downloadUnavailable : Bool
  downloadUnavailableState : String

/-- The constraint that a newer release satisfies: `f">{version}"`. -/
def above (version : String) : List Char := '>' :: version.toList

/-- The loop that keeps the newest release, from a first one on. -/
def newest (first : CachedRelease) (others : List CachedRelease) : Except StateError CachedRelease :=
  others.foldlM (fun best item => do
    let newer ← versionSatisfies item.version.toList (above best.version)
    return if newer then item else best) first

/-- The order of the choices: by priority, by repository and by the text of the version. -/
def choiceLe (a b : CachedRelease) : Bool :=
  decide (a.repositoryPriority < b.repositoryPriority ∨ a.repositoryPriority = b.repositoryPriority ∧
    (a.repositoryId < b.repositoryId ∨ a.repositoryId = b.repositoryId ∧ a.version ≤ b.version))

/-- The repository whose releases are used: the one of the least priority, and of the least id among these. -/
def winningRepository (pool : List CachedRelease) : Option String :=
  ((pool.insertionSort fun a b => decide (a.repositoryPriority < b.repositoryPriority ∨ a.repositoryPriority = b.repositoryPriority ∧
    a.repositoryId ≤ b.repositoryId)).head?).map fun item => item.repositoryId

/-- The selection of `online_catalog` for one module. -/
def selectOnline (sourceRepository : Option String) (releases : List CachedRelease) : Except StateError (Option CachedRelease) :=
  let choices := releases.insertionSort fun a b => choiceLe a b
  let pinned := match sourceRepository with
    | some id => if id = "" then [] else choices.filter fun item => item.repositoryId == id
    | none => []
  let pool := if pinned.isEmpty then choices else pinned
  match winningRepository pool with
  | none => .ok none
  | some winning =>
    match pool.filter fun item => item.repositoryId == winning with
    | [] => .ok none
    | first :: others => (newest first others).map some

/-- The selection of `online_catalog` for every module that a cache offers; `source` is the repository that an installed module came from. -/
def onlineSelections (source : String → Option String) (cached : List CachedRelease) : Except StateError (List (String × Option CachedRelease)) :=
  let releases := cached.filter fun item => !item.downloadUnavailable
  ((releases.map fun item => item.id).dedup.insertionSort fun a b => a ≤ b).mapM fun moduleId => do
    let selected ← selectOnline (source moduleId) (releases.filter fun item => item.id == moduleId)
    return (moduleId, selected)

/-- What the selection of `stage_repository_package` raises: `ModuleRepositoryError`, or what the comparison of two versions raises. -/
inductive StageError where
  | notPresent
  | unavailable (state : String)
  | state (e : StateError)
  deriving DecidableEq

def liftStage {α : Type} : Except StateError α → Except StageError α
  | .ok a => .ok a
  | .error e => .error (.state e)

/-- The selection of `stage_repository_package` among the rows of one repository. -/
def stageSelection (licensing : Bool) (moduleId : String) (version : Option String) (cached : List CachedRelease) : Except StageError CachedRelease :=
  let named := cached.filter fun item => item.id == moduleId
  let candidates := match version with
    | some v => if v = "" then named else named.filter fun item => item.version == v
    | none => named
  match candidates with
  | [] => .error .notPresent
  | first :: others =>
    if candidates.all fun item => item.downloadUnavailable then
      -- a licensed release gives the reason of the newest one
      if licensing then do
        let last ← liftStage (newest first others)
        .error (.unavailable last.downloadUnavailableState)
      else .error (.unavailable (if candidates.all fun item => item.downloadUnavailableState == "credentials_rejected" then "credentials_rejected"
        else "repository_retired"))
    else
      match candidates.filter fun item => !item.downloadUnavailable with
      | [] => .error .notPresent
      | first :: others => liftStage (newest first others)

end Repository

end TecTac
