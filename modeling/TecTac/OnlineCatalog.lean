import TecTac.Repository

/-!
# The online catalogue and the staging of a package

`module_repository.py`: the repositories of the configuration with their caches, the rows that a request reads from them, the release that the online
catalogue selects for a module, and the release that `stage_repository_package` picks in one repository. The availability of a licensed release is
`licensing_catalogue_source.py`'s.
-/

namespace TecTac

namespace Repository

deriving instance DecidableEq for CachedRelease

/-- A release as a cache keeps it. The last fields are those of a licensed release; `mark` is the state with which it was marked as not to be offered. -/
structure CacheEntry extends Release where
  entitled : Bool := false
  category : Option String := none
  availability : Option String := none
  mark : Option String := none
  deriving DecidableEq

/-- A cache file: whether it says that its repository is retired or has refused its credentials, and the releases. -/
structure Cache where
  retired : Bool
  credentialsRejected : Bool
  modules : List CacheEntry

/-- A repository of the configuration, with its cache if there is one; `licensing` is a `kind` of the Licensing source. -/
structure SourceRepository where
  id : String
  name : String
  enabled : Bool
  priority : Int
  licensing : Bool
  cache : Option Cache

/-- What the requests read besides: `str.lower`, whether this is a development server, and the repository that an installed module came from. -/
structure CatalogEnv where
  lower : String → String
  development : Bool
  source : String → Option String

/-- `_text`, with the limit that the licensing source gives it. -/
def cleanedText (limit : Nat) (s : String) : Option String :=
  let text := String.ofList ((strip (withoutControls s)).take limit)
  if text = "" then none else some text

/-- `_category`. -/
def categoryOf (env : CatalogEnv) (value : Option String) : Option String :=
  match value.bind (cleanedText 32) with
  | none => none
  | some text => if env.lower text ∈ ["core", "server", "premium"] then some (env.lower text) else none

/-- `value.strip().lower()`. -/
def strippedLower (env : CatalogEnv) (s : String) : String := env.lower (String.ofList (strip s.toList))

/-- `_unclassified_offered`. -/
def unclassifiedOffered (env : CatalogEnv) (item : CacheEntry) : Bool :=
  env.development && item.channel.any fun channel => strippedLower env channel == "development"

/-- `word in text`. -/
def isInText (word text : String) : Bool := decide (word.toList <:+: text.toList)

/-- `row_availability`: nothing for a release that is available, otherwise the state of one that is not. -/
def rowAvailability (env : CatalogEnv) (item : CacheEntry) : Option String :=
  if item.entitled = false then some "not_in_licence"
  else if (categoryOf env item.category).isNone ∧ unclassifiedOffered env item = false then some "unclassified"
  else
    let word := strippedLower env (item.availability.getD "")
    if word = "" ∨ word = "available" then none
    else if isInText "channel" word then some "blocked_by_channel"
    else if isInText "missing" word || isInText "dependen" word then some "missing_or_dependency"
    else some "entitled_unavailable"

/-- The keys of `ROW_TEXT`. -/
def rowStates : List String := ["entitled_unavailable", "blocked_by_channel", "missing_or_dependency", "not_in_licence", "unclassified"]

/-- `apply_availability`: a mark of a licensed row is worked out again, one that another rule has set stays. -/
def applyAvailability (env : CatalogEnv) (item : CacheEntry) (mark : Option String) : Option String :=
  match mark with
  | some state => if state ∈ rowStates then rowAvailability env item else some state
  | none => rowAvailability env item

/-- The state of a row that is not to be offered. -/
def rowMark (env : CatalogEnv) (repo : SourceRepository) (cache : Cache) (item : CacheEntry) : Option String :=
  let mark := if cache.credentialsRejected then some "credentials_rejected" else if cache.retired then some "repository_retired" else item.mark
  if repo.licensing then applyAvailability env item mark else mark

/-- A row of `_cached_modules`. -/
def cachedRow (env : CatalogEnv) (repo : SourceRepository) (cache : Cache) (item : CacheEntry) : CachedRelease :=
  { toRelease := item.toRelease
    repositoryId := repo.id
    repositoryPriority := repo.priority
    downloadUnavailable := (rowMark env repo cache item).isSome
    downloadUnavailableState := (rowMark env repo cache item).getD "" }

/-- `_cached_modules`. -/
def cachedModules (env : CatalogEnv) (repo : SourceRepository) : List CachedRelease :=
  match repo.cache with
  | none => []
  | some cache => cache.modules.map (cachedRow env repo cache)

/-- `list_repositories`: by priority and by name. -/
def listRepositories (repos : List SourceRepository) : List SourceRepository :=
  repos.insertionSort fun a b => a.priority < b.priority ∨ a.priority = b.priority ∧ a.name ≤ b.name

/-- The selection of `online_catalog`: for every module that an enabled repository offers, the release that is shown. -/
def onlineCatalog (env : CatalogEnv) (repos : List SourceRepository) : Except StateError (List (String × Option CachedRelease)) :=
  onlineSelections env.source (((listRepositories repos).filter fun repo => repo.enabled).flatMap (cachedModules env))

/-- What `stage_repository_package` raises before it fetches anything. -/
inductive PackageError where
  | repositoryNotFound (repositoryId : String)
  | repositoryDisabled
  | pinned (moduleId repositoryId : String)
  | selection (e : StageError)
  deriving DecidableEq

/-- The repository that a module is pinned to, unless it is the one asked for. -/
def pinnedElsewhere (env : CatalogEnv) (repositoryId moduleId : String) : Option String :=
  (env.source moduleId).filter fun pinned => pinned != "" && pinned != repositoryId

/-- `stage_repository_package` as far as the choice of the release. -/
def stagePackage (env : CatalogEnv) (repos : List SourceRepository) (repositoryId moduleId : String) (version : Option String) (allowSourceChange : Bool) :
    Except PackageError CachedRelease :=
  match repos.find? fun repo => repo.id == repositoryId with
  | none => .error (.repositoryNotFound repositoryId)
  | some repo =>
    if repo.enabled = false then .error .repositoryDisabled
    else
      match pinnedElsewhere env repositoryId moduleId, allowSourceChange with
      | some pinned, false => .error (.pinned moduleId pinned)
      | _, _ =>
        match stageSelection repo.licensing moduleId version (cachedModules env repo) with
        | .ok candidate => .ok candidate
        | .error e => .error (.selection e)

end Repository

end TecTac
