import TecTac.Lib.Dict

/-!
# The copies of a recovery bundle

`store_local`, `store_destination`, `destination_results_strongly_verified` and what `operation_create_backup` of `server-backup-helper.py` does once the bundle is created and validated. A
local folder is given by the files it has; a store anywhere else comes to an outcome. A destination is validated, so its path is resolved.
-/

namespace TecTac

namespace RecoveryCopies

/-- `DEFAULT_LOCAL_RECOVERY_ROOT`. -/
def defaultLocalRecoveryRoot : String := "/rmmbackups"

/-- The bundle in the private staging folder, with what its metadata and its manifest say. -/
structure Bundle where
  name : String
  sizeBytes : Nat
  sha256 : String
  backupClass : String
  components : List (String × Bool)
  recoveryModes : List String

/-- What a store comes to beside the checks of names: the copy is published with its hash verified or, where the place has no such hash, without; or something fails. -/
inductive Outcome where
  | verified
  | weak
  | failed (reason : String)
  deriving DecidableEq

/-- A validated destination, with what a store there comes to. -/
structure Destination where
  id : String
  type : String
  name : String
  /-- Of a local destination. -/
  path : String
  outcome : Outcome

structure Folder where
  symlink : Bool := false
  files : List String := []

/-- A published copy with its sidecar and its hash file, verified in size and hash. -/
inductive Copy where
  | local (folder : String)
  | remote (destination : String)
  deriving DecidableEq

structure World where
  folders : String → Folder
  copies : List Copy := []

/-- What is reported of a destination. -/
structure Result where
  id : String
  type : String
  name : String
  ok : Bool
  sizeVerified : Bool := false
  hashVerified : Bool := false
  location : String := ""
  reason : String := ""
  deriving DecidableEq

/-- `destination_name`. -/
def destinationName (destination : Destination) : String :=
  if destination.name = "" then destination.type ++ ":" ++ destination.id else destination.name

/-- The archive, its sidecar and its hash file. -/
def fileNames (bundle : Bundle) : List String := [bundle.name, bundle.name ++ ".tectac.json", bundle.name ++ ".sha256"]

/-- A name of the bundle is taken in a folder. -/
def taken (w : World) (bundle : Bundle) (path : String) : Bool := (fileNames bundle).any (w.folders path).files.contains

/-- The bundle is published in a folder. -/
def publish (w : World) (bundle : Bundle) (path : String) : World :=
  { folders := Function.update w.folders path { w.folders path with files := fileNames bundle ++ (w.folders path).files }, copies := w.copies ++ [.local path] }

/-- `store_local`. Where the copy fails, what was published of it is taken away again. -/
def storeLocal (w : World) (destination : Destination) (bundle : Bundle) : Except String Result × World :=
  if (w.folders destination.path).symlink then (.error "local destination root may not be a symlink", w)
  else if taken w bundle destination.path then (.error "local recovery archive names are immutable; final archive, sidecar or hash already exists", w)
  else
    match destination.outcome with
    | .failed reason => (.error reason, w)
    | _ =>
      (.ok ⟨destination.id, "local", destinationName destination, true, true, true, destination.path ++ "/" ++ bundle.name, ""⟩, publish w bundle destination.path)

/-- `store_destination`. -/
def storeDestination (w : World) (destination : Destination) (bundle : Bundle) : Except String Result × World :=
  if destination.type = "local" then storeLocal w destination bundle
  else
    match destination.outcome with
    | .failed reason => (.error reason, w)
    | .weak => (.ok ⟨destination.id, destination.type, destinationName destination, true, true, false, bundle.name, ""⟩, w)
    | .verified => (.ok ⟨destination.id, destination.type, destinationName destination, true, true, true, bundle.name, ""⟩, { w with copies := w.copies ++ [.remote destination.id] })

/-- The stores of the destinations, one after the other. -/
def storeAll (w : World) (bundle : Bundle) : List Destination → List (Destination × Except String Result) × World
  | [] => ([], w)
  | destination :: rest =>
    let stored := storeDestination w destination bundle
    let others := storeAll stored.2 bundle rest
    ((destination, stored.1) :: others.1, others.2)

/-- What is reported of a store. -/
def report : Destination × Except String Result → Result
  | (_, .ok result) => result
  | (destination, .error reason) => { id := destination.id, type := destination.type, name := destinationName destination, ok := false, reason := reason }

/-- `destination_results_strongly_verified`. -/
def destinationResultsStronglyVerified (results : List Result) : Bool := !results.isEmpty && results.all fun result => result.ok && result.sizeVerified && result.hashVerified

/-- The result of `operation_create_backup`. -/
structure Overall where
  ok : Bool
  archiveName : String
  localPath : Option String
  sizeBytes : Nat
  sha256 : String
  backupClass : String
  formatVersion : Nat := 2
  components : List (String × Bool)
  recoveryModes : List String
  destinations : List Result
  localStagingRemoved : Option Bool := none
  localStagingRetainedReason : Option String := none
  localRetentionError : Option String := none

/-- The operation returns its result, raises `OperationFailed` with it, or raises another exception. -/
inductive Ended where
  | returned (overall : Overall)
  | failed (overall : Overall)
  | raised (reason : String)

/-- `fallback_destination`, with what the store there comes to. -/
def fallbackDestination (outcome : Outcome) : Destination := ⟨"local-staging", "local", "Local recovery storage", defaultLocalRecoveryRoot, outcome⟩

/-- `retain_local_fallback`: the path of the copy. -/
def retainLocalFallback (w : World) (bundle : Bundle) (outcome : Outcome) : Except String String × World :=
  let stored := storeLocal w (fallbackDestination outcome) bundle
  (stored.1.map fun _ => defaultLocalRecoveryRoot ++ "/" ++ bundle.name, stored.2)

def overallOf (bundle : Bundle) (localPath : Option String) (results : List Result) : Overall where
  ok := results.all Result.ok
  archiveName := bundle.name
  localPath := localPath
  sizeBytes := bundle.sizeBytes
  sha256 := bundle.sha256
  backupClass := bundle.backupClass
  components := bundle.components
  recoveryModes := bundle.recoveryModes
  destinations := results

/-- The result of a bundle that is retained although every store was ok. -/
def retained (overall : Overall) (path : String) : Overall :=
  { overall with
    localPath := some path
    localStagingRemoved := some false
    localStagingRetainedReason := some "one or more destination copies lack strong SHA-256 verification" }

/-- The last part of `operation_create_backup`, once all stores have ended. -/
def finish (w : World) (bundle : Bundle) (overall : Overall) (fallback : Outcome) : Ended × World :=
  if overall.ok = false then
    match retainLocalFallback w bundle fallback with
    | (.error reason, w) => (.failed { overall with localStagingRemoved := some true, localRetentionError := some reason }, w)
    | (.ok path, w) => (.failed { overall with localPath := some path, localStagingRemoved := some false }, w)
  else if destinationResultsStronglyVerified overall.destinations then (.returned { overall with localStagingRemoved := some true }, w)
  else
    match retainLocalFallback w bundle fallback with
    | (.error reason, w) => (.raised reason, w)
    | (.ok path, w) => (.returned (retained overall path), w)

/-- `operation_create_backup`, from the validated bundle on. -/
def createBackup (w : World) (bundle : Bundle) (destinations : List Destination) (fallback : Outcome) : Ended × World :=
  match destinations with
  | [] =>
    match retainLocalFallback w bundle fallback with
    | (.error reason, w) => (.raised reason, w)
    | (.ok path, w) => (.returned { overallOf bundle (some path) [] with localStagingRemoved := some false }, w)
  | destination :: rest =>
    let stored := storeAll w bundle (destination :: rest)
    finish stored.2 bundle (overallOf bundle none (stored.1.map report)) fallback

end RecoveryCopies

end TecTac
