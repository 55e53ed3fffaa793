import TecTac.Lib.Document
import TecTac.Lib.PosixPath
import TecTac.Lib.Text

/-!
# What a recovery payload may write

The checks of `server-backup-helper.py` on the members of a Tec-Tac payload: `safe_tar_members`, which reads a name inside the archive, the allow-list of
`_validate_tec_tac_restore_member`, which compares texts, and `validate_tec_tac_component`. The payload is extracted below the root of the file system, where a
member is written to its name with dots resolved.
-/

namespace TecTac

namespace RecoveryPayload

inductive Kind where
  | file
  | dir
  | symlink
  | hardlink
  | other
  deriving DecidableEq

structure Member where
  name : List Char
  kind : Kind
  linkname : List Char

/-- One part of a path inside the archive; two dots may not lead out of it. -/
def enter (done : Option (List (List Char))) (part : List Char) : Option (List (List Char)) :=
  done.bind fun done => if part = ['.', '.'] then (if done = [] then none else some done.dropLast) else some (done ++ [part])

/-- `_normalize_tar_namespace_path`, as the names of the path. -/
def normalizeTarNamespacePath (raw : List Char) (base : List (List Char)) : Option (List (List Char)) :=
  let text := raw.map fun c => if c = '\\' then '/' else c
  if text = [] || text.contains '\x00' || PosixPath.isAbsolute text then none else (PosixPath.names text).foldl enter (some base)

/-- The links of a member lead to a place inside the archive, a hard link to one of its members. -/
def linkOk (normalized : List (List (List Char))) (member : Member) (path : List (List Char)) : Bool :=
  match member.kind with
  | .symlink => (normalizeTarNamespacePath member.linkname path.dropLast).isSome
  | .hardlink => (normalizeTarNamespacePath member.linkname []).any fun target => normalized.contains target
  | _ => true

/-- `safe_tar_members`: the paths of the members inside the archive. -/
def safeTarMembers (members : List Member) : Option (List (List (List Char))) := do
  let paths ← members.mapM fun member => normalizeTarNamespacePath member.name []
  let symlinks := ((members.zip paths).filter fun p => p.1.kind == .symlink).map Prod.snd
  if decide paths.Nodup && (members.all fun member => member.kind != .other) &&
      (paths.all fun path => !(path.dropLast.inits.any fun parent => parent != [] && symlinks.contains parent)) &&
      (members.zip paths).all fun p => linkOk paths p.1 p.2
  then some paths else none

/-- `name.lstrip("./")`. -/
def lstripDots (name : List Char) : List Char := name.dropWhile fun c => c == '.' || c == '/'

/-- `text.rstrip("/")`. -/
def rstripSlash (text : List Char) : List Char := (text.reverse.dropWhile fun c => c == '/').reverse

/-- The paths of the installation, as its configuration has them; what is missing is empty. -/
structure Config where
  tecTacRoot : List Char
  frameworkSource : List Char
  uiSource : List Char
  stateRoot : List Char
  moduleStateRoot : List Char

/-- `Path(folder) / name`. -/
def child (folder name : List Char) : List Char := if folder = [] then name else folder ++ '/' :: name

/-- One root of `_tec_tac_restore_allowed_roots`, as its names; `os.path.normpath` keeps two slashes at the start, but not one or three. -/
def allowedRoot (raw : List Char) : Option (List (List Char)) :=
  let value := PosixPath.resolve raw
  if PosixPath.isAbsolute raw && (value != [] || ("//".toList.isPrefixOf raw && !"///".toList.isPrefixOf raw)) then some value else none

/-- `_tec_tac_restore_allowed_roots`. -/
def tecTacRestoreAllowedRoots (config : Config) : Option (List (List (List Char))) :=
  let moduleStateRoot := if config.moduleStateRoot = [] then child config.stateRoot "module-manager".toList else config.moduleStateRoot
  [config.tecTacRoot, config.frameworkSource, config.uiSource, "/opt/tec-tac-ui".toList, "/etc/tec-tac".toList, "/etc/nginx/snippets/tec-tac.conf".toList,
    child moduleStateRoot "module-state.json".toList, child (child moduleStateRoot "repositories".toList) "repositories.json".toList].mapM allowedRoot

/-- What is kept from every payload beside the Tactical tree. -/
def forbidden : List (List (List Char)) :=
  [["etc".toList, "tec-tac".toList, "recovery-signing".toList], ["etc".toList, "tec-tac".toList, "recovery-trust".toList], ["etc".toList, "tec-tac".toList, "secrets".toList]]

/-- `_validate_tec_tac_restore_member`. -/
def validateTecTacRestoreMember (name : List Char) (config : Config) : Bool :=
  let rel := rstripSlash (lstripDots name)
  rel = [] ||
    (!(forbidden.any fun path => PosixPath.textAtOrBelow (PosixPath.join path) rel) &&
      (tecTacRestoreAllowedRoots config).any fun roots => roots.any fun root => PosixPath.textAtOrBelow (PosixPath.join root) rel)

/-- The name of a member is that of the Tactical tree or of something in it. -/
def isTactical (name : List Char) : Bool := PosixPath.textAtOrBelow "rmm".toList name

/-- `safe_extract_payload_tar` below the root of the file system: the checks before the extraction. -/
def safeExtractPayloadTar (members : List Member) (config : Config) : Bool :=
  (safeTarMembers members).isSome &&
    members.all fun member => !isTactical (lstripDots member.name) && validateTecTacRestoreMember (lstripDots member.name) config

/-- Where a member is written. -/
def Member.target (member : Member) : List (List Char) := PosixPath.resolve member.name

def durableStatePaths : List (List (List Char)) :=
  [["module-manager".toList, "module-state.json".toList], ["module-manager".toList, "repositories".toList, "repositories.json".toList]]

def canonicalStateRoot : List Char := "var/lib/tec-tac".toList

/-- `_validated_tec_tac_state_roots`; the roots are texts. -/
def validatedTecTacStateRoots (repr : Doc → String) (component : List (String × Doc)) : Option (List (List Char)) :=
  match (Doc.field "state_policy" component).orElse (.obj []) with
  | .obj policy =>
    let raw := strip (((Doc.field "state_root" policy).orElse (.str "/var/lib/tec-tac")).text repr).toList
    let rel := rstripSlash (raw.dropWhile fun c => c == '/')
    if PosixPath.isAbsolute raw && rel != [] && !(PosixPath.names rel).contains ['.', '.'] then some [canonicalStateRoot, rel] else none
  | _ => none

/-- The texts of the state files that a payload may hold. -/
def allowedStatePaths (roots : List (List Char)) : List (List Char) := roots.flatMap fun root => durableStatePaths.map fun path => root ++ '/' :: PosixPath.join path

/-- The check of a name against the state roots: below the first root that it is below, only the durable files are accepted. -/
def stateOk (roots : List (List Char)) (name : List Char) : Bool :=
  !(roots.any fun root => PosixPath.textAtOrBelow root name) || (allowedStatePaths roots).contains name

/-- The recorded paths of the component are safe. -/
def expectedPathsOk (repr : Doc → String) (component : List (String × Doc)) : Bool :=
  match (Doc.field "paths" component).orElse (.obj []) with
  | .obj paths => paths.all fun p =>
    let text := strip ((p.2.orElse (.str "")).text repr).toList
    !PosixPath.isAbsolute text || !(PosixPath.names (text.dropWhile fun c => c == '/')).contains ['.', '.']
  | _ => false

/-- `validate_tec_tac_component`. -/
def validateTecTacComponent (repr : Doc → String) (members : List Member) (component : List (String × Doc)) (config : Option Config) : Bool :=
  match validatedTecTacStateRoots repr component with
  | none => false
  | some roots =>
    let names := members.map fun member => lstripDots member.name
    (safeTarMembers members).isSome && !members.isEmpty &&
      (names.all fun name => !isTactical name && (config.all fun config => validateTecTacRestoreMember name config) && stateOk roots name) && expectedPathsOk repr component &&
      (names.any fun name => PosixPath.textAtOrBelow "opt/tec-tac".toList name || "opt/tec-tac-src/framework/".toList.isPrefixOf name) &&
      names.any fun name => PosixPath.textAtOrBelow "etc/tec-tac".toList name || "opt/tec-tac/etc/".toList.isPrefixOf name

end RecoveryPayload

end TecTac
