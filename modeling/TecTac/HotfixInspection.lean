import TecTac.Hotfix
import TecTac.Lib.Document

/-!
# What is accepted of a hotfix archive

The two readers of a hotfix archive: `inspect_hotfix_archive` of `module_hotfix.py`, by which Core shows a hotfix, and the functions of `module-hotfix-job-helper.py` by
which root reads it again. Both look at the same installed module; `repr` writes the values that are neither texts nor whole numbers, `parse` reads the bytes of a
member as a UTF-8 document and `sha256` is the digest of a file's content.
-/

namespace TecTac

namespace Hotfix

open Raise

variable {Content : Type}

/-- A member of the archive. There is no data where `zf.read` raises. -/
structure Member (Content : Type) where
  filename : List Char
  link : Bool
  fileSize : Nat
  data : Option Content

/-- A file that is read as an archive; there are no members where it is no ZIP archive. -/
structure Archive (Content : Type) where
  size : Nat
  members : Option (List (Member Content))

/-- The file `tec_tac.json` of a component. -/
inductive Stored where
  | absent
  | unreadable
  | doc (d : Doc)

/-- An installed module. `root` are its resolved roots, `real` is where a path under one of them leads when its links are followed, and `file` are the regular
files at resolved paths. -/
structure Installed (Content : Type) where
  root : Component → List (List Char)
  real : Component → List (List Char) → List (List Char)
  file : List (List Char) → Option Content
  manifest : Component → Stored
  applied : Bool

/-- `path.replace("\\", "/")`. -/
def slashes (path : List Char) : List Char := path.map fun c => if c = '\\' then '/' else c

def Member.isDir (m : Member Content) : Bool := m.filename.getLast? == some '/'

def hotfixManifest : List Char := "tec_tac_hotfix.json".toList

def Component.word : Component → List Char
  | .extension => "extension".toList
  | .reportset => "reportset".toList

/-- The member with the file of a target. -/
def payloadMember (base : List Char) (target : Target) : List Char := base ++ "payload/".toList ++ target.component.word ++ ['/'] ++ target.path

/-- A path that the readers refuse in an archive. -/
def unsafeName (name : List Char) : Bool := PosixPath.isAbsolute name || (PosixPath.names name).contains ['.', '.']

/-- The folder of the manifest, with the slash that follows it. -/
def baseOf (member : List Char) : List Char :=
  match (PosixPath.names member).dropLast with
  | [] => []
  | folder => PosixPath.join folder ++ ['/']

/-- The members that are named as the manifest is. -/
def manifestMembers (members : List (Member Content)) : List (Member Content) :=
  members.filter fun m => !m.isDir && (PosixPath.names m.filename).getLast? == some hotfixManifest

/-- The one manifest of an archive: the folder it is in and the object that it holds. -/
def findManifest (parse : Content → Option Doc) (members : List (Member Content)) : Except Refusal (List Char × List (String × Doc)) :=
  match manifestMembers members with
  | [m] =>
    match m.data.bind parse with
    | some (.obj fields) => .ok (baseOf m.filename, fields)
    | _ => .error .invalidPackage
  | _ => .error .invalidPackage

/-- `schema == 1`. -/
def isSchemaOne : Doc → Bool
  | .num n => n == 1
  | .float x => x == 1
  | .bool b => b
  | _ => false

/-- The keys of an object are among these. -/
def onlyKeys (keys : List String) (fields : List (String × Doc)) : Bool := fields.all fun p => keys.contains p.1

/-- The `validation` that Core reads: an object, or nothing. -/
def validationOf (fields : List (String × Doc)) : Except Refusal (List (String × Doc)) :=
  match (Doc.field "validation" fields).orElse (.obj []) with
  | .obj validation => if onlyKeys ["python_compile", "django_check"] validation then .ok validation else .error .invalidPackage
  | _ => .error .invalidPackage

/-- `any_python`. -/
def anyPython (rows : List Row) : Bool := rows.any fun row => ".py".toList.isSuffixOf row.target.path

section Core

variable (repr : Doc → String)

/-- One row of `_normalize_manifest`: unlike root, Core takes blanks off and ignores the case of the component. -/
def normalizeRowCore : Doc → Except Refusal Row
  | .obj fields => do
    require (onlyKeys ["component", "path", "sha256_before", "sha256_after"] fields) .invalidTarget
    let component ← componentOf (stripText (Doc.textField repr "component" fields)).toLower
    let rel ← safeRelative (Doc.textField repr "path" fields).toList
    let before := (stripText (Doc.textField repr "sha256_before" fields)).toLower
    let after := (stripText (Doc.textField repr "sha256_after" fields)).toLower
    require (isSha256 before && isSha256 after) .invalidHash
    return ⟨⟨component, rel⟩, before, after⟩
  | _ => .error .invalidTarget

/-- The loop of `_normalize_manifest`, with the targets it has seen. -/
def normalizeRowsCore (seen : List Target) : List Doc → Except Refusal (List Row)
  | [] => .ok []
  | row :: rows => do
    let row ← normalizeRowCore repr row
    require (!seen.contains row.target) .duplicateTarget
    let rows ← normalizeRowsCore (row.target :: seen) rows
    return row :: rows

/-- What either reader makes of an archive: whom it is for, its rows with the members that hold their files, and what is done after the files are written. -/
structure Reading where
  moduleId : String
  hotfixId : String
  baseVersion : String
  rows : List (Row × List Char)
  effective : Effective

/-- `_normalize_manifest`. -/
def normalizeManifest (base : List Char) (fields : List (String × Doc)) : Except Refusal Reading := do
  require (onlyKeys ["type", "schema", "id", "module_id", "base_version", "description", "reload", "ui_sync", "validation", "targets"] fields) .invalidPackage
  require (Doc.isText "tec-tac-hotfix" (Doc.field "type" fields) && isSchemaOne (Doc.field "schema" fields)) .invalidPackage
  let hotfixId := stripText (Doc.textField repr "id" fields)
  let moduleId := stripText (Doc.textField repr "module_id" fields)
  let baseVersion := stripText (Doc.textField repr "base_version" fields)
  require (isHotfixId hotfixId && isModuleId moduleId && baseVersion != "") .invalidIdentity
  let reload := (stripText (((Doc.field "reload" fields).orElse (.str "none")).text repr)).toLower
  require (reload == "none" || reload == "django") .invalidPackage
  let validation ← validationOf fields
  match Doc.field "targets" fields with
  | .arr targets =>
    require (!targets.isEmpty && decide (targets.length ≤ 64)) .invalidTargetList
    let rows ← normalizeRowsCore repr [] targets
    let anyUi := rows.any fun row => row.target.component == .extension && (row.target.path == "ui".toList || "ui/".toList.isPrefixOf row.target.path)
    return ⟨moduleId, hotfixId, baseVersion, rows.map fun row => (row, payloadMember base row.target),
      ⟨anyPython rows || reload == "django", (Doc.field "ui_sync" fields).truthy || anyUi,
        (Doc.field "python_compile" validation).truthy || anyPython rows, (Doc.field "django_check" validation).truthy || anyPython rows⟩⟩
  | _ => .error .invalidTargetList

/-- `_manifest_version`. -/
def manifestVersion (moduleId : String) : Stored → Except Refusal String
  | .doc (.obj fields) => do
    require (Doc.textField repr "id" fields == moduleId) .identityMismatch
    let version := stripText (Doc.textField repr "version" fields)
    require (version != "") .versionMismatch
    return version
  | _ => .error .versionMismatch

/-- The version of the installed module, where there is a reportset also by that. -/
def installedVersion (moduleId : String) (installed : Installed Content) : Except Refusal String := do
  let version ← manifestVersion repr moduleId (installed.manifest .extension)
  match installed.manifest .reportset with
  | .absent => return version
  | stored => do
    let reportset ← manifestVersion repr moduleId stored
    require (version == reportset) .versionMismatch
    return version

end Core

def maxHotfixBytes : Nat := 25 * 1024 * 1024
def maxExpandedBytes : Nat := 50 * 1024 * 1024

/-- `_validate_archive_members`. -/
def validateArchiveMembers (members : List (Member Content)) : Except Refusal Unit := do
  require (members.all fun m => !unsafeName (slashes m.filename) && !m.link) .invalidPackage
  require (decide (members.map fun m => slashes m.filename).Nodup) .invalidPackage
  require (decide ((members.map Member.fileSize).sum ≤ maxExpandedBytes)) .invalidPackage

/-- The files beside the payload that may be in the archive. -/
def permittedFiles (base : List Char) : List (List Char) := [base ++ hotfixManifest, base ++ "README.md".toList, base ++ "README.txt".toList]

/-- The members that Core takes as payload, by the names with slashes. -/
def payloadMembers (base : List Char) (members : List (Member Content)) : List (Member Content) :=
  members.filter fun m => !m.isDir && !(permittedFiles base).contains (slashes m.filename)

/-- The checks of one target, which are the same for both: the file it leads to is below the root of its component, is a regular file, and holds what the row says.
After `resolve` there is no link left for `is_symlink` to find. -/
def checkTarget (sha256 : Content → String) (installed : Installed Content) (row : Row) : Except Refusal Unit := do
  let real := installed.real row.target.component (PosixPath.names row.target.path)
  require ((installed.root row.target.component).isPrefixOf real) .notRegular
  match installed.file real with
  | none => .error .notRegular
  | some content => require (sha256 content == row.sha256Before) .baseHashChanged

/-- The data of the last of these members with this name. -/
def dataOf (name : Member Content → List Char) (wanted : List Char) (members : List (Member Content)) : Except Refusal Content :=
  match (members.filter fun m => name m == wanted).getLast? with
  | none => .error .payloadMissing
  | some m =>
    match m.data with
    | none => .error .payloadMissing
    | some data => .ok data

/-- A row's payload is in the archive, and is what the row says. -/
def checkPayload (sha256 : Content → String) (name : Member Content → List Char) (members : List (Member Content)) (row : Row × List Char) : Except Refusal Unit := do
  let data ← dataOf name row.2 members
  require (sha256 data == row.1.sha256After) .payloadHashMismatch

section Readers

variable (repr : Doc → String) (parse : Content → Option Doc) (sha256 : Content → String)

/-- `inspect_hotfix_archive`. -/
def inspectHotfixArchive (archive : Archive Content) (installed : Installed Content) : Except Refusal Reading := do
  require (decide (archive.size ≤ maxHotfixBytes)) .invalidPackage
  match archive.members with
  | none => .error .invalidPackage
  | some members =>
    validateArchiveMembers members
    let (base, fields) ← findManifest parse members
    let reading ← normalizeManifest repr base fields
    let payload := payloadMembers base members
    require (payload.all fun m => (base ++ "payload/".toList).isPrefixOf (slashes m.filename)) .invalidPackage
    let version ← installedVersion repr reading.moduleId installed
    require (version == reading.baseVersion) .versionMismatch
    require (payload.all fun m => (reading.rows.map Prod.snd).contains (slashes m.filename)) .invalidPackage
    let _ ← reading.rows.mapM fun row => do
      checkPayload sha256 (fun m => slashes m.filename) payload row
      checkTarget sha256 installed row.1
    require (!installed.applied) .alreadyApplied
    return reading

/-- A row of the manifest as root reads it. -/
def manifestRow : Doc → Option ManifestRow
  | .obj fields => some ⟨Doc.textField repr "component" fields, Doc.textField repr "path" fields, Doc.textField repr "sha256_before" fields, Doc.textField repr "sha256_after" fields⟩
  | _ => none

/-- What root reads of the manifest. -/
def manifestOf (fields : List (String × Doc)) : Manifest :=
  let validation := (Doc.field "validation" fields).pairs.getD []
  ⟨Doc.textField repr "module_id" fields, Doc.textField repr "id" fields, Doc.textField repr "base_version" fields,
    (Doc.field "targets" fields).items.map fun targets => targets.map (manifestRow repr),
    Doc.isText "django" (Doc.field "reload" fields), (Doc.field "ui_sync" fields).truthy,
    (Doc.field "python_compile" validation).truthy, (Doc.field "django_check" validation).truthy⟩

/-- `load_archive_manifest`. -/
def loadArchiveManifest (members : List (Member Content)) : Except Refusal (List Char × List (String × Doc)) := do
  require (members.all fun m => !unsafeName m.filename && !m.link) .invalidPackage
  let (base, fields) ← findManifest parse members
  require (Doc.isText "tec-tac-hotfix" (Doc.field "type" fields) && isSchemaOne (Doc.field "schema" fields)) .invalidPackage
  return (base, fields)

/-- `module_version`. -/
def moduleVersion (moduleId : String) : Stored → Except Refusal String
  | .doc (.obj fields) => do
    require (Doc.isText moduleId (Doc.field "id" fields)) .identityMismatch
    let version := Doc.textField repr "version" fields
    require (version != "") .versionMismatch
    return version
  | _ => .error .versionMismatch

/-- What `apply_job` checks of an archive and the installed module before it writes a file. -/
def rootReading (archive : Archive Content) (installed : Installed Content) : Except Refusal Reading :=
  match archive.members with
  | none => .error .invalidPackage
  | some members => do
    let (base, fields) ← loadArchiveManifest parse members
    let manifest := manifestOf repr fields
    let (rows, effective) ← normalizeTargets manifest
    let rows := rows.map fun row => (row, payloadMember base row.target)
    let extension ← moduleVersion repr manifest.moduleId (installed.manifest .extension)
    let reportset ← moduleVersion repr manifest.moduleId (installed.manifest .reportset)
    require (extension == reportset && extension == manifest.baseVersion) .versionMismatch
    let _ ← rows.mapM (checkPayload sha256 Member.filename (members.filter fun m => !m.isDir))
    let _ ← rows.mapM fun row => checkTarget sha256 installed row.1
    return ⟨manifest.moduleId, manifest.id, manifest.baseVersion, rows, effective⟩

end Readers

end Hotfix

end TecTac
