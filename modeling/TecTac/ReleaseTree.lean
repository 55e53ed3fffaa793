import TecTac.Lib.Cipher
import TecTac.Lib.Document
import TecTac.Lib.PosixPath
import TecTac.Lib.Raise
import TecTac.Lib.Text

/-!
# Signed release trees

The readers of `tec-tac-release.json`: `verify_release_tree` of `trusted_publishers.py`, and `stage_release_tree` and `verify_signed_tree_snapshot` of
`system-update-helper.py`. A tree is its files with the folders and the special files beside them; root reads it through a `View`, so that a file that is
changed between two reads is one that is seen differently at them.
-/

namespace TecTac

namespace ReleaseTree

open Raise

abbrev Bytes := List UInt8

/-- The names from the root of a tree. -/
abbrev Path := List (List Char)

structure File where
  data : Bytes
  executable : Bool
  deriving DecidableEq

/-- What stands at a path. A special file is a link or a device; `followed` says that something exists behind it. -/
inductive Found where
  | missing
  | special (followed : Bool)
  | dir
  | file (f : File)

abbrev View := Path → Found

def isPath (path : Path) : Bool := path != [] && path.all fun name => PosixPath.isName name && name != ['.', '.'] && !name.contains '/'

/-- A directory tree. A folder is listed where nothing is in it; others are seen by what they hold. -/
structure Tree where
  files : List (Path × File)
  dirs : List Path
  specials : List (Path × Bool)
  nodup : (files.map Prod.fst).Nodup
  apart : ∀ p ∈ files, ∀ q ∈ files, p.1 <+: q.1 → p.1 = q.1
  named : ∀ p ∈ files, isPath p.1 = true

def Tree.isDir (t : Tree) (path : Path) : Bool :=
  path == [] || t.dirs.any (fun dir => path.isPrefixOf dir) || t.files.any (fun p => path.isPrefixOf p.1) || t.specials.any fun p => path.isPrefixOf p.1

def Tree.view (t : Tree) : View := fun path =>
  match Dict.get path t.files, Dict.get path t.specials with
  | some f, _ => .file f
  | none, some followed => .special followed
  | none, none => if t.isDir path then .dir else .missing

/-- A tree of these files; two files at one path, or one below another, are refused by the file system. -/
def Tree.ofFiles (files : List (Path × File)) : Option Tree :=
  if h : (files.map Prod.fst).Nodup ∧ (∀ p ∈ files, ∀ q ∈ files, p.1 <+: q.1 → p.1 = q.1) ∧ ∀ p ∈ files, isPath p.1 = true then
    some ⟨files, [], [], h.1, h.2.1, h.2.2⟩
  else none

/-- The reader of JSON documents: `json.loads` of a text, and of bytes, which are UTF-8, UTF-16 or UTF-32. An object in UTF-8 is read from the bytes as from its text. -/
structure Reader where
  parse : String → Option Doc
  loads : Bytes → Option Doc
  utf8 : ∀ {raw : Bytes} {text : String} {fields : List (String × Doc)}, Bytes.decodeUtf8 raw = some text → parse text = some (.obj fields) → loads raw = some (.obj fields)

/-- A signing key of a trusted publisher, as `_publisher_policy` finds it; `verify` takes the bytes of the signature file and those that are signed. -/
structure PublisherKey where
  displayName : String
  environment : String
  granted : List String
  assurance : String
  verify : Bytes → Bytes → Bool

inductive Refusal where
  | materialIncomplete
  | materialInvalid
  | manifestInvalid
  | algorithmMismatch
  | componentInvalid
  | componentMismatch
  | versionInvalid
  | versionMismatch
  | publisherRefused
  | environmentMismatch
  | permissionDenied
  | signatureInvalid
  | fileCountInvalid
  | pathInvalid
  | duplicatePath
  | specialFile
  | treeMismatch
  | noManifest
  | fileMissing
  | fileDiffers
  | fileUnreadable
  | cannotWrite
  | noContext
  | manifestDiffers
  | signatureDiffers
  | fieldMismatch
  | countDiffers
  deriving DecidableEq

def treeManifest : String := "tec-tac-release.json"
def treeSignature : String := "tec-tac-release.json.sig"
def maxTreeFiles : Nat := 20000
def maxTreeManifestBytes : Nat := 8 * 1024 * 1024
def stageManifestMax : Nat := 16 * 1024 * 1024
def stageSignatureMax : Nat := 1024 * 1024

def manifestPath : Path := [treeManifest.toList]
def signaturePath : Path := [treeSignature.toList]

/-- `_tree_relative_path` and `_safe_tree_rel`. -/
def treeRelativePath (value : List Char) : Except Refusal (List Char) := do
  require (value != [] && !value.contains '\\' && !value.contains '\x00' && !PosixPath.isAbsolute value) .pathInvalid
  let parts := PosixPath.names value
  require (parts != [] && !parts.contains ['.', '.'] && !parts.contains ".git".toList) .pathInvalid
  require (PosixPath.join parts == value) .pathInvalid
  require (!(parts.length == 1 && (value == treeManifest.toList || value == treeSignature.toList))) .pathInvalid
  return value

/-- A row of `files`: the path, the size and the digest of a file. -/
abbrev Row := List Char × Nat × String

/-- `re.fullmatch(r"[0-9a-f]{64}", text)`. -/
def isDigest (s : String) : Bool := s.length == 64 && s.toList.all fun c => c.isDigit || (decide ('a' ≤ c) && decide (c ≤ 'f'))

/-- `set(fields) == keys`. -/
def hasExactly (keys : List String) (fields : List (String × Doc)) : Bool :=
  (fields.all fun p => keys.contains p.1) && keys.all fun key => (Dict.get key fields).isSome

/-- A byte size: a whole number that is no truth value and not negative. -/
def sizeOf : Doc → Except Refusal Nat
  | .num n => if 0 ≤ n then .ok n.toNat else .error .manifestInvalid
  | _ => .error .manifestInvalid

def pathOf : Doc → Except Refusal (List Char)
  | .str s => treeRelativePath s.toList
  | _ => .error .pathInvalid

section Readers

variable (repr : Doc → String)

/-- One entry of `files`; `clean` is what a reader takes off the text of the digest. -/
def readEntry (clean : String → String) : Doc → Except Refusal Row
  | .obj fields => do
    require (hasExactly ["path", "size", "sha256"] fields) .manifestInvalid
    let rel ← pathOf (Doc.field "path" fields)
    let size ← sizeOf (Doc.field "size" fields)
    let digest := (clean (Doc.textField repr "sha256" fields)).toLower
    require (isDigest digest) .manifestInvalid
    return (rel, size, digest)
  | _ => .error .manifestInvalid

/-- The loop over `files` of the two readers that want the paths in order: none is before the one before it, and none comes twice. -/
def declaredFrom (previous : Option (List Char)) : List Doc → Except Refusal (List Row)
  | [] => .ok []
  | entry :: entries => do
    let row ← readEntry repr stripText entry
    require (!previous.any fun path => decide (row.1 < path)) .manifestInvalid
    require (previous != some row.1) .duplicatePath
    let rows ← declaredFrom (some row.1) entries
    return row :: rows

/-- The loop over `files` of the reader that only wants them once. -/
def entriesFrom (seen : List (List Char)) : List Doc → Except Refusal (List Row)
  | [] => .ok []
  | entry :: entries => do
    let row ← readEntry repr id entry
    require (!seen.contains row.1) .duplicatePath
    let rows ← entriesFrom (row.1 :: seen) entries
    return row :: rows

/-- The file list: not empty and not too long. -/
def fileList : Doc → Except Refusal (List Doc)
  | .arr entries => if entries.isEmpty || decide (maxTreeFiles < entries.length) then .error .fileCountInvalid else .ok entries
  | _ => .error .fileCountInvalid

/-- `schema == 2`. -/
def isSchema : Doc → Bool
  | .num n => n == 2
  | .float x => x == 2
  | _ => false

/-- An entry of the tree that the comparison covers: what is in the root `.git` or under the names of the signing files is not. -/
def covered (path : Path) : Bool :=
  path.head? != some ".git".toList && path.head? != some treeManifest.toList && path.head? != some treeSignature.toList

def relOk (path : Path) : Bool := (treeRelativePath (PosixPath.join path)).toOption.isSome

variable (sha256 : Bytes → String)

/-- `_actual_release_tree` and `_tree_inventory`: the size and the digest of every file. -/
def actualReleaseTree (t : Tree) : Except Refusal (List Row) := do
  let files := t.files.filter fun p => covered p.1
  let paths := files.map Prod.fst ++ t.dirs.filter covered ++ (t.specials.map Prod.fst).filter covered
  require (paths.all relOk) .pathInvalid
  require (!t.specials.any fun p => covered p.1) .specialFile
  require (decide (files.length ≤ maxTreeFiles)) .fileCountInvalid
  return files.map fun p => (PosixPath.join p.1, p.2.data.length, sha256 p.2.data)

/-- `declared == actual`, for rows on distinct paths. -/
def sameRows (declared actual : List Row) : Bool := declared.length == actual.length && declared.all fun row => Dict.get row.1 actual == some row.2

/-- What the check of a signed tree answers. -/
structure SignedTrust where
  component : String
  version : String
  publisherId : String
  publisherDisplayName : String
  keyId : String
  fileCount : Nat
  manifestSha256 : String
  signatureSha256 : String
  approvedPermissions : List String
  publisherEnvironment : String
  assurance : String
  deriving DecidableEq

inductive Trust where
  | unsigned
  | signed (trust : SignedTrust)
  deriving DecidableEq

/-- The server and its publishers: the environment, the permissions that are required, and the key that `_publisher_policy` finds for a publisher and a key id. -/
structure Server where
  environment : String
  required : List String
  publisher : String → String → Option PublisherKey

def manifestFields : List String := ["schema", "component", "version", "publisher_id", "key_id", "algorithm", "files"]

/-- The version of a manifest: `[A-Za-z0-9._-]+`, at most 80 characters. -/
def isVersion (s : String) : Bool := s != "" && decide (s.length ≤ 80) && s.toList.all fun c => c.isAlphanum || c == '.' || c == '_' || c == '-'

variable (reader : Reader) (server : Server)

/-- The checks of `verify_release_tree` on the bytes of the manifest and of the signature, the text of `VERSION` and the tree. -/
def verifySigned (expected : Option String) (raw signature : Bytes) (versionFile : Option String) (actual : Except Refusal (List Row)) : Except Refusal SignedTrust :=
  match reader.loads raw with
  | some (.obj manifest) => do
    require (hasExactly manifestFields manifest) .manifestInvalid
    require (isSchema (Doc.field "schema" manifest)) .manifestInvalid
    require ((Doc.textField repr "algorithm" manifest).toLower == "ed25519") .algorithmMismatch
    let component := stripText (Doc.textField repr "component" manifest)
    require (component == "framework" || component == "ui") .componentInvalid
    require (!expected.any fun name => name != "" && component != name) .componentMismatch
    let version := stripText (Doc.textField repr "version" manifest)
    require (isVersion version) .versionInvalid
    require (versionFile == some version) .versionMismatch
    let publisherId := stripText (Doc.textField repr "publisher_id" manifest)
    let keyId := stripText (Doc.textField repr "key_id" manifest)
    match server.publisher publisherId keyId with
    | none => .error .publisherRefused
    | some key =>
      require (key.environment == server.environment) .environmentMismatch
      require (server.required.all key.granted.contains) .permissionDenied
      require (key.verify signature raw) .signatureInvalid
      let files ← fileList (Doc.field "files" manifest)
      let declared ← declaredFrom repr none files
      let actual ← actual
      require (sameRows declared actual) .treeMismatch
      return ⟨component, version, publisherId, key.displayName, keyId, actual.length, sha256 raw, sha256 signature, key.granted, key.environment, key.assurance⟩
  | _ => .error .manifestInvalid

/-- `read_text(encoding="utf-8").strip()` of the `VERSION` file. -/
def versionText (view : View) : Option String :=
  match view ["VERSION".toList] with
  | .file f => (Bytes.decodeUtf8 f.data).map stripText
  | _ => none

/-- `path.exists()`. -/
def Found.present : Found → Bool
  | .missing => false
  | .special followed => followed
  | .dir | .file _ => true

/-- `verify_release_tree`. -/
def verifyReleaseTree (expected : Option String) (t : Tree) : Except Refusal Trust :=
  if !(t.view manifestPath).present && !(t.view signaturePath).present then .ok .unsigned
  else if (t.view manifestPath).present != (t.view signaturePath).present then .error .materialIncomplete
  else
    match t.view manifestPath, t.view signaturePath with
    | .file manifest, .file signature =>
      if maxTreeManifestBytes < manifest.data.length ∨ 256 < signature.data.length then .error .materialInvalid
      else (verifySigned repr sha256 reader server expected manifest.data signature.data (versionText t.view) (actualReleaseTree sha256 t)).map .signed
    | _, _ => .error .materialInvalid

/-! ### Staging -/

/-- `_read_small_at`. -/
def readSmallAt (view : View) (path : Path) (limit : Nat) : Except Refusal (Option File) :=
  match view path with
  | .missing => .ok none
  | .file f => if limit < f.data.length then .error .materialInvalid else .ok (some f)
  | .special _ | .dir => .error .materialInvalid

/-- `_signed_file_entries`. -/
def signedFileEntries (raw : Bytes) (component : String) : Except Refusal (List Row) :=
  match (Bytes.decodeUtf8 raw).bind reader.parse with
  | some (.obj manifest) => do
    require (isSchema (Doc.field "schema" manifest) && Doc.isText component (Doc.field "component" manifest)) .manifestInvalid
    let files ← fileList (Doc.field "files" manifest)
    entriesFrom repr [] files
  | _ => .error .manifestInvalid

/-- `_copy_file_at` for a row of the manifest: the file that is found must have its size and digest. -/
def copyFileAt (view : View) (row : Row) : Except Refusal (Path × File) :=
  match view (row.1.splitOn '/') with
  | .missing => .error .fileMissing
  | .special _ | .dir => .error .fileUnreadable
  | .file f => if (f.data.length, sha256 f.data) = row.2 then .ok (row.1.splitOn '/', f) else .error .fileDiffers

/-- `_copy_whole_tree_at`: all of a tree but its root `.git`. -/
def copyWholeTree (t : Tree) : Except Refusal Tree :=
  let kept := fun path : Path => path.head? != some ".git".toList
  if t.specials.any fun p => kept p.1 then .error .specialFile
  else .ok ⟨t.files.filter fun p => kept p.1, t.dirs.filter kept, [], t.nodup.sublist (List.filter_sublist.map _),
    fun p hp q hq => t.apart p (List.mem_of_mem_filter hp) q (List.mem_of_mem_filter hq), fun p hp => t.named p (List.mem_of_mem_filter hp)⟩

/-- `stage_release_tree`, from what root sees of the source; `unsigned` is the tree that may be copied where there is no manifest. -/
def stageReleaseTree (view : View) (component : String) (unsigned : Option Tree) : Except Refusal Tree := do
  let manifest ← readSmallAt view manifestPath stageManifestMax
  let signature ← readSmallAt view signaturePath stageSignatureMax
  match manifest, signature with
  | none, none =>
    match unsigned with
    | none => .error .noManifest
    | some t => copyWholeTree t
  | some manifest, some signature =>
    let rows ← signedFileEntries repr reader manifest.data component
    let files ← rows.mapM (copyFileAt sha256 view)
    match Tree.ofFiles (files ++ [(manifestPath, ⟨manifest.data, false⟩), (signaturePath, ⟨signature.data, false⟩)]) with
    | none => .error .cannotWrite
    | some t => .ok t
  | _, _ => .error .materialIncomplete

/-! ### The snapshot -/

/-- `verify_signed_tree_snapshot`: the number of files of a tree that is still the signed one. -/
def verifySignedTreeSnapshot (t : Tree) (component expectedVersion : String) : Trust → Except Refusal Nat
  | .unsigned => .error .noContext
  | .signed trust =>
    match t.view manifestPath, t.view signaturePath with
    | .file manifest, .file signature => do
      require (sha256 manifest.data == trust.manifestSha256) .manifestDiffers
      require (sha256 signature.data == trust.signatureSha256) .signatureDiffers
      match reader.loads manifest.data with
      | some (.obj fields) =>
        require (isSchema (Doc.field "schema" fields)) .manifestInvalid
        require (Doc.textField repr "component" fields == component) .fieldMismatch
        require (Doc.textField repr "version" fields == expectedVersion) .fieldMismatch
        require (Doc.textField repr "publisher_id" fields == trust.publisherId) .fieldMismatch
        require (Doc.textField repr "key_id" fields == trust.keyId) .fieldMismatch
        require (Doc.textField repr "algorithm" fields == "Ed25519") .fieldMismatch
        let files ← fileList (Doc.field "files" fields)
        let declared ← declaredFrom repr none files
        let actual ← actualReleaseTree sha256 t
        require (sameRows declared actual) .treeMismatch
        require (actual.length == trust.fileCount) .countDiffers
        return actual.length
      | _ => .error .manifestInvalid
    | _, _ => .error .materialInvalid

end Readers

end ReleaseTree

end TecTac
