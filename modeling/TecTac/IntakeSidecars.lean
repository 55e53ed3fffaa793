import TecTac.Lib.Document
import TecTac.Lib.Raise
import TecTac.Lib.Text

/-!
# The sidecars of an intake

`pair_intake_sidecars` of `module_manager_v2.py`: the packages of an upload, each with its detached signature and its release metadata. The metadata says which
package and which signature belong to it, by their names; a package without companions is left alone.
-/

namespace TecTac

/-- An uploaded file. `ref` is its identity: two files with the same name and the same bytes are two objects. -/
structure Upload where
  ref : Nat
  name : Option String
  size : Int
  chunks : List UInt8
  deriving DecidableEq

/-- `str(getattr(upload, "name", default))`. -/
def Upload.nameOr (upload : Upload) (default : String) : String := upload.name.getD default

/-- What reading a release metadata file rests on: the decoding of its bytes as a document, nothing where that fails, and how a value that is neither a text nor a
number is written. -/
structure MetadataReader where
  loads : List UInt8 → Option Doc
  repr : Doc → String

/-- `_read_metadata_upload`. -/
def readMetadataUpload (reader : MetadataReader) (upload : Upload) (name : String) : Except String (List (String × Doc)) := do
  Raise.require (decide (0 < upload.size ∧ upload.size ≤ 1024 * 1024)) (name ++ " is empty or too large to be release metadata.")
  match reader.loads upload.chunks with
  | none => .error (name ++ " is not valid release metadata (JSON).")
  | some (.obj data) => .ok data
  | some _ => .error (name ++ " is not valid release metadata (a JSON object).")

/-- `text or "unknown"`. -/
def orUnknown (text : String) : String := if text = "" then "unknown" else text

/-- The companions that were chosen, by package, and the signatures that were used. -/
structure Pairing where
  chosen : List (Upload × Upload × Upload)
  usedSignatures : List Upload
  deriving DecidableEq

/-- The one package that a metadata file is for. -/
def owner (metaName packageName : String) : List Upload → Except String Upload
  | [] => .error (metaName ++ " is for a package called '" ++ orUnknown packageName ++ "', and that file was not uploaded. " ++
      "Upload each package under the name its release metadata gives. A browser may rename a copy, " ++
      "for example 'name (1).zip'; rename it back and try again.")
  | [upload] => .ok upload
  | _ => .error ("More than one uploaded package is called '" ++ packageName ++ "'. Upload each package once.")

/-- The one signature that a metadata file names. -/
def namedSignature (metaName signatureName : String) : List Upload → Except String Upload
  | [] => .error (metaName ++ " names the signature file '" ++ orUnknown signatureName ++ "', and that file was not uploaded.")
  | [signature] => .ok signature
  | _ => .error ("More than one uploaded signature is called '" ++ signatureName ++ "'. Upload each signature once.")

/-- `by_package.get(name)`: the packages of a name, in upload order. -/
def byPackage (uploads : List Upload) (name : String) : List Upload := uploads.filter fun upload => upload.nameOr "package" = name

/-- `by_signature.get(name)`. -/
def bySignature (signatures : List Upload) (name : String) : List Upload := signatures.filter fun signature => signature.nameOr "" = name

/-- A name field of the metadata: `str(data.get(field) or "").strip()`. -/
def metadataName (reader : MetadataReader) (field : String) (data : List (String × Doc)) : String :=
  stripText (Doc.textField reader.repr field data)

/-- The loop over the metadata files. -/
def pairOne (reader : MetadataReader) (uploads signatures : List Upload) (pairing : Pairing) (metaUpload : Upload) : Except String Pairing := do
  let metaName := metaUpload.nameOr "release metadata"
  let data ← readMetadataUpload reader metaUpload metaName
  let packageName := metadataName reader "filename" data
  let signatureName := metadataName reader "signature" data
  let package ← owner metaName packageName (byPackage uploads packageName)
  Raise.require (Dict.get package pairing.chosen).isNone
    ("Two release metadata files were uploaded for '" ++ packageName ++ "'. Upload only one.")
  let signature ← namedSignature metaName signatureName (bySignature signatures signatureName)
  return ⟨pairing.chosen ++ [(package, signature, metaUpload)], pairing.usedSignatures ++ [signature]⟩

/-- A signature that no metadata file names is refused. -/
def requireUsed (pairing : Pairing) (signature : Upload) : Except String Unit :=
  Raise.require (decide (signature ∈ pairing.usedSignatures))
    ("The signature file '" ++ signature.nameOr "signature" ++ "' does not belong to any uploaded release metadata file. " ++
      "Upload its .release.json file too, or remove the signature.")

/-- `pair_intake_sidecars`: each package with its signature and its metadata, where it has them. -/
def pairIntakeSidecars (reader : MetadataReader) (uploads signatures metadataFiles : List Upload) :
    Except String (List (Upload × Option Upload × Option Upload)) := do
  let pairing ← metadataFiles.foldlM (pairOne reader uploads signatures) ⟨[], []⟩
  signatures.forM (requireUsed pairing)
  return uploads.map fun upload =>
    (upload, (Dict.get upload pairing.chosen).map Prod.fst, (Dict.get upload pairing.chosen).map Prod.snd)

end TecTac
