import TecTac.Lib.Dict
import TecTac.Lib.Raise

/-!
# The inventory of the installed modules

`_volatile_plugin_path`, `_tree_digest`, `snapshot_dynamic_plugins` and `verify_dynamic_plugins` of `system-update-helper.py`. A name is the bytes of it; whether they are a text that can be
encoded again is given. Paths are in the order of their bytes, which is that of their characters. What a link reaches is told beside it.
-/

namespace TecTac

namespace PluginInventory

abbrev Bytes := List UInt8

/-- What stands at a path. -/
inductive Entry where
  | file (contents : Bytes)
  | link (target : Bytes)
  | dir
  /-- Neither of these: a socket, a pipe, a device. -/
  | special
  deriving DecidableEq

/-- What `is_file` and `is_dir` find behind a link. -/
inductive Reach where
  | file
  | dir
  | nothing
  deriving DecidableEq

/-- A path below the folder of a module, with slashes between its names, and what stands there. -/
structure Item where
  path : Bytes
  entry : Entry
  reach : Reach := .nothing
  deriving DecidableEq

/-- `path.is_file()`. -/
def Item.isFile (item : Item) : Bool :=
  match item.entry with
  | .file _ => true
  | .link _ => item.reach == .file
  | _ => false

/-- `path.is_dir()`. -/
def Item.isDir (item : Item) : Bool :=
  match item.entry with
  | .dir => true
  | .link _ => item.reach == .dir
  | _ => false

/-- `rel.parts`. -/
def Item.parts (item : Item) : List Bytes := item.path.splitOn 47

/-- The text of an ASCII literal. -/
def ascii (text : String) : Bytes := text.toList.map fun c => UInt8.ofNat c.toNat

/-- `VOLATILE_PLUGIN_DIRS`. -/
def volatilePluginDirs : List Bytes := [ascii "__pycache__"]

/-- `VOLATILE_PLUGIN_SUFFIXES`. -/
def volatilePluginSuffixes : List Bytes := [ascii ".pyc", ascii ".pyo"]

/-- `lower()`, of the letters of ASCII. -/
def lower (text : Bytes) : Bytes := text.map fun b => if 65 ≤ b ∧ b ≤ 90 then b + 32 else b

/-- `path.suffix`: from the last dot on, where there is something on both sides of it. -/
def suffix (name : Bytes) : Bytes :=
  let ending := (name.reverse.takeWhile (· != 46)).reverse
  if ending = [] ∨ name.length ≤ ending.length + 1 then [] else 46 :: ending

/-- `_volatile_plugin_path`. -/
def volatilePluginPath (item : Item) : Bool :=
  item.parts.any volatilePluginDirs.contains || item.isFile && volatilePluginSuffixes.contains (lower (suffix (item.parts.getLastD [])))

/-- The folder of a module: what `rglob` finds below it, each path once. A path has no zero byte, and neither has the target of a link. -/
structure PluginTree where
  items : List Item
  nodup : (items.map Item.path).Nodup
  clean : ∀ item ∈ items, (0 : UInt8) ∉ item.path ∧ ∀ target, item.entry = .link target → (0 : UInt8) ∉ target

/-- What is taken of an entry behind its path. -/
def body : Entry → Bytes
  | .link target => 76 :: 0 :: (target ++ [0])
  | .file contents => 70 :: 0 :: contents
  | .dir => [68, 0]
  | .special => []

def record (e : Bytes × Entry) : Bytes := 80 :: 0 :: (e.1 ++ 0 :: body e.2)

/-- What the digest is fed with. -/
def stream (entries : List (Bytes × Entry)) : Bytes := entries.flatMap record

def pathLe (a b : Bytes × Entry) : Bool := decide (a.1 ≤ b.1)

/-- The entries that count, in the order of their paths. -/
def listing (t : PluginTree) : List (Bytes × Entry) := ((t.items.filter fun item => !volatilePluginPath item).map fun item => (item.path, item.entry)).mergeSort pathLe

section

variable {Digest : Type} (encodes : Bytes → Bool) (sha256 : Bytes → Digest)

/-- The names of an entry can be encoded. -/
def encodable (e : Bytes × Entry) : Bool :=
  encodes e.1 &&
    match e.2 with
    | .link target => encodes target
    | _ => true

/-- `_tree_digest` of a folder that exists. -/
def treeDigest (t : PluginTree) : Except String Digest :=
  if (listing t).all (encodable encodes) then .ok (sha256 (stream (listing t))) else .error "surrogates not allowed"

/-- `extensions` or `reportsets`, and the name of a folder in it. -/
abbrev PluginId := String × Bytes

/-- `FRAMEWORK_OWNED_PLUGIN_PATHS`. -/
def frameworkOwnedPluginPaths : List PluginId := [("extensions", ascii "example"), ("extensions", ascii "reporting"), ("reportsets", ascii "example")]

/-- The folders of the modules in a runtime tree, in the order in which they are gone through. -/
structure Runtime where
  plugins : List (PluginId × PluginTree)
  nodup : (plugins.map Prod.fst).Nodup

/-- `snapshot_dynamic_plugins`. -/
def snapshotDynamicPlugins (target : Runtime) : Except String (List (PluginId × Digest)) :=
  (target.plugins.filter fun p => !frameworkOwnedPluginPaths.contains p.1).mapM fun p => (treeDigest encodes sha256 p.2).map fun digest => (p.1, digest)

/-- The folders of an inventory that are missing. -/
def missing (target : Runtime) (inventory : List (PluginId × Digest)) : List PluginId :=
  (inventory.filter fun e => (Dict.get e.1 target.plugins).isNone).map Prod.fst

variable [DecidableEq Digest]

/-- A folder of an inventory, when it is there with another digest. -/
def changedOne (target : Runtime) (e : PluginId × Digest) : Except String (Option PluginId) :=
  match Dict.get e.1 target.plugins with
  | none => .ok none
  | some t => (treeDigest encodes sha256 t).map fun actual => if actual = e.2 then none else some e.1

/-- `verify_dynamic_plugins`. The text of an identifier is given. -/
def verifyDynamicPlugins (name : PluginId → String) (target : Runtime) (inventory : List (PluginId × Digest)) : Except String Unit := do
  let changed := (← inventory.mapM (changedOne encodes sha256 target)).filterMap id
  let missing := missing target inventory
  if missing = [] ∧ changed = [] then return
  let details := (if missing = [] then [] else ["missing: " ++ ", ".intercalate (missing.map name)]) ++
    (if changed = [] then [] else ["changed: " ++ ", ".intercalate (changed.map name)])
  throw ("framework update altered dynamically installed modules (" ++ "; ".intercalate details ++ ")")

end

end PluginInventory

end TecTac
