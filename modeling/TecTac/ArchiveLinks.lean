import TecTac.Lib.LinkTree
import TecTac.RecoveryPayload

/-!
# What an archive becomes on disk

The members of an archive are created one after the other in an empty folder, as `tarfile` does: the folders above a member are made where they are missing, a link is written with the target that
is stored, and a hard link is another name of what its target leads to. The system reads a path name by name and knows no other separator than the slash.
-/

namespace TecTac

namespace RecoveryPayload

abbrev Name := List Char

abbrev Part := LinkTree.Part Name

abbrev Tree := LinkTree.Tree Name Member

/-- The parts of a path that the system sees. -/
def parts (raw : List Char) : List Part := (PosixPath.names raw).map fun name => if name = ['.', '.'] then .up else .into name

/-- The empty folder. -/
def emptyFolder : Tree := fun q => if q = [] then some .dir else none

/-- What a member that is no hard link becomes. -/
def Member.entry (member : Member) : LinkTree.Entry Name Member :=
  match member.kind with
  | .dir => .dir
  | .symlink => .link (PosixPath.isAbsolute member.linkname) (parts member.linkname)
  | _ => .file member

/-- A path leads to a place: its folder is reached, and its last part is a name in it. -/
inductive Located (t : Tree) (raw : List Char) : List Name → Prop where
  | found {front : List Part} {name : Name} {folder : List Name} : parts raw = front ++ [.into name] → LinkTree.Follows t ⟨[], front⟩ ⟨folder, []⟩ → Located t raw (folder ++ [name])

/-- A member is put at a place where no folder is, with the place that a hard link was taken from. -/
inductive Placed (t : Tree) (q : List Name) (member : Member) : Tree → Option (List Name) → Prop where
  | made : member.kind ≠ .hardlink → t q ≠ some .dir → Placed t q member (LinkTree.set t q member.entry) none
  | there : member.kind = .dir → t q = some .dir → Placed t q member t none
  | linked {source : List Name} {entry : LinkTree.Entry Name Member} : member.kind = .hardlink → Located t member.linkname source → t source = some entry → entry ≠ .dir → t q ≠ some .dir →
      Placed t q member (LinkTree.set t q entry) (some source)

/-- A member is created. A path that ends in no name can only be that of a folder. -/
inductive Created (t : Tree) (member : Member) : Tree → Option (List Name) → Prop where
  | named {t' t'' : Tree} {front : List Part} {name : Name} {folder : List Name} {source : Option (List Name)} : parts member.name = front ++ [.into name] →
      LinkTree.Makes (t, ⟨[], front⟩) (t', ⟨folder, []⟩) → Placed t' (folder ++ [name]) member t'' source → Created t member t'' source
  | folder {t' : Tree} {folder : List Name} : member.kind = .dir → LinkTree.Makes (t, ⟨[], parts member.name⟩) (t', ⟨folder, []⟩) → Created t member t' none

/-- What is reached while the members are created: the tree, the members that are left, and the places that hard links were taken from. -/
inductive Extracting (members : List Member) : Tree → List Member → List (List Name) → Prop where
  | start : Extracting members emptyFolder members []
  | next {t t' : Tree} {member : Member} {rest : List Member} {sources : List (List Name)} {source : Option (List Name)} : Extracting members t (member :: rest) sources →
      Created t member t' source → Extracting members t' rest (source.toList ++ sources)

end RecoveryPayload

end TecTac
