import TecTac.FilterSets

/-!
# Membership formulas of Groups

`from_legacy_formula` of `filter_sets.py` turns a membership formula into a filter tree. A formula is a list of conditions and groups that is read
strictly left to right: every item after the first is joined to what came before by its own word, with no precedence. The conversion folds over the
items and keeps a run of equal joins in one group; only a group the fold made itself takes further items.
-/

namespace TecTac

namespace FilterSets

/-- The names of things in the language that the conversion rests on: how a value that is neither a text nor a number is written, and `str.lower`. -/
structure Words where
  repr : Doc → String
  lower : String → String

/-- `str(item.get(key, default)).strip().lower()`. -/
def Words.read (words : Words) (key default : String) (item : List (String × Doc)) : String :=
  words.lower (stripText ((fieldOr key (.str default) item).text words.repr))

/-- A condition of a formula, which becomes a rule with the same parts. -/
structure Condition where
  field : String
  operator : String
  value : Doc

/-- The condition that an item holds. -/
def Words.condition (words : Words) (item : List (String × Doc)) : Condition :=
  ⟨words.read "field" "" item, words.read "operator" "equals" item, Doc.field "value" item⟩

/-- An entry of the tree that a formula is converted to. -/
inductive Converted where
  | rule (c : Condition)
  | group (how : Match) (rules : List Converted)

/-- What `convert` and `from_legacy_formula` return. -/
structure ConvertedTree where
  how : Match
  rules : List Converted

/-- The tree as an entry of another group. -/
def ConvertedTree.node (tree : ConvertedTree) : Converted := .group tree.how tree.rules

/-! ## The conversion -/

/-- `acc` with `acc_match`: nothing yet, an entry as it was converted, or a group that this fold made. -/
inductive Acc where
  | nothing
  | entry (node : Converted)
  | made (how : Match) (rules : List Converted)

namespace Acc

/-- The entry that was collected. -/
def node : Acc → Option Converted
  | nothing => none
  | entry node => some node
  | made how rules => some (.group how rules)

/-- Join an entry to what was collected. -/
def join (how : Match) (node : Converted) : Acc → Acc
  | nothing => entry node
  | entry first => made how [first, node]
  | made made_ rules => if made_ = how then made made_ (rules ++ [node]) else made how [.group made_ rules, node]

/-- The group of a list of items. -/
def tree : Acc → ConvertedTree
  | nothing => ⟨.all, []⟩
  | entry node => ⟨.all, [node]⟩
  | made how rules => ⟨how, rules⟩

end Acc

/-- How the word of an item joins it. -/
def Words.readJoin (words : Words) (item : List (String × Doc)) : Except FilterError Match :=
  if words.read "join" "and" item = "and" then .ok .all
  else if words.read "join" "and" item = "or" then .ok .any
  else .error (.validation "join must be 'and' or 'or'.")

/-- The items of a group. -/
def readChildren (item : List (String × Doc)) : Except FilterError (List Doc) :=
  match (fieldOr "items" (.arr []) item).items with
  | some items => .ok items
  | none => .error (.validation "group.items must be a list.")

/-- The entry of an item; `convert` converts the items of a group. -/
def Words.convertItem (words : Words) (convert : List Doc → Except FilterError ConvertedTree) (item : List (String × Doc)) : Except FilterError Converted :=
  if words.read "kind" "condition" item = "group" then do
    let inner ← convert (← readChildren item)
    return inner.node
  else if words.read "kind" "condition" item = "condition" then .ok (.rule (words.condition item))
  else .error (.validation "kind must be 'condition' or 'group'.")

/-- One step of the fold. The word of the first item is not read. -/
def Words.foldItem (words : Words) (convert : List Doc → Except FilterError ConvertedTree) (acc : Acc) (item : Doc) : Except FilterError Acc :=
  match item.pairs with
  | none => .error (.validation "Formula items must be objects.")
  | some item => do
    let node ← words.convertItem convert item
    match acc with
    | .nothing => return .entry node
    | acc => return acc.join (← words.readJoin item) node

/-- `convert`; `room` is how many more levels there may be. -/
def Words.convert (words : Words) : Nat → List Doc → Except FilterError ConvertedTree
  | 0, _ => .error (.validation "The formula is nested too deeply.")
  | room + 1, items => do
    let acc ← items.foldlM (words.foldItem (words.convert room)) .nothing
    return acc.tree

/-- The counts of a tree. -/
structure Shape where
  rules : Nat
  groups : Nat
  depth : Nat
  deriving DecidableEq

mutual

/-- `_measure` of one entry. -/
def measureItem (level : Nat) (shape : Shape) : Converted → Shape
  | .rule _ => { shape with rules := shape.rules + 1 }
  | .group _ rules => measure (level + 1) { shape with groups := shape.groups + 1, depth := max shape.depth (level + 1) } rules

/-- `_measure`, on the entries of a group. -/
def measure (level : Nat) (shape : Shape) : List Converted → Shape
  | [] => shape
  | item :: items => measure level (measureItem level shape item) items

end

/-- `from_legacy_formula`. -/
def fromLegacyFormula (words : Words) (formula : Doc) : Except FilterError ConvertedTree :=
  match formula.pairs.bind fun body => (fieldOr "items" (.arr []) body).items with
  | none => .error (.validation "A membership formula must be an object with a list of items.")
  | some items => do
    let body ← words.convert 8 items
    let shape := measure 0 ⟨0, 0, 0⟩ body.rules
    Raise.require (decide (shape.rules ≤ maxRules ∧ shape.groups ≤ maxGroups ∧ shape.depth ≤ maxDepth))
      (.validation ("This formula is too complex for a filter set (at most " ++ toString maxRules ++ " rules, " ++ toString maxDepth ++ " levels of groups)."))
    return body

/-! ## What a formula and a tree mean -/

section
variable (v : Condition → Bool)

mutual

/-- An entry of a tree holds, when the conditions have these truth values; a group without entries does not. -/
def Converted.holds : Converted → Bool
  | .rule c => v c
  | .group _ [] => false
  | .group .all (node :: nodes) => allHold (node :: nodes)
  | .group .any (node :: nodes) => anyHolds (node :: nodes)

def allHold : List Converted → Bool
  | [] => true
  | node :: nodes => node.holds && allHold nodes

def anyHolds : List Converted → Bool
  | [] => false
  | node :: nodes => node.holds || anyHolds nodes

end

variable (words : Words)

/-- An item joins to what came before. -/
def Words.joins (item : Doc) (before here : Bool) : Bool :=
  if words.read "join" "and" (item.pairs.getD []) = "or" then before || here else before && here

mutual

/-- An item of a formula holds. -/
def itemHolds : Doc → Bool
  | .obj item => if words.read "kind" "condition" item = "group" then membersHold item else v (words.condition item)
  | _ => false

/-- The items under the key `items` hold. -/
def membersHold : List (String × Doc) → Bool
  | [] => false
  | (key, d) :: rest => if key = "items" then formulaHolds d else membersHold rest

/-- A list of items holds: it is read from left to right, and an empty one does not hold. -/
def formulaHolds : Doc → Bool
  | .arr [] => false
  | .arr (item :: items) => leftToRight (itemHolds item) items
  | _ => false

/-- What came before, and the items that follow. -/
def leftToRight (before : Bool) : List Doc → Bool
  | [] => before
  | item :: items => leftToRight (words.joins item before (itemHolds item)) items

end

end

mutual

/-- The conditions of an entry, in order. -/
def Converted.conditions : Converted → List Condition
  | .rule c => [c]
  | .group _ rules => conditionsOf rules

def conditionsOf : List Converted → List Condition
  | [] => []
  | node :: nodes => node.conditions ++ conditionsOf nodes

end

section
variable (words : Words)

mutual

/-- The conditions of an item, in order. -/
def itemConditions : Doc → List Condition
  | .obj item => if words.read "kind" "condition" item = "group" then memberConditions item else [words.condition item]
  | _ => []

def memberConditions : List (String × Doc) → List Condition
  | [] => []
  | (key, d) :: rest => if key = "items" then formulaConditions d else memberConditions rest

def formulaConditions : Doc → List Condition
  | .arr items => listConditions items
  | _ => []

def listConditions : List Doc → List Condition
  | [] => []
  | item :: items => itemConditions item ++ listConditions items

end

end

mutual

/-- The groups of an entry. -/
def Converted.groups : Converted → Nat
  | .rule _ => 0
  | .group _ rules => groupsOf rules + 1

def groupsOf : List Converted → Nat
  | [] => 0
  | node :: nodes => node.groups + groupsOf nodes

end

mutual

/-- The levels of groups of an entry. -/
def Converted.depth : Converted → Nat
  | .rule _ => 0
  | .group _ rules => depthOf rules + 1

def depthOf : List Converted → Nat
  | [] => 0
  | node :: nodes => max node.depth (depthOf nodes)

end

end FilterSets

end TecTac
