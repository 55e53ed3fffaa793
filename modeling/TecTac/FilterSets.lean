import Mathlib
import TecTac.Lib.Calendar
import TecTac.Lib.Document
import TecTac.Lib.Raise
import TecTac.Lib.Text

/-!
# Filter sets: fields, operators and the validator

The pure part of `filter_sets.py`: the operators that a kind of field offers, and `validate_filter_set`, which reads a document that
a browser sent against the fields a person may use and answers a tree of groups and rules. The counters of rules and groups are
shared by the whole tree, and groups stand at most `MAX_DEPTH` levels deep. A field is what `_clean_field` keeps of a declaration;
its value list and its scope kind, which neither the validator nor the evaluators read, are left out. Every refusal is one of the
errors of a filter set with its text; `valueError` is the error that `int` raises.
-/

namespace TecTac

namespace FilterSets

def maxRules : Nat := 50
def maxGroups : Nat := 20
def maxDepth : Nat := 3
def maxValueLength : Nat := 200
def maxFields : Nat := 100
def maxIdValue : Int := 2 ^ 63 - 1
def maxNumber : Nat := 10 ^ 15
def minDate : String := "1970-01-01"
def maxDate : String := "2100-12-31"

/-- What `validate_filter_set` raises. -/
inductive FilterError where
  | validation (text : String)
  | fieldUnavailable (text : String)
  | valueError
  deriving DecidableEq

/-- The error is a `FilterSetError`. -/
def FilterError.isFilterSetError : FilterError → Bool
  | .validation _ | .fieldUnavailable _ => true
  | .valueError => false

/-! ## Operators -/

/-- The ids of `ALL_OPERATORS`. -/
inductive Operator where
  | equals | notEquals | contains | notContains | startsWith | endsWith
  | before | after | onOrBefore | onOrAfter | between | inTheLast | notInTheLast
  | greaterThan | lessThan | atLeast | atMost
  deriving DecidableEq, Repr

namespace Operator

/-- The word that a document writes for an operator. -/
def id : Operator → String
  | equals => "equals"
  | notEquals => "not_equals"
  | contains => "contains"
  | notContains => "not_contains"
  | startsWith => "starts_with"
  | endsWith => "ends_with"
  | before => "before"
  | after => "after"
  | onOrBefore => "on_or_before"
  | onOrAfter => "on_or_after"
  | between => "between"
  | inTheLast => "in_the_last"
  | notInTheLast => "not_in_the_last"
  | greaterThan => "greater_than"
  | lessThan => "less_than"
  | atLeast => "at_least"
  | atMost => "at_most"

/-- The label of an operator in `ALL_OPERATORS`. -/
def label : Operator → String
  | equals => "Equals"
  | notEquals => "Does not equal"
  | contains => "Contains"
  | notContains => "Does not contain"
  | startsWith => "Starts with"
  | endsWith => "Ends with"
  | before => "Before"
  | after => "After"
  | onOrBefore => "On or before"
  | onOrAfter => "On or after"
  | between => "Between"
  | inTheLast => "In the last"
  | notInTheLast => "Not in the last"
  | greaterThan => "Greater than"
  | lessThan => "Less than"
  | atLeast => "At least"
  | atMost => "At most"

/-- The keys of `ALL_OPERATORS`. -/
def all : List Operator :=
  [equals, notEquals, contains, notContains, startsWith, endsWith, before, after, onOrBefore, onOrAfter, between, inTheLast,
    notInTheLast, greaterThan, lessThan, atLeast, atMost]

/-- The operator that a word names. -/
def ofId (word : String) : Option Operator := all.find? fun op => op.id == word

@[simp] theorem ofId_id (op : Operator) : ofId op.id = some op := by cases op <;> rfl

/-- `ID_OPERATORS`. -/
def forId : List Operator := [equals, notEquals]

/-- `TEXT_OPERATORS`. -/
def forText : List Operator := [equals, notEquals, contains, notContains, startsWith, endsWith]

/-- `BOOL_OPERATORS`. -/
def forBool : List Operator := [equals]

/-- `DATE_OPERATORS`. -/
def forDate : List Operator := [equals, notEquals, before, after, onOrBefore, onOrAfter, between, inTheLast, notInTheLast]

/-- `NUMBER_OPERATORS`. -/
def forNumber : List Operator := [equals, notEquals, greaterThan, lessThan, atLeast, atMost, between]

/-- `RELATIVE_OPERATORS`. -/
def relative : List Operator := [inTheLast, notInTheLast]

end Operator

/-! ## Fields -/

/-- A number of a document: a whole number or a finite float. -/
inductive Num where
  | int (n : Int)
  | float (x : Rat)
  deriving DecidableEq

namespace Num

/-- The exact value. -/
def val : Num → Rat
  | int n => n
  | float x => x

def toDoc : Num → Doc
  | int n => .num n
  | float x => .float x

end Num

/-- What the column of a date field holds. -/
inductive StoredAs where
  | datetime
  | date
  deriving DecidableEq

/-- The kind of a field with what a declaration may add to it. -/
inductive FieldKind where
  | text
  | id (nameLookup nameKey : Option String)
  | bool
  | date (storedAs : StoredAs)
  | number (integer : Bool) (minimum maximum : Option Num)
  deriving DecidableEq

/-- A field that `_clean_field` accepted. -/
structure Field where
  id : String
  label : String
  kind : FieldKind
  lookup : Option String
  rowKey : Option String
  deriving DecidableEq

/-- `operators_for`. -/
def operatorsFor : FieldKind → List Operator
  | .date _ => Operator.forDate
  | .number _ _ _ => Operator.forNumber
  | .text => Operator.forText
  | .bool => Operator.forBool
  | .id nameLookup nameKey =>
    if nameLookup.isSome || nameKey.isSome then Operator.forId ++ Operator.forText.filter fun op => op ∉ Operator.forId
    else Operator.forId

/-- The declarations that are kept: the first hundred, and of a repeated id the first. -/
def cleanFields (declared : List Field) : List Field :=
  (declared.take maxFields).foldl (fun out field => if field.id ∈ out.map Field.id then out else out ++ [field]) []

/-- `_index`. -/
def index (fields : List Field) : List (String × Field) := (cleanFields fields).map fun field => (field.id, field)

/-! ## Values -/

/-- The units of `RELATIVE_UNITS`. -/
inductive TimeUnit where
  | minutes
  | hours
  | days
  deriving DecidableEq

namespace TimeUnit

def word : TimeUnit → String
  | minutes => "minutes"
  | hours => "hours"
  | days => "days"

/-- The largest amount of a unit. -/
def largest : TimeUnit → Int
  | minutes => 525600
  | hours => 8760
  | days => 3650

/-- `_UNIT_SECONDS`. -/
def seconds : TimeUnit → Int
  | minutes => 60
  | hours => 3600
  | days => 86400

/-- The unit that a word names. -/
def ofWord (s : String) : Option TimeUnit := [minutes, hours, days].find? fun unit => unit.word == s

@[simp] theorem ofWord_word (unit : TimeUnit) : ofWord unit.word = some unit := by cases unit <;> rfl

end TimeUnit

/-- The value of a rule that was accepted. -/
inductive Value where
  | text (s : String)
  | id (n : Int)
  | bool (b : Bool)
  | day (s : String)
  | days (first last : String)
  | relative (amount : Int) (unit : TimeUnit)
  | number (x : Num)
  | numbers (first last : Num)
  deriving DecidableEq

/-- The document of a value. -/
def Value.toDoc : Value → Doc
  | text s => .str s
  | id n => .num n
  | bool b => .bool b
  | day s => .str s
  | days first last => .obj [("from", .str first), ("to", .str last)]
  | relative amount unit => .obj [("amount", .num amount), ("unit", .str unit.word)]
  | number x => x.toDoc
  | numbers first last => .obj [("from", first.toDoc), ("to", last.toDoc)]

/-- The order of two texts. -/
def precedes (a b : String) : Bool := decide (a.toList < b.toList)

/-- A decimal digit of ASCII. -/
def asciiDigit (c : Char) : Bool := decide ('0' ≤ c) && decide (c ≤ '9')

/-- `int` of ASCII digits. -/
def asciiInt (s : List Char) : Nat := s.foldl (fun n c => 10 * n + (c.toNat - 48)) 0

/-- Year, month and day of a text that `_DATE_RE` matches. -/
def dateParts (s : String) : Option (Nat × Nat × Nat) :=
  match s.toList with
  | [y₁, y₂, y₃, y₄, '-', m₁, m₂, '-', d₁, d₂] =>
    if [y₁, y₂, y₃, y₄, m₁, m₂, d₁, d₂].all asciiDigit then some (asciiInt [y₁, y₂, y₃, y₄], asciiInt [m₁, m₂], asciiInt [d₁, d₂]) else none
  | _ => none

/-- Year, month and day that `datetime.date` accepts. -/
def isDate (year month day : Nat) : Bool :=
  decide (1 ≤ year ∧ year ≤ 9999 ∧ 1 ≤ month ∧ month ≤ 12 ∧ 1 ≤ day ∧ (day : Int) ≤ Calendar.daysInMonth (Calendar.leapDay year) month)

/-- `_norm_day`. -/
def normDay (label : String) : Doc → Except FilterError String
  | .str s =>
    match dateParts s with
    | none => .error (.validation (label ++ ": use a date written YYYY-MM-DD."))
    | some (year, month, day) => do
      Raise.require (isDate year month day) (.validation (label ++ ": this is not a real date."))
      Raise.require (!precedes s minDate && !precedes maxDate s)
        (.validation (label ++ ": the date must be from " ++ minDate ++ " to " ++ maxDate ++ "."))
      return s
  | _ => .error (.validation (label ++ ": use a date written YYYY-MM-DD."))

/-- `_exact_keys`. -/
def exactKeys (label : String) (keys : List String) (value : Doc) : Except FilterError (List (String × Doc)) :=
  match value.pairs with
  | none => .error (.validation (label ++ ": the value must be an object with exactly " ++ String.intercalate ", " keys ++ "."))
  | some kvs => do
    Raise.require (kvs.all (fun p => decide (p.1 ∈ keys)) && keys.all fun key => (Dict.get key kvs).isSome)
      (.validation (label ++ ": the value must be an object with exactly " ++ String.intercalate ", " keys ++ "."))
    return kvs

/-- The unit of a relative value. -/
def unitOf (label : String) : Doc → Except FilterError TimeUnit
  | .str s =>
    match TimeUnit.ofWord s with
    | some unit => .ok unit
    | none => .error (.validation (label ++ ": the unit must be minutes, hours or days."))
  | _ => .error (.validation (label ++ ": the unit must be minutes, hours or days."))

/-- The amount of a relative value. -/
def amountOf (label : String) (unit : TimeUnit) (amount : Doc) : Except FilterError Int :=
  match amount with
  | .num n =>
    if 1 ≤ n ∧ n ≤ unit.largest then .ok n
    else .error (.validation (label ++ ": the amount must be a whole number from 1 to " ++ toString unit.largest ++ " " ++ unit.word ++ "."))
  | _ => .error (.validation (label ++ ": the amount must be a whole number from 1 to " ++ toString unit.largest ++ " " ++ unit.word ++ "."))

/-- `_norm_date_value`. -/
def normDateValue (field : Field) (operator : Operator) (value : Doc) : Except FilterError Value := do
  let label := field.label ++ ": the value"
  if operator ∈ Operator.relative then
    let body ← exactKeys label ["amount", "unit"] value
    let unit ← unitOf label (Doc.field "unit" body)
    let amount ← amountOf label unit (Doc.field "amount" body)
    return .relative amount unit
  else if operator = .between then
    let body ← exactKeys label ["from", "to"] value
    let first ← normDay (label ++ " (from)") (Doc.field "from" body)
    let last ← normDay (label ++ " (to)") (Doc.field "to" body)
    Raise.require (!precedes last first) (.validation (label ++ ": 'from' may not be after 'to'."))
    return .days first last
  else
    return .day (← normDay label value)

/-- A number of a document as a rule keeps it: a float of a field of whole numbers becomes a whole number. -/
def readNumber (integer : Bool) (label : String) : Doc → Except FilterError Num
  | .num n => .ok (.int n)
  | .float x =>
    if integer then
      if x.den = 1 then .ok (.int x.num) else .error (.validation (label ++ ": the value must be a whole number."))
    else .ok (.float x)
  | .infinite _ | .nan => .error (.validation (label ++ ": the value must be a finite number."))
  | _ => .error (.validation (label ++ ": the value must be a number."))

/-- The value is below the minimum or above the maximum. -/
def outOfRange (minimum maximum : Option Num) (x : Num) : Bool :=
  (minimum.any fun bound => decide (x.val < bound.val)) || maximum.any fun bound => decide (bound.val < x.val)

/-- `_norm_number`. -/
def normNumber (field : Field) (integer : Bool) (minimum maximum : Option Num) (label : String) (value : Doc) : Except FilterError Num := do
  let x ← readNumber integer label value
  Raise.require (decide (|x.val| ≤ maxNumber)) (.validation (label ++ ": the value may not exceed " ++ toString maxNumber ++ " in size."))
  Raise.require (!outOfRange minimum maximum x) (.validation (field.label ++ ": the value is outside the allowed range."))
  return x

/-- `_norm_number_value`. -/
def normNumberValue (field : Field) (integer : Bool) (minimum maximum : Option Num) (operator : Operator) (value : Doc) :
    Except FilterError Value := do
  let label := field.label ++ ": the value"
  if operator = .between then
    let body ← exactKeys label ["from", "to"] value
    let first ← normNumber field integer minimum maximum (label ++ " (from)") (Doc.field "from" body)
    let last ← normNumber field integer minimum maximum (label ++ " (to)") (Doc.field "to" body)
    Raise.require (decide (first.val ≤ last.val)) (.validation (label ++ ": 'from' may not be above 'to'."))
    return .numbers first last
  else
    return .number (← normNumber field integer minimum maximum label value)

/-- The value of a yes/no field. -/
def normBool (field : Field) : Doc → Except FilterError Value
  | .bool b => .ok (.bool b)
  | .str s =>
    let word := (strip s.toList).map Char.toLower
    if word = "true".toList then .ok (.bool true)
    else if word = "false".toList then .ok (.bool false)
    else .error (.validation (field.label ++ ": the value must be true or false."))
  | _ => .error (.validation (field.label ++ ": the value must be true or false."))

/-- A text that `int` is called on: digits, at most 19 of them. -/
def isDigitText (s : String) : Bool :=
  let text := strip s.toList
  !text.isEmpty && text.all isDigit && decide (text.length ≤ 19)

/-- The number that the value of an id rule stands for, when it stands for one. -/
def idNumber : Doc → Except FilterError (Option Int)
  | .num n => .ok (some n)
  | .str s =>
    if isDigitText s then
      match intOfDigits (strip s.toList) with
      | some n => .ok (some n)
      | none => .error .valueError
    else .ok none
  | _ => .ok none

/-- The value of an id field under an operator on the id. -/
def normId (field : Field) (value : Doc) : Except FilterError Value := do
  match ← idNumber value with
  | some n =>
    Raise.require (decide (1 ≤ n ∧ n ≤ maxIdValue)) (.validation (field.label ++ ": the value must be a whole number above zero."))
    return .id n
  | none => .error (.validation (field.label ++ ": the value must be a whole number above zero."))

/-- A control character. -/
def isControl (c : Char) : Bool := decide (c.toNat < 32) || c.toNat == 127

/-- `_plain_text`. -/
def plainText (label : String) (maximum : Nat) : Doc → Except FilterError String
  | .str s => do
    let text := strip s.toList
    Raise.require (!text.isEmpty) (.validation (label ++ " is required."))
    Raise.require (decide (text.length ≤ maximum)) (.validation (label ++ " may not exceed " ++ toString maximum ++ " characters."))
    Raise.require (!text.any isControl) (.validation (label ++ " may not contain control characters."))
    return String.ofList text
  | _ => .error (.validation (label ++ " must be text."))

/-- The value of a text field, or of the name of an id field. -/
def normText (field : Field) (value : Doc) : Except FilterError Value := do
  return .text (← plainText (field.label ++ ": the value") maxValueLength value)

/-- `_norm_value`. -/
def normValue (field : Field) (operator : Operator) (value : Doc) : Except FilterError Value :=
  match field.kind with
  | .date _ => normDateValue field operator value
  | .number integer minimum maximum => normNumberValue field integer minimum maximum operator value
  | .bool => normBool field value
  | .id _ _ => if operator ∈ Operator.forId then normId field value else normText field value
  | .text => normText field value

/-! ## The tree -/

/-- How the entries of a group are joined. -/
inductive Match where
  | all
  | any
  deriving DecidableEq

def Match.word : Match → String
  | all => "all"
  | any => "any"

/-- A rule that was accepted. -/
structure Rule where
  field : String
  operator : Operator
  value : Value
  deriving DecidableEq

/-- An entry of a group. -/
inductive Node where
  | rule (r : Rule)
  | group (how : Match) (rules : List Node)

/-- What `validate_filter_set` returns. -/
structure Tree where
  how : Match
  rules : List Node

/-- The document of a rule. -/
def Rule.toDoc (r : Rule) : Doc :=
  .obj [("kind", .str "rule"), ("field", .str r.field), ("operator", .str r.operator.id), ("value", r.value.toDoc)]

mutual

/-- The document of an entry. -/
def Node.toDoc : Node → Doc
  | .rule r => r.toDoc
  | .group how rules => .obj [("kind", .str "group"), ("match", .str how.word), ("rules", .arr (toDocs rules))]

/-- The documents of the entries of a group. -/
def toDocs : List Node → List Doc
  | [] => []
  | node :: nodes => node.toDoc :: toDocs nodes

end

/-- The document of the tree. -/
def Tree.toDoc (tree : Tree) : Doc := .obj [("version", .num 1), ("match", .str tree.how.word), ("rules", .arr (toDocs tree.rules))]

/-! ## The validator -/

/-- The counters that the groups of a filter share. -/
structure Counter where
  rules : Nat
  groups : Nat
  deriving DecidableEq

/-- The keys of a dictionary that it may not have. -/
def unknownKeys (allowed : List String) (item : List (String × Doc)) : List String :=
  ((item.map Prod.fst).filter fun key => key ∉ allowed).dedup

/-- `sorted(texts)`. -/
def sortedTexts (texts : List String) : List String := texts.mergeSort fun a b => !precedes b a

/-- A dictionary with no other key than these. -/
def onlyKeys (what : String) (allowed : List String) (item : List (String × Doc)) : Except FilterError Unit :=
  Raise.require (unknownKeys allowed item).isEmpty
    (.validation ("Unknown " ++ what ++ " field(s): " ++ String.intercalate ", " (sortedTexts (unknownKeys allowed item))))

/-- The field that a rule names, with its id. -/
def ruleField (printable : String → Bool) (fields : List (String × Field)) (fieldId : Doc) : Except FilterError (String × Field) :=
  match fieldId with
  | .str s =>
    match Dict.get s fields with
    | some field => .ok (s, field)
    | none =>
      let shown := if s.toList.length ≤ 64 && printable s then s else "?"
      .error (.fieldUnavailable ("This filter uses a field you cannot use (" ++ shown ++ ")."))
  | _ => .error (.fieldUnavailable "This filter uses a field you cannot use (?).")

/-- The operator that a rule names. -/
def ruleOperator (field : Field) (operator : Doc) : Except FilterError Operator :=
  match operator with
  | .str s =>
    match Operator.ofId s with
    | some op =>
      if op ∈ operatorsFor field.kind then .ok op
      else .error (.validation (field.label ++ ": '" ++ op.label ++ "' is not available for this field."))
    | none => .error (.validation (field.label ++ ": choose one of the listed operators."))
  | _ => .error (.validation (field.label ++ ": choose one of the listed operators."))

/-- `_norm_rule`. -/
def normRule (printable : String → Bool) (fields : List (String × Field)) (item : List (String × Doc)) (counter : Counter) :
    Except FilterError (Rule × Counter) := do
  onlyKeys "rule" ["kind", "field", "operator", "value"] item
  let counter := { counter with rules := counter.rules + 1 }
  Raise.require (decide (counter.rules ≤ maxRules)) (.validation ("A filter can hold at most " ++ toString maxRules ++ " rules."))
  let (fieldId, field) ← ruleField printable fields (Doc.field "field" item)
  let operator ← ruleOperator field (Doc.field "operator" item)
  let value ← normValue field operator (Doc.field "value" item)
  return (⟨fieldId, operator, value⟩, counter)

/-- `kind = item.get("kind") or ("rule" if "field" in item else None)`. -/
def itemKind (item : List (String × Doc)) : Doc :=
  (Doc.field "kind" item).orElse (if (Dict.get "field" item).isSome then .str "rule" else .null)

/-- One entry of a group; `group` reads an entry that is a group itself. -/
def normItem (printable : String → Bool) (fields : List (String × Field))
    (group : List (String × Doc) → Counter → Except FilterError (Node × Counter)) (item : Doc) (counter : Counter) :
    Except FilterError (Node × Counter) :=
  match item.pairs with
  | none => .error (.validation "Every rule must be an object.")
  | some item =>
    if (itemKind item).isText "rule" then do
      let (rule, counter) ← normRule printable fields item counter
      return (.rule rule, counter)
    else if (itemKind item).isText "group" then do
      onlyKeys "group" ["kind", "match", "rules"] item
      group item counter
    else .error (.validation "Every entry must be a rule or a group.")

/-- The entries of a group, from first to last. -/
def normItems (entry : Doc → Counter → Except FilterError (Node × Counter)) : List Doc → Counter → Except FilterError (List Node × Counter)
  | [], counter => .ok ([], counter)
  | item :: items, counter => do
    let (node, counter) ← entry item counter
    let (nodes, counter) ← normItems entry items counter
    return (node :: nodes, counter)

/-- `match not in ("all", "any")`. -/
def readMatch (how : Doc) : Except FilterError Match :=
  if how.isText "all" then .ok .all
  else if how.isText "any" then .ok .any
  else .error (.validation "match must be 'all' or 'any'.")

/-- The list of the entries of a group. -/
def readRules (rules : Doc) : Except FilterError (List Doc) :=
  match rules.items with
  | some items => .ok items
  | none => .error (.validation "rules must be a list.")

/-- `fields.get(key, default)`. -/
def fieldOr (key : String) (default : Doc) (fields : List (String × Doc)) : Doc := (Dict.get key fields).getD default

/-- `_norm_group`, on the dictionary that holds the group; `room` is how many more levels of groups there may be. -/
def normGroup (printable : String → Bool) (fields : List (String × Field)) : Nat → List (String × Doc) → Counter →
    Except FilterError (Tree × Counter)
  | room, body, counter => do
    let how ← readMatch (fieldOr "match" (.str "all") body)
    let items ← readRules (fieldOr "rules" (.arr []) body)
    let group : List (String × Doc) → Counter → Except FilterError (Node × Counter) :=
      match room with
      | 0 => fun _ _ => .error (.validation ("Groups can be nested " ++ toString maxDepth ++ " deep at most."))
      | room + 1 => fun item counter => do
        let counter := { counter with groups := counter.groups + 1 }
        Raise.require (decide (counter.groups ≤ maxGroups)) (.validation ("A filter can hold at most " ++ toString maxGroups ++ " groups."))
        let (tree, counter) ← normGroup printable fields room item counter
        return (.group tree.how tree.rules, counter)
    let (nodes, counter) ← normItems (normItem printable fields group) items counter
    return (⟨how, nodes⟩, counter)

/-- `raw.get("version", 1)` is the number one. -/
def isVersionOne : Doc → Bool
  | .num n => n == 1
  | .float x => x == 1
  | _ => false

/-- `validate_filter_set`. -/
def validateFilterSet (printable : String → Bool) (fields : List Field) (raw : Doc) : Except FilterError Tree :=
  match raw.pairs with
  | none => .error (.validation "A filter must be a JSON object.")
  | some raw => do
    onlyKeys "filter" ["kind", "version", "match", "rules"] raw
    Raise.require ((fieldOr "kind" (.str "filter_set") raw).isText "filter_set") (.validation "This is not a filter set.")
    Raise.require (isVersionOne (fieldOr "version" (.num 1) raw)) (.validation "version must be 1.")
    let (tree, _) ← normGroup printable (index fields) maxDepth raw ⟨0, 0⟩
    return tree

end FilterSets

end TecTac
