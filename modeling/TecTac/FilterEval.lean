import Mathlib
import TecTac.FilterSets

/-!
# Filter sets: the two evaluators

`build_q` turns a filter into a query of the database, and `matches` evaluates it on a row in memory; both validate the filter again
first. A moment is its microseconds since 1 January 1970 UTC and a day its number. A query is read as the database reads it: a lookup
on `NULL` does not match, and a negation keeps the rows that its query does not match, those with a `NULL` included.

`Language` holds what the language and the database do with texts and floats: the folding of a character, the decimal number that the
shortest text of a float stands for, and the readings of values that are not of the kind of their column.
-/

namespace TecTac

namespace FilterSets

/-- What an evaluator raises. -/
inductive EvalError where
  | filterSet (e : FilterError)
  | overflow
  | valueError
  | keyError
  | typeError
  deriving DecidableEq

/-- The value of a column in a row. -/
inductive Cell where
  | null
  | text (s : String)
  | bool (b : Bool)
  | int (n : Int)
  | float (x : Rat)
  | moment (t : Int)
  | day (d : Int)
  deriving DecidableEq

/-- What the evaluators rely on. Two floats in an order have decimal texts in that order, since a text is read back as its float, and
the text of a whole number is the number. -/
structure Language where
  foldChar : Char → List Char
  foldChar_ne_nil : ∀ c, foldChar c ≠ []
  decimal : Rat → Rat
  decimal_strictMono : StrictMono decimal
  decimal_int : ∀ n : Int, |(n : Rat)| ≤ maxNumber → decimal n = n
  momentOf : Cell → Option Int
  numberOf : Cell → Option Rat
  idOf : Cell → Option Int
  textOf : Cell → String

/-- `text.casefold()`. -/
def Language.casefold (language : Language) (s : String) : List Char := s.toList.flatMap language.foldChar

/-! ## Moments -/

/-- The microseconds of a day. -/
def oneDay : Int := 86400000000

/-- The days of `datetime.date.min` and `datetime.date.max`. -/
def firstDay : Int := -719162
def lastDay : Int := 2932896

/-- `datetime.datetime.min` and `datetime.datetime.max`, in UTC. -/
def firstMoment : Int := firstDay * oneDay
def lastMoment : Int := lastDay * oneDay + (oneDay - 1)

/-- A moment that a `datetime` holds. -/
def checkMoment (t : Int) : Except EvalError Int := if firstMoment ≤ t ∧ t ≤ lastMoment then .ok t else .error .overflow

/-- A day that a `date` holds. -/
def checkDay (d : Int) : Except EvalError Int := if firstDay ≤ d ∧ d ≤ lastDay then .ok d else .error .overflow

/-- `moment.date()`. -/
def dateOf (t : Int) : Int := t / oneDay

/-- The number of a day. -/
def dayNumber (year month day : Nat) : Int :=
  Calendar.daysBeforeYear year + Calendar.daysBeforeMonth (Calendar.leapDay year) month + (day - 1) - Calendar.epoch

/-- `_day_start`. -/
def dayStart (s : String) : Except EvalError Int :=
  match dateParts s with
  | some (year, month, day) => if isDate year month day then .ok (dayNumber year month day * oneDay) else .error .valueError
  | none => .error .valueError

/-- The bounds `gte`, `lt` and `lte` of a date rule. -/
structure Window where
  gte : Option Int
  lt : Option Int
  lte : Option Int
  deriving DecidableEq

/-- `_date_window`. -/
def dateWindow (now : Int) : Operator → Value → Except EvalError Window
  | .equals, .day s | .notEquals, .day s => do
    let start ← dayStart s
    return ⟨some start, some (← checkMoment (start + oneDay)), none⟩
  | .before, .day s => return ⟨none, some (← dayStart s), none⟩
  | .onOrBefore, .day s => return ⟨none, some (← checkMoment ((← dayStart s) + oneDay)), none⟩
  | .after, .day s => return ⟨some (← checkMoment ((← dayStart s) + oneDay)), none, none⟩
  | .onOrAfter, .day s => return ⟨some (← dayStart s), none, none⟩
  | .between, .days first last => do
    let start ← dayStart first
    return ⟨some start, some (← checkMoment ((← dayStart last) + oneDay)), none⟩
  | .inTheLast, .relative amount unit | .notInTheLast, .relative amount unit => do
    let cutoff ← checkMoment (now - amount * unit.seconds * 1000000)
    return ⟨some cutoff, none, some now⟩
  | _, _ => .error .typeError

/-! ## Queries -/

/-- A value that a query compares a column with. -/
inductive Bound where
  | bool (b : Bool)
  | number (x : Num)
  | moment (t : Int)
  | day (d : Int)
  deriving DecidableEq

/-- A lookup on a column. -/
inductive Lookup where
  | exact (bound : Bound)
  | gte (bound : Bound)
  | gt (bound : Bound)
  | lte (bound : Bound)
  | lt (bound : Bound)
  | iexact (s : String)
  | icontains (s : String)
  | istartswith (s : String)
  | iendswith (s : String)
  deriving DecidableEq

/-- A query. `pkIsNull` is the query that no row matches. -/
inductive Q where
  | lookup (path : String) (test : Lookup)
  | pkIsNull
  | not (q : Q)
  | and (q r : Q)
  | or (q r : Q)
  deriving DecidableEq

/-- A column and a value of one kind, as two numbers. -/
def comparable : Cell → Bound → Option (Rat × Rat)
  | .bool b, .bool c => some (if b then 1 else 0, if c then 1 else 0)
  | .int n, .number x => some (n, x.val)
  | .float y, .number x => some (y, x.val)
  | .moment t, .moment u => some (t, u)
  | .day d, .day e => some (d, e)
  | _, _ => none

/-- The folded text of a column that is no `NULL`. -/
def foldedText (language : Language) : Cell → Option (List Char)
  | .text s => some (language.casefold s)
  | _ => none

/-- A lookup matches the value of a column. -/
def Lookup.matches (language : Language) (cell : Cell) : Lookup → Bool
  | exact bound => (comparable cell bound).any fun p => decide (p.1 = p.2)
  | gte bound => (comparable cell bound).any fun p => decide (p.2 ≤ p.1)
  | gt bound => (comparable cell bound).any fun p => decide (p.2 < p.1)
  | lte bound => (comparable cell bound).any fun p => decide (p.1 ≤ p.2)
  | lt bound => (comparable cell bound).any fun p => decide (p.1 < p.2)
  | iexact s => (foldedText language cell).any fun text => decide (text = language.casefold s)
  | icontains s => (foldedText language cell).any fun text => decide (language.casefold s <:+: text)
  | istartswith s => (foldedText language cell).any fun text => decide (language.casefold s <+: text)
  | iendswith s => (foldedText language cell).any fun text => decide (language.casefold s <:+ text)

/-- A query selects a row, given by its columns. -/
def Q.selects (language : Language) (columns : String → Cell) : Q → Bool
  | lookup path test => test.matches language (columns path)
  | pkIsNull => false
  | not q => !q.selects language columns
  | and q r => q.selects language columns && r.selects language columns
  | or q r => q.selects language columns || r.selects language columns

/-! ## `build_q` -/

/-- The path that a field declares. -/
def declaredPath (text : String) : Option String → Except EvalError String
  | some path => .ok path
  | none => .error (.filterSet (.validation text))

/-- `q = parts[0]`, and the other parts with it. -/
def joined (join : Q → Q → Q) : List Q → Except EvalError Q
  | [] => .error .typeError
  | q :: parts => .ok (parts.foldl join q)

/-- The first day of a column of days that lies in a window from a moment on. -/
def lowDay (gte : Int) : Except EvalError Int :=
  if gte = dateOf gte * oneDay then .ok (dateOf gte) else checkDay (dateOf gte + 1)

/-- The bounds of a window as lookups on a column of days. -/
def dayParts (path : String) (window : Window) : Except EvalError (List Q) := do
  let low ← match window.gte with
    | some gte => do pure [.lookup path (.gte (.day (← lowDay gte)))]
    | none => pure []
  let lt := window.lt.toList.map fun t => .lookup path (.lt (.day (dateOf t)))
  let lte := window.lte.toList.map fun t => .lookup path (.lte (.day (dateOf t)))
  return low ++ lt ++ lte

/-- The bounds of a window as lookups on a column of moments. -/
def momentParts (path : String) (window : Window) : List Q :=
  (window.gte.toList.map fun t => Q.lookup path (.gte (.moment t))) ++ (window.lt.toList.map fun t => Q.lookup path (.lt (.moment t))) ++
    window.lte.toList.map fun t => Q.lookup path (.lte (.moment t))

/-- A query, negated for a negative operator. -/
def negatedFor (negative : List Operator) (op : Operator) (q : Q) : Q := if op ∈ negative then .not q else q

/-- `_date_leaf_q`. -/
def dateLeafQ (field : Field) (storedAs : StoredAs) (op : Operator) (value : Value) (now : Int) : Except EvalError Q := do
  let path ← declaredPath ("Field '" ++ field.id ++ "' declares no lookup.") field.lookup
  let window ← dateWindow now op value
  let q ← match storedAs with
    | .date =>
      if op = .equals ∨ op = .notEquals then
        match window.gte with
        | some gte => pure (.lookup path (.exact (.day (dateOf gte))))
        | none => .error .typeError
      else do joined .and (← dayParts path window)
    | .datetime => joined .and (momentParts path window)
  return negatedFor [.notEquals, .notInTheLast] op q

/-- `_number_leaf_q`. -/
def numberLeafQ (field : Field) (op : Operator) (value : Value) : Except EvalError Q := do
  let path ← declaredPath ("Field '" ++ field.id ++ "' declares no lookup.") field.lookup
  match op, value with
  | .equals, .number x => return .lookup path (.exact (.number x))
  | .notEquals, .number x => return .not (.lookup path (.exact (.number x)))
  | .between, .numbers first last => return .and (.lookup path (.gte (.number first))) (.lookup path (.lte (.number last)))
  | .greaterThan, .number x => return .lookup path (.gt (.number x))
  | .lessThan, .number x => return .lookup path (.lt (.number x))
  | .atLeast, .number x => return .lookup path (.gte (.number x))
  | .atMost, .number x => return .lookup path (.lte (.number x))
  | _, _ => .error .typeError

/-- The lookup of `_LOOKUP_SUFFIX` on a text. -/
def textLookup (s : String) : Operator → Except EvalError Lookup
  | .equals | .notEquals => .ok (.iexact s)
  | .contains | .notContains => .ok (.icontains s)
  | .startsWith => .ok (.istartswith s)
  | .endsWith => .ok (.iendswith s)
  | _ => .error .keyError

/-- `_NEGATED`. -/
def negatedTexts : List Operator := [.notEquals, .notContains]

/-- The query of a rule on a text. -/
def textLeafQ (field : Field) (lookup : Option String) (op : Operator) (value : Value) : Except EvalError Q := do
  let path ← declaredPath ("Field '" ++ field.id ++ "' declares no lookup for this operator.") lookup
  match value with
  | .text s => return negatedFor negatedTexts op (.lookup path (← textLookup s op))
  | _ => .error .typeError

/-- The query of a rule on an id. -/
def idLeafQ (field : Field) (op : Operator) (value : Value) : Except EvalError Q := do
  let path ← declaredPath ("Field '" ++ field.id ++ "' declares no lookup.") field.lookup
  match value with
  | .id n => return negatedFor negatedTexts op (.lookup path (.exact (.number (.int n))))
  | _ => .error .typeError

/-- The query of a rule on a yes/no field. -/
def boolLeafQ (field : Field) (value : Value) : Except EvalError Q := do
  let path ← declaredPath ("Field '" ++ field.id ++ "' declares no lookup.") field.lookup
  match value with
  | .bool b => return .lookup path (.exact (.bool b))
  | _ => .error .typeError

/-- `_leaf_q`. -/
def leafQ (field : Field) (op : Operator) (value : Value) (now : Int) : Except EvalError Q :=
  match field.kind with
  | .date storedAs => dateLeafQ field storedAs op value now
  | .number _ _ _ => numberLeafQ field op value
  | .bool => boolLeafQ field value
  | .id nameLookup _ => if op ∈ Operator.forId then idLeafQ field op value else textLeafQ field nameLookup op value
  | .text => textLeafQ field field.lookup op value

/-- `index[item["field"]]`. -/
def fieldOf (fields : List (String × Field)) (id : String) : Except EvalError Field :=
  match Dict.get id fields with
  | some field => .ok field
  | none => .error .keyError

/-- The query of a group from those of its entries; a group without entries matches nothing. -/
def groupQ (how : Match) : List Q → Except EvalError Q
  | [] => .ok .pkIsNull
  | parts => joined (match how with | .all => .and | .any => .or) parts

mutual

/-- The query of an entry. -/
def nodeQ (fields : List (String × Field)) (now : Int) : Node → Except EvalError Q
  | .rule r => do leafQ (← fieldOf fields r.field) r.operator r.value now
  | .group how nodes => do groupQ how (← nodesQ fields now nodes)

/-- The queries of the entries of a group. -/
def nodesQ (fields : List (String × Field)) (now : Int) : List Node → Except EvalError (List Q)
  | [] => .ok []
  | node :: nodes => do
    let q ← nodeQ fields now node
    return q :: (← nodesQ fields now nodes)

end

/-- The filter, validated again. -/
def revalidated (printable : String → Bool) (fields : List Field) (raw : Doc) : Except EvalError Tree :=
  (validateFilterSet printable fields raw).mapError .filterSet

/-- `build_q`. -/
def buildQ (printable : String → Bool) (fields : List Field) (now : Int) (raw : Doc) : Except EvalError Q := do
  let tree ← revalidated printable fields raw
  groupQ tree.how (← nodesQ (index fields) now tree.rules)

/-! ## `matches` -/

/-- `_row_moment`. -/
def rowMoment (language : Language) : Cell → Option Int
  | .null | .bool _ => none
  | .moment t => some t
  | .day d => some (d * oneDay)
  | cell => language.momentOf cell

/-- `_row_number`. -/
def rowNumber (language : Language) : Cell → Option Rat
  | .null | .bool _ => none
  | .int n => some n
  | .float x => some (language.decimal x)
  | cell => language.numberOf cell

/-- `_dec`. -/
def dec (language : Language) : Num → Rat
  | .int n => n
  | .float x => language.decimal x

/-- The value of an id column as `int` reads it. -/
def rowId (language : Language) : Cell → Option Int
  | .null | .bool _ => none
  | .int n => some n
  | cell => language.idOf cell

/-- `_text`. -/
def rowText (language : Language) : Cell → List Char
  | .null => []
  | .text s => language.casefold s
  | cell => language.casefold (language.textOf cell)

/-- A moment lies in a window. -/
def Window.holds (window : Window) (t : Int) : Bool :=
  (window.gte.all fun gte => decide (gte ≤ t)) && (window.lt.all fun lt => decide (t < lt)) && window.lte.all fun lte => decide (t ≤ lte)

/-- `_row_date_rule`. -/
def rowDateRule (language : Language) (field : Field) (op : Operator) (value : Value) (row : String → Cell) (now : Int) :
    Except EvalError Bool := do
  let key ← declaredPath ("Field '" ++ field.id ++ "' declares no row_key.") field.rowKey
  let negated := decide (op ∈ [Operator.notEquals, Operator.notInTheLast])
  match rowMoment language (row key) with
  | none => return negated
  | some actual =>
    let window ← dateWindow now op value
    return if negated then !window.holds actual else window.holds actual

/-- `_row_number_rule`. -/
def rowNumberRule (language : Language) (field : Field) (op : Operator) (value : Value) (row : String → Cell) : Except EvalError Bool := do
  let key ← declaredPath ("Field '" ++ field.id ++ "' declares no row_key.") field.rowKey
  match rowNumber language (row key) with
  | none => return decide (op = .notEquals)
  | some actual =>
    match op, value with
    | .between, .numbers first last => return decide (dec language first ≤ actual) && decide (actual ≤ dec language last)
    | .equals, .number x => return decide (actual = dec language x)
    | .notEquals, .number x => return decide (actual ≠ dec language x)
    | .greaterThan, .number x => return decide (dec language x < actual)
    | .lessThan, .number x => return decide (actual < dec language x)
    | .atLeast, .number x => return decide (dec language x ≤ actual)
    | _, .number x => return decide (actual ≤ dec language x)
    | _, _ => .error .typeError

/-- A rule on a text. -/
def rowTextRule (language : Language) (field : Field) (rowKey : Option String) (op : Operator) (value : Value) (row : String → Cell) :
    Except EvalError Bool := do
  let key ← declaredPath ("Field '" ++ field.id ++ "' declares no row_key for this operator.") rowKey
  match value with
  | .text s =>
    let actual := rowText language (row key)
    let wanted := language.casefold s
    match op with
    | .equals => return decide (actual = wanted)
    | .notEquals => return decide (actual ≠ wanted)
    | .contains => return decide (wanted <:+: actual)
    | .notContains => return decide (¬ wanted <:+: actual)
    | .startsWith => return decide (wanted <+: actual)
    | _ => return decide (wanted <:+ actual)
  | _ => .error .typeError

/-- A rule on an id. -/
def rowIdRule (language : Language) (field : Field) (op : Operator) (value : Value) (row : String → Cell) : Except EvalError Bool := do
  let key ← declaredPath ("Field '" ++ field.id ++ "' declares no row_key.") field.rowKey
  match value with
  | .id n =>
    let same := decide (rowId language (row key) = some n)
    return if op = .equals then same else !same
  | _ => .error .typeError

/-- `bool(row.get(key))`. -/
def Cell.truthy : Cell → Bool
  | .null => false
  | .text s => s != ""
  | .bool b => b
  | .int n => n != 0
  | .float x => x != 0
  | .moment _ | .day _ => true

/-- A rule on a yes/no field. -/
def rowBoolRule (field : Field) (value : Value) (row : String → Cell) : Except EvalError Bool := do
  let key ← declaredPath ("Field '" ++ field.id ++ "' declares no row_key.") field.rowKey
  match value with
  | .bool b => return (row key).truthy == b
  | _ => .error .typeError

/-- `_row_rule`. -/
def rowRule (language : Language) (field : Field) (op : Operator) (value : Value) (row : String → Cell) (now : Int) : Except EvalError Bool :=
  match field.kind with
  | .date _ => rowDateRule language field op value row now
  | .number _ _ _ => rowNumberRule language field op value row
  | .bool => rowBoolRule field value row
  | .id _ nameKey => if op ∈ Operator.forId then rowIdRule language field op value row else rowTextRule language field nameKey op value row
  | .text => rowTextRule language field field.rowKey op value row

mutual

/-- An entry matches. -/
def nodeMatches (language : Language) (fields : List (String × Field)) (row : String → Cell) (now : Int) : Node → Except EvalError Bool
  | .rule r => do rowRule language (← fieldOf fields r.field) r.operator r.value row now
  | .group _ [] => .ok false
  | .group .all (node :: nodes) => allMatch language fields row now (node :: nodes)
  | .group .any (node :: nodes) => anyMatch language fields row now (node :: nodes)

/-- `all(results)`: the entries are evaluated up to the first that does not match. -/
def allMatch (language : Language) (fields : List (String × Field)) (row : String → Cell) (now : Int) : List Node → Except EvalError Bool
  | [] => .ok true
  | node :: nodes => do if ← nodeMatches language fields row now node then allMatch language fields row now nodes else return false

/-- `any(results)`: the entries are evaluated up to the first that matches. -/
def anyMatch (language : Language) (fields : List (String × Field)) (row : String → Cell) (now : Int) : List Node → Except EvalError Bool
  | [] => .ok false
  | node :: nodes => do if ← nodeMatches language fields row now node then return true else anyMatch language fields row now nodes

end

/-- `matches`. -/
def matchesRow (printable : String → Bool) (language : Language) (fields : List Field) (now : Int) (raw : Doc) (row : String → Cell) :
    Except EvalError Bool := do
  let tree ← revalidated printable fields raw
  nodeMatches language (index fields) row now (.group tree.how tree.rules)

end FilterSets

end TecTac
