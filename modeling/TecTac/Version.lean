import Mathlib
import TecTac.Lib.Text
import TecTac.Lib.Raise

/-!
# Versions and constraints

The versions of modules as `module_state.py` reads, orders and constrains them, and the keys by which `system_update.py` and the root helper order the
versions of packages. A text is the list of its characters, and two texts are ordered as lists are. Every pattern is written out as the search that the
language makes with it: what a part takes first, and what it falls back to when the rest does not fit.
-/

namespace TecTac

/-! ## Numbers -/

/-- `\d`. -/
def isDecimal (c : Char) : Bool := (decimalDigit c).isSome

/-- `\d+` and its value, and what follows. The part takes every digit: nothing that may follow it begins with one. -/
def number (s : List Char) : Option (Nat × List Char) :=
  let digits := s.takeWhile isDecimal
  if digits = [] then none else some ((intOfDigits digits).getD 0, s.dropWhile isDecimal)

/-- `\.(\d+)`. -/
def dotted : List Char → Option (Nat × List Char)
  | '.' :: s => number s
  | _ => none

/-- `re.fullmatch(r"-(\d+)", suffix)`: the number of a rebuild. -/
def rebuild : List Char → Option Nat
  | '-' :: digits => if digits ≠ [] ∧ digits.all isDecimal then intOfDigits digits else none
  | _ => none

/-! ## module_state.py -/

/-- What `Version.parse` and `version_satisfies` raise. -/
inductive StateError where
  | version (value : List Char)
  | constraint (value : List Char)
  deriving DecidableEq

/-- A parsed version. -/
structure Version where
  major : Nat
  minor : Nat
  patch : Nat
  suffix : List Char := []
  deriving DecidableEq

namespace Version

def isAlphanumeric (c : Char) : Bool := ('0' ≤ c && c ≤ '9') || ('A' ≤ c && c ≤ 'Z') || ('a' ≤ c && c ≤ 'z')

/-- `[0-9A-Za-z.-]`. -/
def isSuffixChar (c : Char) : Bool := isAlphanumeric c || c == '.' || c == '-'

/-- `[-+.]`. -/
def isSuffixStart (c : Char) : Bool := c == '-' || c == '+' || c == '.'

/-- `([-+.][0-9A-Za-z.-]+)?\s*$`: the suffix. -/
def ending : List Char → Option (List Char)
  | [] => some []
  | c :: cs =>
    if isSuffixStart c then
      let body := cs.takeWhile isSuffixChar
      if body ≠ [] ∧ (cs.dropWhile isSuffixChar).all isSpace then some (c :: body) else none
    else if (c :: cs).all isSpace then some [] else none

/-- The parts of `_VERSION_RE` after the first number: two optional numbers and the ending, from the longest reading to the shortest. A number that
leaves no ending is given back and may then begin the suffix. -/
def rest (major : Nat) (s : List Char) : Option Version :=
  let short := (ending s).map (Version.mk major 0 0)
  match dotted s with
  | none => short
  | some (minor, s') =>
    let middle := ((ending s').map (Version.mk major minor 0)).or short
    match dotted s' with
    | none => middle
    | some (patch, s'') => ((ending s'').map (Version.mk major minor patch)).or middle

/-- The version of a text, if `_VERSION_RE` takes it. -/
def read (value : List Char) : Option Version := do
  let (major, s) ← number (value.dropWhile isSpace)
  rest major s

/-- `Version.parse`. -/
def parse (value : List Char) : Except StateError Version :=
  match read value with
  | some v => .ok v
  | none => .error (.version value)

def core (v : Version) : Nat × Nat × Nat := (v.major, v.minor, v.patch)

/-- How the language compares the tuples of two cores. -/
def compareCore (left right : Version) : Ordering :=
  ((compare left.major right.major).then (compare left.minor right.minor)).then (compare left.patch right.patch)

/-- `_compare`. -/
def order (left right : Version) : Ordering :=
  match compareCore left right with
  | .lt => .lt
  | .gt => .gt
  | .eq =>
    if left.suffix = right.suffix then .eq
    else
      match rebuild left.suffix, rebuild right.suffix with
      | some n, some m => compare n m
      | some _, none => .gt
      | none, some _ => .lt
      | none, none =>
        if left.suffix = [] then .gt
        else if right.suffix = [] then .lt
        else if left.suffix < right.suffix then .lt else .gt

end Version

/-- The operators of a constraint. -/
inductive Operator where
  | eq | ne | ge | le | gt | lt
  deriving DecidableEq, Repr

/-- The row of an operator in the table of `version_satisfies`. -/
def Operator.holds : Operator → Ordering → Bool
  | .eq, o => o == .eq
  | .ne, o => o != .eq
  | .gt, o => o == .gt
  | .ge, o => o != .lt
  | .lt, o => o == .lt
  | .le, o => o != .gt

namespace Constraint

/-- The operators in the order in which `_CONSTRAINT_RE` tries them. -/
def operators : List (List Char × Operator) :=
  [(['=', '='], .eq), (['!', '='], .ne), (['>', '='], .ge), (['<', '='], .le), (['>'], .gt), (['<'], .lt)]

/-- `\s*([^\s,]+)\s*$`. -/
def token (s : List Char) : Option (List Char) :=
  let s := s.dropWhile isSpace
  let word := s.takeWhile fun c => !isSpace c && c != ','
  if word ≠ [] ∧ (s.dropWhile fun c => !isSpace c && c != ',').all isSpace then some word else none

/-- The reading with one of the operators. -/
def withOperator (s : List Char) (entry : List Char × Operator) : Option (Operator × List Char) :=
  if entry.1.isPrefixOf s then (token (s.drop entry.1.length)).map fun word => (entry.2, word) else none

/-- One part of a constraint, as `_CONSTRAINT_RE` reads it. Without an operator it is an equality. -/
def read (part : List Char) : Option (Operator × List Char) :=
  let s := part.dropWhile isSpace
  (operators.findSome? (withOperator s)).or ((token s).map fun word => (.eq, word))

/-- One part of a constraint with the version it names. -/
def part (p : List Char) : Option (Operator × Version) := do
  let (operator, word) ← read p
  let expected ← Version.read word
  return (operator, expected)

/-- `str(constraint or "").strip()`. -/
def raw (constraint : List Char) : List Char := strip constraint

/-- A constraint that every version satisfies. -/
def isAny (constraint : List Char) : Bool := raw constraint == [] || raw constraint == ['*']

def parts (constraint : List Char) : List (List Char) := (raw constraint).splitOn ','

end Constraint

/-- The loop of `version_satisfies`, which ends at the first part that does not hold. -/
def satisfiesParts (constraint : List Char) (current : Version) : List (List Char) → Except StateError Bool
  | [] => .ok true
  | p :: ps =>
    match Constraint.read p with
    | none => .error (.constraint constraint)
    | some (operator, word) => do
      let expected ← Version.parse word
      if operator.holds (current.order expected) then satisfiesParts constraint current ps else return false

/-- `version_satisfies`. -/
def versionSatisfies (version constraint : List Char) : Except StateError Bool :=
  if Constraint.isAny constraint then .ok true
  else do
    let current ← Version.parse version
    satisfiesParts constraint current (Constraint.parts constraint)

/-! ## system_update.py and system-update-helper.py -/

namespace SystemUpdate

/-- The last part of a key: the number of a rebuild, or a text. -/
inductive KeyEnd where
  | number (n : Nat)
  | text (s : List Char)
  deriving DecidableEq

/-- The tuple that `_version_key` answers. -/
structure Key where
  major : Nat
  minor : Nat
  patch : Nat
  rank : Nat
  last : KeyEnd
  deriving DecidableEq

/-- The order of two texts. -/
def textOrder (s t : List Char) : Ordering := if s = t then .eq else if s < t then .lt else .gt

/-- The order of two last parts; a number and a text have none, and the comparison raises. -/
def KeyEnd.order : KeyEnd → KeyEnd → Option Ordering
  | .number n, .number m => some (compare n m)
  | .text s, .text t => some (textOrder s t)
  | _, _ => none

/-- The order of two keys, part by part. -/
def Key.order (k l : Key) : Option Ordering :=
  match (((compare k.major l.major).then (compare k.minor l.minor)).then (compare k.patch l.patch)).then (compare k.rank l.rank) with
  | .eq => k.last.order l.last
  | o => some o

/-- The letter `v` before the numbers is left out. -/
def withoutV : List Char → List Char
  | c :: s => if c = 'v' ∨ c = 'V' then s else c :: s
  | [] => []

/-- The three numbers of a text and what follows them. Every number that can be taken is taken, because `.*` takes whatever follows. -/
def numbers (s : List Char) : Option ((Nat × Nat × Nat) × List Char) :=
  match number s with
  | none => none
  | some (major, s) =>
    match dotted s with
    | none => some ((major, 0, 0), s)
    | some (minor, s') =>
      match dotted s' with
      | none => some ((major, minor, 0), s')
      | some (patch, s'') => some ((major, minor, patch), s'')

/-- `_version_key`. `lower` is `str.lower`; `.` takes everything but a line feed. -/
def versionKey (lower : List Char → List Char) (value : List Char) : Key :=
  match numbers (withoutV (strip value)) with
  | none => ⟨0, 0, 0, 0, .text (lower value)⟩
  | some ((major, minor, patch), s) =>
    if '\n' ∈ s then ⟨0, 0, 0, 0, .text (lower value)⟩
    else
      match rebuild (strip s) with
      | some n => ⟨major, minor, patch, 2, .number n⟩
      | none => ⟨major, minor, patch, if strip s = [] then 1 else 0, .text (lower (strip s))⟩

/-- `_version_key` of the root helper, which also takes nothing for a version. -/
def helperVersionKey (lower : List Char → List Char) (value : Option (List Char)) : Key := versionKey lower (value.getD [])

/-- The operators of `_satisfies`, in the order in which it tries them. -/
def operators : List (List Char × Operator) :=
  [(['>', '='], .ge), (['<', '='], .le), (['>'], .gt), (['<'], .lt), (['=', '='], .eq), (['='], .eq)]

/-- `_satisfies`; nothing where a comparison raises. An equality of two keys never does. -/
def satisfies (lower : List Char → List Char) (version constraint : Option (List Char)) : Option Bool :=
  match constraint.getD [] with
  | [] => some true
  | constraint =>
    match version.getD [] with
    | [] => some false
    | version =>
      let text := strip constraint
      match operators.find? fun entry => entry.1.isPrefixOf text with
      | some (word, operator) =>
        ((versionKey lower version).order (versionKey lower (strip (text.drop word.length)))).map operator.holds
      | none => some (decide (versionKey lower version = versionKey lower text))

end SystemUpdate

end TecTac
