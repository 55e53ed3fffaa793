import TecTac.Lib.Dict
import TecTac.Lib.JsonSize

/-!
# The retention of archives

`operation_apply_retention` of `server-backup-helper.py`, for policies whose destinations are listed and answer each deletion. What `validate_destination` and the listing of a destination make of a
policy is given, and so is what a deletion answers.
-/

namespace TecTac

namespace Retention

/-- `sidecar_status`. -/
inductive Sidecar where
  | ok
  | missing
  | unreadable
  deriving DecidableEq

/-- What the lists of archives are told by, of a listed archive. -/
structure Row where
  archiveName : String
  backupClass : String
  modifiedAt : JsonValue
  createdAt : JsonValue
  sidecarStatus : Sidecar

/-- The classes of `keep`. -/
inductive Class where
  | daily
  | weekly
  | monthly
  | unclassified
  deriving DecidableEq

def Class.text : Class → String
  | .daily => "daily"
  | .weekly => "weekly"
  | .monthly => "monthly"
  | .unclassified => "unclassified"

def classes : List Class := [.daily, .weekly, .monthly, .unclassified]

/-- The class that an archive counts for: a manual one is unclassified, and so is one of a class that is not known. -/
def Row.cls (row : Row) : Class :=
  if row.backupClass = "daily" then .daily else if row.backupClass = "weekly" then .weekly else if row.backupClass = "monthly" then .monthly else .unclassified

/-- What the language makes of values: the text of one, the number that a text is, and the number that a float is cut to. -/
structure Language where
  str : JsonValue → String
  intOfText : String → Except String Int
  intOfFloat : String → Except String Int

/-- `int(value)`. -/
def Language.int (lang : Language) : JsonValue → Except String Int
  | .num n => .ok n
  | .bool b => .ok (if b then 1 else 0)
  | .str s => lang.intOfText s
  | .float _ digits => lang.intOfFloat digits
  | _ => .error "TypeError"

abbrev Fields := List (String × JsonValue)

section

variable (lang : Language)

/-- `keep[cls]`. -/
def keepValue (raw : Fields) (cls : Class) : Except String Nat :=
  if cls = .unclassified ∧ Dict.get "keep_unclassified" raw = none then .ok 10000
  else
    match lang.int ((Dict.get ("keep_" ++ cls.text) raw).getD (.num 0)) with
    | .error reason => .error reason
    | .ok value => if value < 0 ∨ 10000 < value then .error "retention keep values must be between 0 and 10000" else .ok value.toNat

/-- `keep`. -/
def keeps (raw : Fields) : Except String (List (Class × Nat)) := classes.mapM fun cls => do return (cls, ← keepValue lang raw cls)

/-- How many of a class are kept. -/
def keepOf (keep : List (Class × Nat)) (cls : Class) : Nat := (Dict.get cls keep).getD 0

/-- The text that archives are sorted by. -/
def sortKey (row : Row) : String := if row.modifiedAt.truthy then lang.str row.modifiedAt else if row.createdAt.truthy then lang.str row.createdAt else ""

/-- The archives of a class whose metadata could be read. -/
def grouped (rows : List Row) (cls : Class) : List Row := rows.filter fun row => decide (row.sidecarStatus ≠ .unreadable) && decide (row.cls = cls)

/-- `items.sort(key=..., reverse=True)`. -/
def newestFirst (items : List Row) : List Row := items.mergeSort fun a b => decide (sortKey lang b ≤ sortKey lang a)

/-- `items[keep[cls]:]`. -/
def beyond (keep : List (Class × Nat)) (rows : List Row) (cls : Class) : List Row := (newestFirst lang (grouped rows cls)).drop (keepOf keep cls)

/-- What a policy comes to before its archives are gone through: it is refused, or its destination is listed and answers deletions, with the reason of one that fails. -/
inductive Case where
  | refused (reason : String)
  | listed (rows : List Row) (delete : Row → Option String)

/-- What was done for a policy. -/
structure Done where
  keep : List (Class × Nat)
  rows : List Row
  deleted : List (Class × Row)
  failures : List (Row × String)
  protectedUnreadable : List Row

/-- The archives of one policy are gone through. -/
def retain (keep : List (Class × Nat)) (rows : List Row) (delete : Row → Option String) : Done :=
  let attempts := classes.flatMap fun cls => (beyond lang keep rows cls).map fun row => (cls, row)
  { keep, rows
    deleted := attempts.filter fun attempt => delete attempt.2 == none
    failures := attempts.filterMap fun attempt => (delete attempt.2).map fun reason => (attempt.2, reason)
    protectedUnreadable := rows.filter fun row => decide (row.sidecarStatus = .unreadable) }

/-- `operation_apply_retention`: what was done, and the reason of the policy that ended it. What was done is told in the result where there is no such reason, whether deletions failed or not. -/
def applyRetention : List (Fields × Case) → List Done × Option String
  | [] => ([], none)
  | (raw, case) :: policies =>
    match case, keeps lang raw with
    | .refused reason, _ => ([], some reason)
    | _, .error reason => ([], some reason)
    | .listed rows delete, .ok keep =>
      let (done, reason) := applyRetention policies
      (retain lang keep rows delete :: done, reason)

end

end Retention

end TecTac
