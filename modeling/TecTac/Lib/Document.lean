import TecTac.Lib.Dict

/-!
# Documents

A JSON document as the language reads it: an object is a dictionary, a number with a fraction or an exponent is a float,
and the reader also takes the infinities and the number that is none. The operations are those of the language on the
values it read: the truth of a value, the members of one that can be gone through, a field of a dictionary.
-/

/-- A value of a document. -/
inductive Doc where
  | null
  | bool (b : Bool)
  | num (n : Int)
  | float (x : Rat)
  | infinite (negative : Bool)
  | nan
  | str (s : String)
  | arr (xs : List Doc)
  | obj (kvs : List (String × Doc))
  deriving Inhabited

namespace Doc

/-- `bool(value)`. -/
def truthy : Doc → Bool
  | .null => false
  | .bool b => b
  | .num n => n != 0
  | .float x => x != 0
  | .infinite _ => true
  | .nan => true
  | .str s => s != ""
  | .arr xs => !xs.isEmpty
  | .obj kvs => !kvs.isEmpty

/-- `value or default`. -/
def orElse (v default : Doc) : Doc := if v.truthy then v else default

/-- The members a loop over a value goes through: the entries of a list, the characters of a text, the keys of a
dictionary. -/
def members : Doc → Option (List Doc)
  | .arr xs => some xs
  | .str s => some (s.toList.map fun c => .str (String.singleton c))
  | .obj kvs => some (kvs.map fun p => .str p.1)
  | _ => none

/-- A value as a dictionary. -/
def pairs : Doc → Option (List (String × Doc))
  | .obj kvs => some kvs
  | _ => none

/-- A value as a list. -/
def items : Doc → Option (List Doc)
  | .arr xs => some xs
  | _ => none

/-- `value == text`. -/
def isText (s : String) : Doc → Bool
  | .str t => t == s
  | _ => false

/-- `fields.get(key)`. -/
def field (key : String) (fields : List (String × Doc)) : Doc := (Dict.get key fields).getD .null

/-- `str(value)`, where `repr` writes the values that are neither texts nor whole numbers. -/
def text (repr : Doc → String) : Doc → String
  | .str s => s
  | .num n => toString n
  | .bool b => if b then "True" else "False"
  | v => repr v

/-- `str(fields.get(key) or "")`. -/
def textField (repr : Doc → String) (key : String) (fields : List (String × Doc)) : String :=
  ((field key fields).orElse (.str "")).text repr

@[simp] theorem textField_str {repr : Doc → String} {key s : String} {fields : List (String × Doc)}
    (h : Dict.get key fields = some (.str s)) : textField repr key fields = s := by
  unfold textField field orElse
  rw [h, Option.getD_some]
  split
  · rfl
  · rename_i hs
    simp only [truthy, bne_iff_ne, ne_eq, Decidable.not_not] at hs
    rw [hs]
    rfl

end Doc
