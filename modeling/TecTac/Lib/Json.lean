import TecTac.Lib.Dict

/-!
# JSON values

The values a JSON column holds. An object keeps its pairs in the order they were written; equality of values is
decidable. `same` is the coarser equality of the language: a truth value equals its number, and the order of an object's
pairs does not count. `canonical` sorts the pairs, which is what a digest of a value sees of it.
-/

/-- A JSON value. -/
inductive Json where
  | null
  | bool (b : Bool)
  | num (n : Int)
  | str (s : String)
  | arr (xs : List Json)
  | obj (kvs : List (String × Json))

namespace Json

/-- The empty object, the default of a JSON column. -/
def empty : Json := .obj []

mutual

/-- Equality of values is decidable. -/
def decEq : (a b : Json) → Decidable (a = b)
  | .null, .null => isTrue rfl
  | .bool a, .bool b => decidable_of_iff (a = b) (by simp)
  | .num a, .num b => decidable_of_iff (a = b) (by simp)
  | .str a, .str b => decidable_of_iff (a = b) (by simp)
  | .arr a, .arr b => @decidable_of_iff _ (a = b) (by simp) (decEqList a b)
  | .obj a, .obj b => @decidable_of_iff _ (a = b) (by simp) (decEqPairs a b)
  | .null, .bool _ | .null, .num _ | .null, .str _ | .null, .arr _ | .null, .obj _ => isFalse nofun
  | .bool _, .null | .bool _, .num _ | .bool _, .str _ | .bool _, .arr _ | .bool _, .obj _ => isFalse nofun
  | .num _, .null | .num _, .bool _ | .num _, .str _ | .num _, .arr _ | .num _, .obj _ => isFalse nofun
  | .str _, .null | .str _, .bool _ | .str _, .num _ | .str _, .arr _ | .str _, .obj _ => isFalse nofun
  | .arr _, .null | .arr _, .bool _ | .arr _, .num _ | .arr _, .str _ | .arr _, .obj _ => isFalse nofun
  | .obj _, .null | .obj _, .bool _ | .obj _, .num _ | .obj _, .str _ | .obj _, .arr _ => isFalse nofun

/-- Equality of lists of values is decidable. -/
def decEqList : (a b : List Json) → Decidable (a = b)
  | [], [] => isTrue rfl
  | [], _ :: _ => isFalse nofun
  | _ :: _, [] => isFalse nofun
  | a :: as, b :: bs =>
    match decEq a b, decEqList as bs with
    | isTrue h, isTrue h' => isTrue (by rw [h, h'])
    | isFalse h, _ => isFalse (by simp [h])
    | _, isFalse h => isFalse (by simp [h])

/-- Equality of the pairs of two objects is decidable. -/
def decEqPairs : (a b : List (String × Json)) → Decidable (a = b)
  | [], [] => isTrue rfl
  | [], _ :: _ => isFalse nofun
  | _ :: _, [] => isFalse nofun
  | (k, a) :: as, (l, b) :: bs =>
    match decEq a b, decEqPairs as bs, String.decEq k l with
    | isTrue h, isTrue h', isTrue hk => isTrue (by rw [h, h', hk])
    | isFalse h, _, _ => isFalse (by simp [h])
    | _, isFalse h, _ => isFalse (by simp [h])
    | _, _, isFalse h => isFalse (by simp [h])

end

instance : DecidableEq Json := decEq

instance : Inhabited Json := ⟨empty⟩

/-- `bool(value)`. -/
def truthy : Json → Bool
  | .null => false
  | .bool b => b
  | .num n => n != 0
  | .str s => s != ""
  | .arr xs => !xs.isEmpty
  | .obj kvs => !kvs.isEmpty

/-- The number a truth value equals. -/
def boolNum (b : Bool) : Int := if b then 1 else 0

mutual

/-- `==` on two values. -/
def same : Json → Json → Bool
  | .null, .null => true
  | .bool a, .bool b => a == b
  | .bool a, .num b => boolNum a == b
  | .num a, .bool b => a == boolNum b
  | .num a, .num b => a == b
  | .str a, .str b => a == b
  | .arr as, .arr bs => sameList as bs
  | .obj as, .obj bs => as.length == bs.length && sameIn as bs
  | _, _ => false

/-- `==` on two lists. -/
def sameList : List Json → List Json → Bool
  | [], [] => true
  | a :: as, b :: bs => same a b && sameList as bs
  | _, _ => false

/-- Every pair of an object is in another one. -/
def sameIn : List (String × Json) → List (String × Json) → Bool
  | [], _ => true
  | (k, a) :: as, bs => (match Dict.get k bs with | some b => same a b | none => false) && sameIn as bs

end

/-- A pair takes its place in a list that is sorted by the keys. -/
def insertPair (p : String × Json) : List (String × Json) → List (String × Json)
  | [] => [p]
  | q :: qs => if p.1 ≤ q.1 then p :: q :: qs else q :: insertPair p qs

mutual

/-- The value with the pairs of every object sorted by their keys, as `json.dumps` with `sort_keys` writes it. -/
def canonical : Json → Json
  | .arr xs => .arr (canonicalList xs)
  | .obj kvs => .obj (canonicalPairs kvs)
  | .null => .null
  | .bool b => .bool b
  | .num n => .num n
  | .str s => .str s

def canonicalList : List Json → List Json
  | [] => []
  | x :: xs => canonical x :: canonicalList xs

def canonicalPairs : List (String × Json) → List (String × Json)
  | [] => []
  | (k, v) :: kvs => insertPair (k, canonical v) (canonicalPairs kvs)

end

theorem get_insertPair (k : String) (p : String × Json) (kvs : List (String × Json)) :
    Dict.get k (insertPair p kvs) = if p.1 = k then some p.2 else Dict.get k kvs := by
  induction kvs with
  | nil => simp [insertPair, Dict.get]
  | cons q qs ih =>
    unfold insertPair
    split
    · exact Dict.get_cons k p.1 p.2 (q :: qs)
    · rename_i hlt
      rw [Dict.get_cons, Dict.get_cons, ih]
      by_cases hq : q.1 = k
      · have hne : p.1 ≠ k := fun hp => hlt (by simpa only [hp, hq] using String.le_refl k)
        simp [hq, hne]
      · simp [hq]

/-- A field of the sorted value is the sorted field. -/
theorem get_canonicalPairs (k : String) (kvs : List (String × Json)) :
    Dict.get k (canonicalPairs kvs) = (Dict.get k kvs).map canonical := by
  induction kvs with
  | nil => rfl
  | cons p kvs ih =>
    rw [canonicalPairs, get_insertPair, ih, Dict.get_cons]
    split <;> rfl

end Json
