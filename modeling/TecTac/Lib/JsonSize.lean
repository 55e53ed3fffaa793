import TecTac.Lib.Dict

/-!
# The size of a written document

How many bytes a document has when it is written with ASCII characters only: a character outside of these counts as its escapes. A value of another type is written as its
text where that can be had, and nothing can be written of a document with one that has no text.
-/

/-- A value that is to be written. -/
inductive JsonValue where
  | null
  | bool (b : Bool)
  | num (n : Int)
  | float (zero : Bool) (digits : String)
  | str (s : String)
  | list (xs : List JsonValue)
  | dict (fields : List (String × JsonValue))
  | other (truthy : Bool) (text : Option String)
  deriving Inhabited

namespace JsonValue

/-- `bool(value)`. -/
def truthy : JsonValue → Bool
  | .null => false
  | .bool b => b
  | .num n => n != 0
  | .float zero _ => !zero
  | .str s => s != ""
  | .list xs => !xs.isEmpty
  | .dict fields => !fields.isEmpty
  | .other truthy _ => truthy

/-- The bytes of a character between quotes. -/
def charBytes (c : Char) : Nat :=
  if c ∈ ['"', '\\', '\n', '\r', '\t', '\x08', '\x0c'] then 2
  else if 32 ≤ c.toNat ∧ c.toNat ≤ 126 then 1
  else if c.toNat < 65536 then 6
  else 12

def textBytes (s : String) : Nat := 2 + (s.toList.map charBytes).sum

/-- What stands between a member and the next. -/
def comma {α : Type} (rest : List α) : Nat := if rest.isEmpty then 0 else 2

mutual

/-- The bytes of a value. -/
def bytes : JsonValue → Option Nat
  | .null => some 4
  | .bool b => some (if b then 4 else 5)
  | .num n => some (toString n).length
  | .float _ digits => some digits.length
  | .str s => some (textBytes s)
  | .list xs => (itemsBytes xs).map (2 + ·)
  | .dict fields => (fieldsBytes fields).map (2 + ·)
  | .other _ text => text.map textBytes

def itemsBytes : List JsonValue → Option Nat
  | [] => some 0
  | v :: rest => (bytes v).bind fun n => (itemsBytes rest).map fun m => n + comma rest + m

def fieldsBytes : List (String × JsonValue) → Option Nat
  | [] => some 0
  | (k, v) :: rest => (bytes v).bind fun n => (fieldsBytes rest).map fun m => textBytes k + 2 + n + comma rest + m

end

theorem bytes_dict (fields : List (String × JsonValue)) : bytes (.dict fields) = (fieldsBytes fields).map (2 + ·) := by rw [bytes]

theorem fieldsBytes_cons (k : String) (v : JsonValue) (rest : List (String × JsonValue)) :
    fieldsBytes ((k, v) :: rest) = (bytes v).bind fun n => (fieldsBytes rest).map fun m => textBytes k + 2 + n + comma rest + m := by rw [fieldsBytes]

/-- A dictionary can be written when each of its values can. -/
theorem fieldsBytes_isSome {fields : List (String × JsonValue)} (h : ∀ p ∈ fields, (bytes p.2).isSome = true) : (fieldsBytes fields).isSome = true := by
  induction fields with
  | nil => rw [fieldsBytes]; rfl
  | cons p fields ih =>
    obtain ⟨n, hn⟩ := Option.isSome_iff_exists.1 (h p List.mem_cons_self)
    obtain ⟨m, hm⟩ := Option.isSome_iff_exists.1 (ih fun q hq => h q (List.mem_cons_of_mem _ hq))
    rw [fieldsBytes_cons, hn, hm]
    rfl

theorem comma_set {fields : List (String × JsonValue)} {key : String} {v : JsonValue} (h : (Dict.get key fields).isSome = true) :
    comma (Dict.set key v fields) = comma fields := by
  cases fields with
  | nil => cases h
  | cons p fields =>
    rw [Dict.set]
    split
    · rfl
    · rfl

/-- Setting a key that is there changes the size by the sizes of its two values. -/
theorem fieldsBytes_set {fields : List (String × JsonValue)} {key : String} {old new : JsonValue} {n o w : Nat} (hn : fieldsBytes fields = some n)
    (hget : Dict.get key fields = some old) (ho : bytes old = some o) (hw : bytes new = some w) :
    ∃ m, fieldsBytes (Dict.set key new fields) = some m ∧ m + o = n + w := by
  induction fields generalizing n with
  | nil => cases hget
  | cons p fields ih =>
    obtain ⟨k, v⟩ := p
    rw [fieldsBytes_cons] at hn
    obtain ⟨a, ha, hn⟩ := Option.bind_eq_some_iff.1 hn
    obtain ⟨b, hb, rfl⟩ := Option.map_eq_some_iff.1 hn
    rw [Dict.get_cons] at hget
    rw [Dict.set]
    split at hget
    · rename_i hk
      obtain rfl := Option.some.inj hget
      rw [ho] at ha
      obtain rfl := Option.some.inj ha
      rw [if_pos hk, fieldsBytes_cons, hw, hb, hk]
      exact ⟨_, rfl, by dsimp only; omega⟩
    · rename_i hk
      obtain ⟨m, hm, hsum⟩ := ih hb hget
      rw [if_neg hk, fieldsBytes_cons, ha, hm, comma_set (by rw [hget]; rfl)]
      exact ⟨_, rfl, by dsimp only; omega⟩

end JsonValue
