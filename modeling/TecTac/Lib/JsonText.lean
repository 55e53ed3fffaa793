import Mathlib
import TecTac.Lib.Dict

/-!
# Written and read values

A value of the language, the text that a document of it is, written with ASCII characters only, and what a reader makes of a text. A text of the language is a list of code points, the
surrogates among them. A high surrogate and the low one after it are written like the one code point that they stand for, so reading joins them; all else comes back as it was written. A
finite float is the shortest text that reads back as it; the reader leaves the constants out that stand for the floats that are not finite.
-/

namespace JsonText

/-- A code point, the surrogates among them. -/
abbrev CodePoint := Fin 0x110000

instance pointsNeZero : NeZero 0x110000 := ⟨by decide⟩

abbrev Text := List CodePoint

/-! ## Numbers -/

def numberChar (c : Char) : Bool := c.isDigit || ['-', '+', '.', 'e', 'E'].contains c

def unsigned : List Char → List Char
  | '-' :: rest => rest
  | text => text

/-- The digits before the point. -/
def whole (text : List Char) : List Char := (unsigned text).takeWhile Char.isDigit

/-- What follows them: the point with its digits, and the exponent. -/
def fraction (text : List Char) : List Char := (unsigned text).dropWhile Char.isDigit

/-- There are digits before the point, and the first is a zero only where it is the only one. -/
def wholeOk (text : List Char) : Bool :=
  match whole text with
  | [] => false
  | c :: rest => rest.isEmpty || c != '0'

def digitsOk (text : List Char) : Bool := !text.isEmpty && text.all Char.isDigit

def exponentOk : List Char → Bool
  | [] => true
  | c :: '+' :: rest | c :: '-' :: rest | c :: rest => (c == 'e' || c == 'E') && digitsOk rest

def fractionOk : List Char → Bool
  | '.' :: rest => digitsOk (rest.takeWhile Char.isDigit) && exponentOk (rest.dropWhile Char.isDigit)
  | text => exponentOk text

/-- The text is that of a float: it has a point or an exponent. -/
def floatText (text : List Char) : Bool := text.all numberChar && wholeOk text && !(fraction text).isEmpty && fractionOk (fraction text)

/-- A finite float, as its text. -/
structure FloatText where
  text : List Char
  written : floatText text = true

/-! ## Values -/

/-- A key of a dictionary. -/
inductive Key where
  | text (s : Text)
  | other
  deriving DecidableEq

/-- A value: what a document is made of, and all others. A float that is not finite has no text. -/
inductive PyValue where
  | null
  | bool (b : Bool)
  | int (n : Int)
  | float (x : Option FloatText)
  | str (s : Text)
  | list (xs : List PyValue)
  | dict (fields : List (Key × PyValue))
  | other

namespace PyValue

mutual

/-- A test of a value and of all that it holds. -/
def all (p : PyValue → Bool) : PyValue → Bool
  | .list xs => p (.list xs) && allItems p xs
  | .dict fields => p (.dict fields) && allFields p fields
  | v => p v

def allItems (p : PyValue → Bool) : List PyValue → Bool
  | [] => true
  | v :: rest => all p v && allItems p rest

def allFields (p : PyValue → Bool) : List (Key × PyValue) → Bool
  | [] => true
  | (_, v) :: rest => all p v && allFields p rest

end

mutual

/-- How many levels of lists and dictionaries a value has. -/
def levels : PyValue → Nat
  | .list xs => 1 + levelsItems xs
  | .dict fields => 1 + levelsFields fields
  | _ => 0

def levelsItems : List PyValue → Nat
  | [] => 0
  | v :: rest => max (levels v) (levelsItems rest)

def levelsFields : List (Key × PyValue) → Nat
  | [] => 0
  | (_, v) :: rest => max (levels v) (levelsFields rest)

end

end PyValue

/-- The key is a text. -/
def Key.isText : Key → Bool
  | .text _ => true
  | .other => false

/-- A document can be made of the value: it is of a kind that has a text, its keys are texts, and a float is finite. -/
def plainNode : PyValue → Bool
  | .float x => x.isSome
  | .dict fields => fields.all fun p => p.1.isText
  | .other => false
  | _ => true

def Plain (v : PyValue) : Prop := v.all plainNode = true

/-- No key of a dictionary stands twice in it. -/
def distinctNode : PyValue → Bool
  | .dict fields => decide (fields.map Prod.fst).Nodup
  | _ => true

/-- Every dictionary has each of its keys once. -/
def Distinct (v : PyValue) : Prop := v.all distinctNode = true

/-! ## Surrogates -/

def isHigh (c : CodePoint) : Bool := decide (0xD800 ≤ c.val ∧ c.val ≤ 0xDBFF)

def isLow (c : CodePoint) : Bool := decide (0xDC00 ≤ c.val ∧ c.val ≤ 0xDFFF)

/-- The code point that a high and a low surrogate stand for. -/
def pair (c d : CodePoint) : CodePoint := Fin.ofNat 0x110000 (0x10000 + (c.val - 0xD800) * 0x400 + (d.val - 0xDC00))

/-- Each high surrogate with a low one after it becomes the code point that they stand for. -/
def join : Text → Text
  | [] => []
  | [c] => [c]
  | c :: d :: rest => if isHigh c && isLow d then pair c d :: join rest else c :: join (d :: rest)

/-- No low surrogate follows a high one. -/
def unpaired : Text → Bool
  | [] => true
  | [_] => true
  | c :: d :: rest => !(isHigh c && isLow d) && unpaired (d :: rest)

def Key.unpaired : Key → Bool
  | .text s => JsonText.unpaired s
  | .other => true

def unpairedNode : PyValue → Bool
  | .str s => unpaired s
  | .dict fields => fields.all fun p => p.1.unpaired
  | _ => true

/-- In no text of the value does a low surrogate follow a high one. -/
def Unpaired (v : PyValue) : Prop := v.all unpairedNode = true

instance (v : PyValue) : Decidable (Plain v) := inferInstanceAs (Decidable (_ = true))

instance (v : PyValue) : Decidable (Distinct v) := inferInstanceAs (Decidable (_ = true))

instance (v : PyValue) : Decidable (Unpaired v) := inferInstanceAs (Decidable (_ = true))

/-! ## Writing -/

/-- `\uXXXX`. -/
def unitText (n : Nat) : List Char :=
  ['\\', 'u', Nat.digitChar (n / 4096), Nat.digitChar (n / 256 % 16), Nat.digitChar (n / 16 % 16), Nat.digitChar (n % 16)]

def high (c : CodePoint) : Nat := 0xD800 + (c.val - 0x10000) / 0x400

def low (c : CodePoint) : Nat := 0xDC00 + (c.val - 0x10000) % 0x400

/-- The escapes of one letter. -/
def escapes : List (Nat × Char) := [(92, '\\'), (34, '"'), (8, 'b'), (12, 'f'), (10, 'n'), (13, 'r'), (9, 't')]

/-- A code point between quotes. -/
def escape (c : CodePoint) : List Char :=
  match Dict.get c.val escapes with
  | some e => ['\\', e]
  | none =>
    if 32 ≤ c.val ∧ c.val ≤ 126 then [Char.ofNat c.val]
    else if c.val < 0x10000 then unitText c.val
    else unitText (high c) ++ unitText (low c)

def writeText (s : Text) : List Char := '"' :: (s.flatMap escape ++ ['"'])

def writeInt (n : Int) : List Char := if n < 0 then '-' :: Nat.toDigits 10 n.natAbs else Nat.toDigits 10 n.natAbs

def writeKey : Key → List Char
  | .text s => writeText s
  | .other => []

/-- What stands between a member and the next. -/
def between {α : Type} (gap : List Char) (rest : List α) : List Char := if rest.isEmpty then [] else ',' :: gap

mutual

/-- The text of a value, with the gap after each comma and each colon. What no document is made of is written as nothing. -/
def write (gap : List Char) : PyValue → List Char
  | .null => ['n', 'u', 'l', 'l']
  | .bool true => ['t', 'r', 'u', 'e']
  | .bool false => ['f', 'a', 'l', 's', 'e']
  | .int n => writeInt n
  | .float (some x) => x.text
  | .float none => []
  | .str s => writeText s
  | .list xs => '[' :: writeItems gap xs
  | .dict fields => '{' :: writeFields gap fields
  | .other => []

def writeItems (gap : List Char) : List PyValue → List Char
  | [] => [']']
  | v :: rest => write gap v ++ (between gap rest ++ writeItems gap rest)

def writeFields (gap : List Char) : List (Key × PyValue) → List Char
  | [] => ['}']
  | (k, v) :: rest => writeKey k ++ (':' :: (gap ++ (write gap v ++ (between gap rest ++ writeFields gap rest))))

end

/-! ## Reading -/

def white (c : Char) : Bool := [' ', '\t', '\n', '\r'].contains c

def skip (text : List Char) : List Char := text.dropWhile white

def hexValue (c : Char) : Option Nat :=
  if '0' ≤ c ∧ c ≤ '9' then some (c.toNat - 48)
  else if 'a' ≤ c ∧ c ≤ 'f' then some (c.toNat - 87)
  else if 'A' ≤ c ∧ c ≤ 'F' then some (c.toNat - 55)
  else none

/-- The code point of four hexadecimal digits. -/
def hexPoint (a b c d : Char) : Option CodePoint :=
  match hexValue a, hexValue b, hexValue c, hexValue d with
  | some a, some b, some c, some d => some (Fin.ofNat 0x110000 (a * 4096 + b * 256 + c * 16 + d))
  | _, _, _, _ => none

def escaped (c : Char) : Option CodePoint :=
  if c = '"' then some 34
  else if c = '\\' then some 92
  else if c = '/' then some 47
  else if c = 'n' then some 10
  else if c = 'r' then some 13
  else if c = 't' then some 9
  else if c = 'f' then some 12
  else if c = 'b' then some 8
  else none

/-- The code points up to the closing quote, each surrogate by itself, and what follows. -/
def readUnits : List Char → Option (Text × List Char)
  | [] => none
  | c :: rest =>
    if c = '"' then some ([], rest)
    else if c = '\\' then
      match rest with
      | [] => none
      | e :: rest =>
        if e = 'u' then
          match rest with
          | a :: b :: c :: d :: rest => (hexPoint a b c d).bind fun u => (readUnits rest).map fun p => (u :: p.1, p.2)
          | _ => none
        else (escaped e).bind fun u => (readUnits rest).map fun p => (u :: p.1, p.2)
    else if c.toNat < 32 then none
    else (readUnits rest).map fun p => (Fin.ofNat 0x110000 c.toNat :: p.1, p.2)

/-- A text, from behind its opening quote. -/
def readText (text : List Char) : Option (Text × List Char) := (readUnits text).map fun p => (join p.1, p.2)

def readNumber (token : List Char) : Option PyValue :=
  if wholeOk token && (fraction token).isEmpty then
    let n : Nat := Nat.ofDigitChars 10 (whole token) 0
    some (.int (if token.head? = some '-' then -n else n))
  else if h : floatText token = true then some (.float (some ⟨token, h⟩))
  else none

def readAtom (text : List Char) : Option (PyValue × List Char) :=
  if ['n', 'u', 'l', 'l'].isPrefixOf text then some (.null, text.drop 4)
  else if ['t', 'r', 'u', 'e'].isPrefixOf text then some (.bool true, text.drop 4)
  else if ['f', 'a', 'l', 's', 'e'].isPrefixOf text then some (.bool false, text.drop 5)
  else (readNumber (text.takeWhile numberChar)).map fun v => (v, text.dropWhile numberChar)

/-- The dictionary of some pairs: of two with the same key the later one counts. -/
def ofPairs (fields : List (Key × PyValue)) : List (Key × PyValue) := fields.foldl (fun d p => Dict.set p.1 p.2 d) []

mutual

def readValue : Nat → List Char → Option (PyValue × List Char)
  | 0, _ => none
  | _ + 1, [] => none
  | fuel + 1, c :: rest =>
    if c = '"' then (readText rest).map fun p => (.str p.1, p.2)
    else if c = '[' then
      if (skip rest).head? = some ']' then some (.list [], (skip rest).tail) else (readItems fuel (skip rest)).map fun p => (.list p.1, p.2)
    else if c = '{' then
      if (skip rest).head? = some '}' then some (.dict [], (skip rest).tail) else (readFields fuel (skip rest)).map fun p => (.dict (ofPairs p.1), p.2)
    else readAtom (c :: rest)

def readItems : Nat → List Char → Option (List PyValue × List Char)
  | 0, _ => none
  | fuel + 1, text =>
    (readValue fuel text).bind fun p =>
      match skip p.2 with
      | ',' :: rest => (readItems fuel (skip rest)).map fun q => (p.1 :: q.1, q.2)
      | ']' :: rest => some ([p.1], rest)
      | _ => none

def readFields : Nat → List Char → Option (List (Key × PyValue) × List Char)
  | fuel + 1, '"' :: rest =>
    (readText rest).bind fun k =>
      match skip k.2 with
      | ':' :: rest =>
        (readValue fuel (skip rest)).bind fun p =>
          match skip p.2 with
          | ',' :: rest => (readFields fuel (skip rest)).map fun q => ((.text k.1, p.1) :: q.1, q.2)
          | '}' :: rest => some ([(.text k.1, p.1)], rest)
          | _ => none
      | _ => none
  | _, _ => none

end

/-- The value of a document. -/
def read (text : List Char) : Option PyValue := (readValue (text.length + 1) (skip text)).bind fun p => if (skip p.2).isEmpty then some p.1 else none

/-! ## What reading gives back -/

def Key.joined : Key → Key
  | .text s => .text (join s)
  | .other => .other

mutual

/-- The value with the surrogates of its texts joined. -/
def joined : PyValue → PyValue
  | .str s => .str (join s)
  | .list xs => .list (joinedItems xs)
  | .dict fields => .dict (ofPairs (joinedFields fields))
  | v => v

def joinedItems : List PyValue → List PyValue
  | [] => []
  | v :: rest => joined v :: joinedItems rest

def joinedFields : List (Key × PyValue) → List (Key × PyValue)
  | [] => []
  | (k, v) :: rest => (k.joined, joined v) :: joinedFields rest

end

mutual

/-- The depth of the calls that read a value. -/
def size : PyValue → Nat
  | .list xs => 1 + sizeItems xs
  | .dict fields => 1 + sizeFields fields
  | _ => 1

def sizeItems : List PyValue → Nat
  | [] => 0
  | v :: rest => 1 + size v + sizeItems rest

def sizeFields : List (Key × PyValue) → Nat
  | [] => 0
  | (_, v) :: rest => 1 + size v + sizeFields rest

end

theorem plain_list {xs : List PyValue} : Plain (.list xs) ↔ PyValue.allItems plainNode xs = true := by
  simp [Plain, PyValue.all, plainNode]

theorem plain_dict {fields : List (Key × PyValue)} : Plain (.dict fields) ↔ (fields.all fun p => p.1.isText) = true ∧ PyValue.allFields plainNode fields = true := by
  simp [Plain, PyValue.all, plainNode]

/-! ### Numbers -/

theorem digitChar_ne_zero : ∀ n < 10, 0 < n → Nat.digitChar n ≠ '0' := by decide

theorem head_toDigits {n : Nat} (h : 0 < n) : (Nat.toDigits 10 n).head? ≠ some '0' := by
  induction n using Nat.strongRecOn with
  | ind n ih =>
    rw [Nat.toDigits_eq_if (by decide)]
    split
    · rename_i hn
      simpa using digitChar_ne_zero n hn h
    · rename_i hn
      rw [List.head?_append_of_ne_nil _ Nat.toDigits_ne_nil]
      exact ih (n / 10) (Nat.div_lt_self h (by decide)) (by omega)

theorem isDigit_toDigits {n : Nat} : ∀ c ∈ Nat.toDigits 10 n, c.isDigit = true := fun _ hc => Nat.isDigit_of_mem_toDigits (by decide) (by decide) hc

theorem unsigned_of_isDigit {text : List Char} (h : ∀ c ∈ text, c.isDigit = true) : unsigned text = text := by
  unfold unsigned
  split
  · exact absurd (h '-' List.mem_cons_self) (by decide)
  · rfl

theorem unsigned_writeInt (n : Int) : unsigned (writeInt n) = Nat.toDigits 10 n.natAbs := by
  unfold writeInt
  split
  · rfl
  · exact unsigned_of_isDigit isDigit_toDigits

theorem whole_writeInt (n : Int) : whole (writeInt n) = Nat.toDigits 10 n.natAbs := by
  rw [whole, unsigned_writeInt]
  exact List.takeWhile_eq_self_iff.2 isDigit_toDigits

theorem fraction_writeInt (n : Int) : fraction (writeInt n) = [] := by
  rw [fraction, unsigned_writeInt]
  exact List.dropWhile_eq_nil_iff.2 isDigit_toDigits

theorem wholeOk_writeInt (n : Int) : wholeOk (writeInt n) = true := by
  rw [wholeOk, whole_writeInt]
  rcases Nat.eq_zero_or_pos n.natAbs with h | h
  · rw [h]
    rfl
  · have hhead := head_toDigits h
    split
    · rename_i hnil
      exact absurd hnil Nat.toDigits_ne_nil
    · rename_i c rest hcons
      rw [hcons] at hhead
      have hc : c ≠ '0' := fun hc => hhead (congrArg some hc)
      simp [hc]

theorem head_writeInt (n : Int) : (writeInt n).head? = some '-' ↔ n < 0 := by
  unfold writeInt
  split
  · rename_i h
    exact ⟨fun _ => h, fun _ => rfl⟩
  · rename_i h
    refine ⟨fun hhead => ?_, fun hn => absurd hn h⟩
    exact absurd (isDigit_toDigits '-' (List.mem_of_mem_head? hhead)) (by decide)

/-- The text of a number is read as the number. -/
theorem readNumber_writeInt (n : Int) : readNumber (writeInt n) = some (.int n) := by
  rw [readNumber, wholeOk_writeInt, fraction_writeInt, whole_writeInt, Nat.ofDigitChars_ten_toDigits]
  simp only [List.isEmpty_nil, Bool.and_self, if_true, head_writeInt]
  split
  · rw [Int.ofNat_natAbs_of_nonpos (by omega), Int.neg_neg]
  · rw [Int.natAbs_of_nonneg (by omega)]

/-- The text of a float is read as the float: it is not that of an integer. -/
theorem readNumber_float (x : FloatText) : readNumber x.text = some (.float (some x)) := by
  have h := x.written
  unfold floatText at h
  simp only [Bool.and_eq_true, Bool.not_eq_true'] at h
  rw [readNumber, h.1.2]
  simp only [Bool.and_false, Bool.false_eq_true, if_false, x.written, dif_pos]

/-- What may follow a number. -/
def Ends (rest : List Char) : Prop := ∀ c, rest.head? = some c → numberChar c = false

theorem takeWhile_ends {rest : List Char} (h : Ends rest) : rest.takeWhile numberChar = [] ∧ rest.dropWhile numberChar = rest := by
  cases rest with
  | nil => exact ⟨rfl, rfl⟩
  | cons c rest =>
    have hc := h c rfl
    exact ⟨by rw [List.takeWhile_cons, hc]; rfl, by rw [List.dropWhile_cons, hc]; rfl⟩

theorem ne_of_numberChar {c d : Char} (h : numberChar c = true) (hd : numberChar d = false) : c ≠ d := fun hcd => by
  rw [hcd, hd] at h
  cases h

/-- A token of a number is read whole. -/
theorem readValue_number {token rest : List Char} {v : PyValue} {fuel : Nat} (hne : token ≠ []) (hall : ∀ c ∈ token, numberChar c = true) (hends : Ends rest)
    (hread : readNumber token = some v) : readValue (fuel + 1) (token ++ rest) = some (v, rest) := by
  have htake : (token ++ rest).takeWhile numberChar = token := by
    rw [List.takeWhile_append_of_pos hall, (takeWhile_ends hends).1, List.append_nil]
  have hdrop : (token ++ rest).dropWhile numberChar = rest := by
    rw [List.dropWhile_append_of_pos hall, (takeWhile_ends hends).2]
  obtain ⟨c, token', rfl⟩ := List.exists_cons_of_ne_nil hne
  have hc := hall c List.mem_cons_self
  have hatom : readAtom (c :: token' ++ rest) = some (v, rest) := by
    rw [readAtom, htake, hdrop, hread]
    simp [List.isPrefixOf, (ne_of_numberChar hc (by decide : numberChar 'n' = false)).symm, (ne_of_numberChar hc (by decide : numberChar 't' = false)).symm,
      (ne_of_numberChar hc (by decide : numberChar 'f' = false)).symm]
  rw [List.cons_append, readValue, if_neg (ne_of_numberChar hc (by decide)), if_neg (ne_of_numberChar hc (by decide)), if_neg (ne_of_numberChar hc (by decide))]
  exact hatom

theorem numberChar_of_isDigit {c : Char} (h : c.isDigit = true) : numberChar c = true := by rw [numberChar, h]; rfl

theorem numberChar_writeInt {n : Int} : ∀ c ∈ writeInt n, numberChar c = true := by
  intro c hc
  unfold writeInt at hc
  split at hc
  · rcases List.mem_cons.1 hc with rfl | hc
    · decide
    · exact numberChar_of_isDigit (isDigit_toDigits c hc)
  · exact numberChar_of_isDigit (isDigit_toDigits c hc)

theorem writeInt_ne_nil (n : Int) : writeInt n ≠ [] := by
  unfold writeInt
  split
  · exact List.cons_ne_nil _ _
  · exact Nat.toDigits_ne_nil

theorem numberChar_float (x : FloatText) : ∀ c ∈ x.text, numberChar c = true := by
  have h := x.written
  unfold floatText at h
  simp only [Bool.and_eq_true] at h
  exact List.all_eq_true.1 h.1.1.1

theorem floatText_ne_nil (x : FloatText) : x.text ≠ [] := fun h => by
  have := x.written
  rw [h] at this
  exact absurd this (by decide)

/-! ### Texts -/

/-- The code points of an escape: two surrogates for one beyond the first 65536. -/
def units (c : CodePoint) : Text := if c.val < 0x10000 then [c] else [Fin.ofNat 0x110000 (high c), Fin.ofNat 0x110000 (low c)]

theorem hexValue_digitChar : ∀ n < 16, hexValue (Nat.digitChar n) = some n := by decide

theorem readUnits_cons (c : Char) (rest : List Char) :
    readUnits (c :: rest) =
      if c = '"' then some ([], rest)
      else if c = '\\' then
        match rest with
        | [] => none
        | e :: rest =>
          if e = 'u' then
            match rest with
            | a :: b :: c :: d :: rest => (hexPoint a b c d).bind fun u => (readUnits rest).map fun p => (u :: p.1, p.2)
            | _ => none
          else (escaped e).bind fun u => (readUnits rest).map fun p => (u :: p.1, p.2)
      else if c.toNat < 32 then none
      else (readUnits rest).map fun p => (Fin.ofNat 0x110000 c.toNat :: p.1, p.2) := by
  rw [readUnits.eq_def]

theorem readUnits_unitText {n : Nat} (h : n < 0x10000) (rest : List Char) :
    readUnits (unitText n ++ rest) = (readUnits rest).map fun p => (Fin.ofNat 0x110000 n :: p.1, p.2) := by
  have hpoint : hexPoint (Nat.digitChar (n / 4096)) (Nat.digitChar (n / 256 % 16)) (Nat.digitChar (n / 16 % 16)) (Nat.digitChar (n % 16)) = some (Fin.ofNat 0x110000 n) := by
    rw [hexPoint, hexValue_digitChar _ (by omega), hexValue_digitChar _ (by omega), hexValue_digitChar _ (by omega), hexValue_digitChar _ (by omega)]
    simp only
    congr 2
    omega
  simp only [unitText, List.cons_append, List.nil_append]
  rw [readUnits_cons, if_neg (by decide), if_pos rfl]
  simp only [if_true, hpoint, Option.bind_some]

theorem readUnits_plain {c : Char} (h : 32 ≤ c.toNat) (hquote : c ≠ '"') (hslash : c ≠ '\\') (rest : List Char) :
    readUnits (c :: rest) = (readUnits rest).map fun p => (Fin.ofNat 0x110000 c.toNat :: p.1, p.2) := by
  rw [readUnits_cons, if_neg hquote, if_neg hslash, if_neg (by omega)]

theorem readUnits_escaped {e : Char} {u : CodePoint} (hu : e ≠ 'u') (he : escaped e = some u) (rest : List Char) :
    readUnits ('\\' :: e :: rest) = (readUnits rest).map fun p => (u :: p.1, p.2) := by
  rw [readUnits_cons, if_neg (by decide), if_pos rfl]
  simp only [if_neg hu, he, Option.bind_some]

theorem units_of_lt {c : CodePoint} (h : c.val < 0x10000) : units c = [c] := if_pos h

theorem ofNat_val (c : CodePoint) : Fin.ofNat 0x110000 c.val = c := Fin.ext (Nat.mod_eq_of_lt c.isLt)

theorem escaped_escapes : ∀ p ∈ escapes, p.1 < 0x10000 ∧ p.2 ≠ 'u' ∧ escaped p.2 = some (Fin.ofNat 0x110000 p.1) := by decide

theorem toNat_ofNat : ∀ n < 127, (Char.ofNat n).toNat = n := by decide

/-- An escape is read as its code points. -/
theorem readUnits_escape (c : CodePoint) (rest : List Char) : readUnits (escape c ++ rest) = (readUnits rest).map fun p => (units c ++ p.1, p.2) := by
  unfold escape
  split
  · rename_i e he
    obtain ⟨hlt, hu, hread⟩ := escaped_escapes _ (Dict.mem_of_get he)
    rw [ofNat_val] at hread
    rw [units_of_lt hlt]
    exact readUnits_escaped hu hread rest
  rename_i hnone
  split
  · rename_i h
    have hnat : (Char.ofNat c.val).toNat = c.val := toNat_ofNat c.val (by omega)
    have hne {d : Char} (hd : Dict.get d.toNat escapes ≠ none) : Char.ofNat c.val ≠ d := fun heq => hd (by rw [← heq, hnat, hnone])
    rw [List.singleton_append, readUnits_plain (by rw [hnat]; exact h.1) (hne (by decide)) (hne (by decide)), hnat, ofNat_val, units_of_lt (by omega)]
    rfl
  split
  · rename_i h
    rw [readUnits_unitText h, ofNat_val, units_of_lt h]
    rfl
  · rename_i h
    have hlt := c.isLt
    rw [List.append_assoc, readUnits_unitText (by unfold high; omega), readUnits_unitText (by unfold low; omega), units, if_neg h, Option.map_map]
    rfl

theorem readUnits_flatMap (s : Text) (rest : List Char) : readUnits (s.flatMap escape ++ '"' :: rest) = some (s.flatMap units, rest) := by
  induction s with
  | nil => rw [List.flatMap_nil, List.nil_append, readUnits_cons, if_pos rfl]; rfl
  | cons c s ih => rw [List.flatMap_cons, List.append_assoc, readUnits_escape, ih]; rfl

/-- A code point that makes no pair with the next one stays. -/
theorem join_cons {c : CodePoint} {s : Text} (h : ∀ d, s.head? = some d → (isHigh c && isLow d) = false) : join (c :: s) = c :: join s := by
  cases s with
  | nil => rfl
  | cons d s => rw [join, h d rfl]; rfl

/-- The surrogates of a code point beyond the first 65536 are joined to it. -/
theorem join_units {c : CodePoint} (h : ¬ c.val < 0x10000) (s : Text) : join (units c ++ s) = c :: join s := by
  have hlt := c.isLt
  have hhigh : (Fin.ofNat 0x110000 (high c)).val = high c := Nat.mod_eq_of_lt (by unfold high; omega)
  have hlow : (Fin.ofNat 0x110000 (low c)).val = low c := Nat.mod_eq_of_lt (by unfold low; omega)
  have hpair : (isHigh (Fin.ofNat 0x110000 (high c)) && isLow (Fin.ofNat 0x110000 (low c))) = true := by
    simp only [isHigh, isLow, hhigh, hlow, Bool.and_eq_true, decide_eq_true_eq]
    unfold high low
    omega
  have heq : pair (Fin.ofNat 0x110000 (high c)) (Fin.ofNat 0x110000 (low c)) = c := by
    refine Fin.ext ?_
    rw [pair, hhigh, hlow]
    refine (Nat.mod_eq_of_lt ?_).trans ?_ <;> unfold high low <;> omega
  rw [units, if_neg h, List.cons_append, List.cons_append, List.nil_append, join, if_pos hpair, heq]

/-- The first code point of what is written for a code point is low only where that is. -/
theorem isLow_head_units {c d : CodePoint} {s : Text} (h : (units c ++ s).head? = some d) (hlow : isLow d = true) : d = c := by
  unfold units at h
  split at h
  · exact (Option.some.inj h).symm
  · obtain rfl := Option.some.inj h
    have hlt := c.isLt
    have hhigh : (Fin.ofNat 0x110000 (high c)).val = high c := Nat.mod_eq_of_lt (by unfold high; omega)
    rw [isLow, hhigh, decide_eq_true_eq] at hlow
    unfold high at hlow
    omega

theorem isHigh_lt {c : CodePoint} (h : isHigh c = true) : c.val < 0x10000 := by
  rw [isHigh, decide_eq_true_eq] at h
  omega

theorem isLow_lt {c : CodePoint} (h : isLow c = true) : c.val < 0x10000 := by
  rw [isLow, decide_eq_true_eq] at h
  omega

/-- What is read of a written text is the text, joined. -/
theorem join_flatMap_units (s : Text) : join (s.flatMap units) = join s := by
  induction s using join.induct with
  | case1 => rfl
  | case2 c =>
    by_cases h : c.val < 0x10000
    · rw [List.flatMap_cons, units_of_lt h]; rfl
    · rw [List.flatMap_cons, join_units h]; rfl
  | case3 c d rest hpair ih =>
    have hboth := Bool.and_eq_true_iff.1 hpair
    rw [List.flatMap_cons, List.flatMap_cons, units_of_lt (isHigh_lt hboth.1), units_of_lt (isLow_lt hboth.2), join, if_pos hpair]
    rw [List.cons_append, List.nil_append, List.cons_append, List.nil_append, join, if_pos hpair, ih]
  | case4 c d rest hpair ih =>
    rw [List.flatMap_cons, join, if_neg hpair, ← ih]
    by_cases h : c.val < 0x10000
    · rw [units_of_lt h]
      refine join_cons fun e he => Bool.eq_false_iff.2 fun hboth => hpair ?_
      obtain ⟨hc, he'⟩ := Bool.and_eq_true_iff.1 hboth
      rw [List.flatMap_cons] at he
      rw [hc, ← isLow_head_units he he', he']
      rfl
    · exact join_units h _

theorem readText_writeText (s : Text) (rest : List Char) : readText (s.flatMap escape ++ '"' :: rest) = some (join s, rest) := by
  rw [readText, readUnits_flatMap, Option.map_some, join_flatMap_units]

/-! ### Values -/

theorem skip_cons {c : Char} (h : white c = false) (text : List Char) : skip (c :: text) = c :: text := by
  rw [skip, List.dropWhile_cons, h]
  rfl

theorem skip_gap {gap : List Char} (hgap : ∀ c ∈ gap, white c = true) (text : List Char) : skip (gap ++ text) = skip text := List.dropWhile_append_of_pos hgap

theorem white_of_numberChar {c : Char} (h : numberChar c = true) : white c = false := by
  refine Bool.eq_false_iff.2 fun hw => ?_
  rw [white, List.contains_iff_mem] at hw
  simp only [List.mem_cons, List.not_mem_nil, or_false] at hw
  rcases hw with rfl | rfl | rfl | rfl <;> exact absurd h (by decide)

/-- A character that a value starts with: no white space, and no bracket that closes a list. -/
def Starts (c : Char) : Prop := white c = false ∧ c ≠ ']'

theorem starts_of_numberChar {token : List Char} (hne : token ≠ []) (hall : ∀ c ∈ token, numberChar c = true) : ∃ c rest, token = c :: rest ∧ Starts c := by
  obtain ⟨c, rest, rfl⟩ := List.exists_cons_of_ne_nil hne
  have hc := hall c List.mem_cons_self
  exact ⟨c, rest, rfl, white_of_numberChar hc, ne_of_numberChar hc (by decide)⟩

theorem write_starts {gap : List Char} {v : PyValue} (h : Plain v) : ∃ c rest, write gap v = c :: rest ∧ Starts c := by
  cases v with
  | bool b => cases b <;> exact ⟨_, _, rfl, by decide, by decide⟩
  | int n => exact starts_of_numberChar (writeInt_ne_nil n) numberChar_writeInt
  | float x =>
    cases x with
    | none => cases h
    | some x => exact starts_of_numberChar (floatText_ne_nil x) (numberChar_float x)
  | other => cases h
  | _ => exact ⟨_, _, rfl, by decide, by decide⟩

theorem skip_write {gap : List Char} {v : PyValue} (h : Plain v) (rest : List Char) : skip (write gap v ++ rest) = write gap v ++ rest := by
  obtain ⟨c, text, htext, hc⟩ := @write_starts gap _ h
  rw [htext, List.cons_append, skip_cons hc.1]

theorem isText_eq {k : Key} (h : k.isText = true) : ∃ s, k = .text s := by
  cases k with
  | text s => exact ⟨s, rfl⟩
  | other => cases h

/-- What stands behind a member: a comma with the gap and the next member, or the closing bracket. -/
theorem ends_cons {c : Char} (h : numberChar c = false) (rest : List Char) : Ends (c :: rest) := fun _ hd => Option.some.inj hd ▸ h

mutual

/-- Reading a written value gives the value with its surrogates joined, and leaves what follows it. -/
theorem readValue_write {gap : List Char} (hgap : ∀ c ∈ gap, white c = true) : ∀ (v : PyValue) (fuel : Nat) (rest : List Char), Plain v → size v ≤ fuel → Ends rest → readValue fuel (write gap v ++ rest) = some (joined v, rest)
  | _, 0, _, _, hsize, _ => absurd hsize (by cases ‹PyValue› <;> simp [size])
  | .null, fuel + 1, rest, _, _, _ => rfl
  | .bool true, fuel + 1, rest, _, _, _ => rfl
  | .bool false, fuel + 1, rest, _, _, _ => rfl
  | .int n, fuel + 1, rest, _, _, hends => readValue_number (writeInt_ne_nil n) numberChar_writeInt hends (readNumber_writeInt n)
  | .float (some x), fuel + 1, rest, _, _, hends => readValue_number (floatText_ne_nil x) (numberChar_float x) hends (readNumber_float x)
  | .float none, _, _, h, _, _ => by cases h
  | .other, _, _, h, _, _ => by cases h
  | .str s, fuel + 1, rest, _, _, _ => by
    rw [write, writeText, List.cons_append, List.append_assoc, readValue, if_pos rfl, List.singleton_append, readText_writeText]
    rfl
  | .list [], fuel + 1, rest, _, _, _ => rfl
  | .list (x :: xs), fuel + 1, rest, h, hsize, _ => by
    have hitems := plain_list.1 h
    have hx : Plain x := (Bool.and_eq_true_iff.1 hitems).1
    have hskip : skip (writeItems gap (x :: xs) ++ rest) = writeItems gap (x :: xs) ++ rest := by
      rw [writeItems, List.append_assoc, skip_write hx]
    have hhead : (writeItems gap (x :: xs) ++ rest).head? ≠ some ']' := by
      obtain ⟨c, text, htext, hc⟩ := @write_starts gap _ hx
      rw [writeItems, htext]
      exact fun heq => hc.2 (Option.some.inj heq)
    have hread := readItems_write hgap (x :: xs) fuel rest (List.cons_ne_nil _ _) hitems (by rw [size] at hsize; omega)
    rw [write, List.cons_append, readValue, if_neg (by decide), if_pos rfl, hskip, if_neg hhead, hread]
    rfl
  | .dict [], fuel + 1, rest, _, _, _ => rfl
  | .dict ((k, v) :: fields), fuel + 1, rest, h, hsize, _ => by
    have hfields := plain_dict.1 h
    obtain ⟨s, rfl⟩ := isText_eq (Bool.and_eq_true_iff.1 hfields.1).1
    have hskip : skip (writeFields gap ((.text s, v) :: fields) ++ rest) = writeFields gap ((.text s, v) :: fields) ++ rest := skip_cons (by decide) _
    have hread := readFields_write hgap ((.text s, v) :: fields) fuel rest (List.cons_ne_nil _ _) hfields.1 hfields.2 (by rw [size] at hsize; omega)
    rw [write, List.cons_append, readValue, if_neg (by decide), if_neg (by decide), if_pos rfl, hskip, if_neg (by simp [writeFields, writeKey, writeText]), hread]
    rfl

theorem readItems_write {gap : List Char} (hgap : ∀ c ∈ gap, white c = true) : ∀ (xs : List PyValue) (fuel : Nat) (rest : List Char), xs ≠ [] → PyValue.allItems plainNode xs = true → sizeItems xs ≤ fuel →
    readItems fuel (writeItems gap xs ++ rest) = some (joinedItems xs, rest)
  | [], _, _, hne, _, _ => absurd rfl hne
  | x :: xs, 0, _, _, _, hsize => by rw [sizeItems] at hsize; omega
  | [x], fuel + 1, rest, _, h, hsize => by
    have hx := readValue_write hgap x fuel (']' :: rest) (Bool.and_eq_true_iff.1 h).1 (by rw [sizeItems] at hsize; omega) (ends_cons (by decide) rest)
    simp only [writeItems, between, List.isEmpty_nil, if_true, List.nil_append, List.append_assoc, List.singleton_append]
    rw [readItems, hx, Option.bind_some, skip_cons (by decide)]
    rfl
  | x :: y :: ys, fuel + 1, rest, _, h, hsize => by
    have hparts := Bool.and_eq_true_iff.1 h
    have hy : Plain y := (Bool.and_eq_true_iff.1 hparts.2).1
    rw [sizeItems] at hsize
    have hx := readValue_write hgap x fuel (',' :: (gap ++ (writeItems gap (y :: ys) ++ rest))) hparts.1 (by omega) (ends_cons (by decide) _)
    have hrest := readItems_write hgap (y :: ys) fuel rest (List.cons_ne_nil _ _) hparts.2 (by omega)
    have hskip : skip (gap ++ (writeItems gap (y :: ys) ++ rest)) = writeItems gap (y :: ys) ++ rest := by
      rw [skip_gap hgap, writeItems, List.append_assoc, skip_write hy]
    rw [writeItems, between, List.isEmpty_cons, if_neg (by decide), List.append_assoc, List.cons_append, List.cons_append, List.append_assoc, readItems, hx,
      Option.bind_some, skip_cons (by decide)]
    simp only [hskip, hrest, Option.map_some]
    rfl

theorem readFields_write {gap : List Char} (hgap : ∀ c ∈ gap, white c = true) : ∀ (fields : List (Key × PyValue)) (fuel : Nat) (rest : List Char), fields ≠ [] →
    (fields.all fun p => p.1.isText) = true → PyValue.allFields plainNode fields = true → sizeFields fields ≤ fuel → readFields fuel (writeFields gap fields ++ rest) = some (joinedFields fields, rest)
  | [], _, _, hne, _, _, _ => absurd rfl hne
  | (_, v) :: fields, 0, _, _, _, _, hsize => by rw [sizeFields] at hsize; omega
  | [(k, v)], fuel + 1, rest, _, hkeys, h, hsize => by
    obtain ⟨s, rfl⟩ := isText_eq (Bool.and_eq_true_iff.1 hkeys).1
    have hplain : Plain v := (Bool.and_eq_true_iff.1 h).1
    have hv := readValue_write hgap v fuel ('}' :: rest) hplain (by rw [sizeFields] at hsize; omega) (ends_cons (by decide) rest)
    simp only [writeFields, writeKey, writeText, between, List.isEmpty_nil, if_true, List.nil_append, List.append_assoc, List.cons_append]
    rw [readFields, readText_writeText, Option.bind_some]
    simp only [skip_cons (by decide : white ':' = false)]
    rw [skip_gap hgap, skip_write hplain, hv, Option.bind_some]
    simp only [skip_cons (by decide : white '}' = false)]
    rfl
  | (k, v) :: (l, w) :: fields, fuel + 1, rest, _, hkeys, h, hsize => by
    obtain ⟨s, rfl⟩ := isText_eq (Bool.and_eq_true_iff.1 hkeys).1
    obtain ⟨t, rfl⟩ := isText_eq (Bool.and_eq_true_iff.1 (Bool.and_eq_true_iff.1 hkeys).2).1
    have hparts := Bool.and_eq_true_iff.1 h
    have hplain : Plain v := hparts.1
    rw [sizeFields] at hsize
    have hv := readValue_write hgap v fuel (',' :: (gap ++ (writeFields gap ((.text t, w) :: fields) ++ rest))) hplain (by omega) (ends_cons (by decide) _)
    have hrest := readFields_write hgap ((.text t, w) :: fields) fuel rest (List.cons_ne_nil _ _) (Bool.and_eq_true_iff.1 hkeys).2 hparts.2 (by omega)
    have hskip : skip (gap ++ (writeFields gap ((.text t, w) :: fields) ++ rest)) = writeFields gap ((.text t, w) :: fields) ++ rest :=
      (skip_gap hgap _).trans (skip_cons (by decide) _)
    rw [writeFields, writeKey, writeText, between, List.isEmpty_cons, if_neg (by decide)]
    simp only [List.append_assoc, List.cons_append, List.nil_append]
    rw [readFields, readText_writeText, Option.bind_some]
    simp only [skip_cons (by decide : white ':' = false)]
    rw [skip_gap hgap, skip_write hplain, hv, Option.bind_some]
    simp only [skip_cons (by decide : white ',' = false), hskip, hrest]
    rfl

end

/-! ### Whole documents -/

mutual

theorem size_le_length {gap : List Char} : ∀ v : PyValue, Plain v → size v ≤ (write gap v).length
  | .null, _ => by simp [size, write]
  | .bool true, _ => by simp [size, write]
  | .bool false, _ => by simp [size, write]
  | .int n, _ => List.length_pos_iff.2 (writeInt_ne_nil n)
  | .float (some x), _ => List.length_pos_iff.2 (floatText_ne_nil x)
  | .float none, h => by cases h
  | .other, h => by cases h
  | .str s, _ => by simp [size, write, writeText]
  | .list xs, h => by
    have := @sizeItems_le_length gap xs (plain_list.1 h)
    rw [size, write, List.length_cons]
    omega
  | .dict fields, h => by
    have := @sizeFields_le_length gap fields (plain_dict.1 h).2
    rw [size, write, List.length_cons]
    omega

theorem sizeItems_le_length {gap : List Char} : ∀ xs : List PyValue, PyValue.allItems plainNode xs = true → sizeItems xs ≤ (writeItems gap xs).length
  | [], _ => Nat.zero_le _
  | [x], h => by
    have := @size_le_length gap x (Bool.and_eq_true_iff.1 h).1
    simp only [sizeItems, writeItems, List.length_append, List.length_cons]
    omega
  | x :: y :: ys, h => by
    have hparts := Bool.and_eq_true_iff.1 h
    have hx := @size_le_length gap x hparts.1
    have hrest := @sizeItems_le_length gap (y :: ys) hparts.2
    rw [sizeItems, writeItems, between, List.isEmpty_cons, if_neg (by decide), List.length_append, List.length_append, List.length_cons]
    omega

theorem sizeFields_le_length {gap : List Char} : ∀ fields : List (Key × PyValue), PyValue.allFields plainNode fields = true →
    sizeFields fields ≤ (writeFields gap fields).length
  | [], _ => Nat.zero_le _
  | (k, v) :: rest, h => by
    have hparts := Bool.and_eq_true_iff.1 h
    have hv := @size_le_length gap v hparts.1
    have hrest := @sizeFields_le_length gap rest hparts.2
    rw [sizeFields, writeFields]
    simp only [List.length_append, List.length_cons]
    omega

end

/-- A written document is read as its value, with the surrogates joined. -/
theorem read_write {gap : List Char} (hgap : ∀ c ∈ gap, white c = true) {v : PyValue} (h : Plain v) : read (write gap v) = some (joined v) := by
  have hskip : skip (write gap v) = write gap v := by
    have := @skip_write gap _ h []
    rwa [List.append_nil] at this
  have hread := readValue_write hgap v ((write gap v).length + 1) [] h (Nat.le_succ_of_le (size_le_length v h)) (fun _ hc => by cases hc)
  rw [List.append_nil] at hread
  rw [read, hskip, hread]
  rfl

/-! ### Where nothing is joined -/

theorem join_eq_self {s : Text} (h : unpaired s = true) : join s = s := by
  induction s using join.induct with
  | case1 => rfl
  | case2 => rfl
  | case3 c d rest hpair _ =>
    rw [unpaired, hpair] at h
    cases h
  | case4 c d rest hpair ih =>
    rw [unpaired, Bool.and_eq_true] at h
    rw [join, if_neg hpair, ih h.2]

/-- A low surrogate in front of a joined text stood there before. -/
theorem head_join {s : Text} {e : CodePoint} (h : (join s).head? = some e) (hlow : isLow e = true) : s.head? = some e := by
  cases s using join.induct with
  | case1 => exact h
  | case2 => exact h
  | case3 c d rest hpair _ =>
    rw [join, if_pos hpair] at h
    obtain rfl := Option.some.inj h
    have hboth := Bool.and_eq_true_iff.1 hpair
    simp only [isHigh, isLow, decide_eq_true_eq] at hboth
    have hval : (pair c d).val = 0x10000 + (c.val - 0xD800) * 0x400 + (d.val - 0xDC00) := Nat.mod_eq_of_lt (by omega)
    rw [isLow, hval, decide_eq_true_eq] at hlow
    omega
  | case4 c d rest hpair _ =>
    rw [join, if_neg hpair] at h
    exact h

theorem unpaired_cons {c : CodePoint} {s : Text} (h : ∀ d, s.head? = some d → (isHigh c && isLow d) = false) : unpaired (c :: s) = unpaired s := by
  cases s with
  | nil => rfl
  | cons d s => rw [unpaired, h d rfl]; rfl

/-- Nothing is left to join in a joined text. -/
theorem unpaired_join (s : Text) : unpaired (join s) = true := by
  induction s using join.induct with
  | case1 => rfl
  | case2 => rfl
  | case3 c d rest hpair ih =>
    have hboth := Bool.and_eq_true_iff.1 hpair
    simp only [isHigh, isLow, decide_eq_true_eq] at hboth
    have hval : (pair c d).val = 0x10000 + (c.val - 0xD800) * 0x400 + (d.val - 0xDC00) := Nat.mod_eq_of_lt (by omega)
    have hhigh : isHigh (pair c d) = false := by
      rw [isHigh, hval, decide_eq_false_iff_not]
      omega
    rw [join, if_pos hpair, unpaired_cons (fun e _ => by rw [hhigh]; rfl), ih]
  | case4 c d rest hpair ih =>
    rw [join, if_neg hpair, unpaired_cons, ih]
    refine fun e he => Bool.eq_false_iff.2 fun hboth => hpair ?_
    obtain ⟨hc, hlow⟩ := Bool.and_eq_true_iff.1 hboth
    rw [hc, Option.some.inj (head_join he hlow), hlow]
    rfl

/-! ### Dictionaries -/

/-- Pairs with distinct keys are a dictionary as they stand. -/
theorem foldl_set {fields d : List (Key × PyValue)} (h : ((d ++ fields).map Prod.fst).Nodup) : fields.foldl (fun d p => Dict.set p.1 p.2 d) d = d ++ fields := by
  induction fields generalizing d with
  | nil => rw [List.append_nil]; rfl
  | cons p fields ih =>
    have hnew : p.1 ∉ d.map Prod.fst := fun hmem => by
      rw [List.map_append, List.nodup_append] at h
      exact h.2.2 p.1 hmem p.1 List.mem_cons_self rfl
    rw [List.foldl_cons, Dict.set_of_notMem p.2 hnew, ih (by rwa [List.append_assoc]), List.append_assoc]
    rfl

theorem ofPairs_eq {fields : List (Key × PyValue)} (h : (fields.map Prod.fst).Nodup) : ofPairs fields = fields := foldl_set (d := []) h

theorem mem_foldl_set {fields d : List (Key × PyValue)} {p : Key × PyValue} (h : p ∈ fields.foldl (fun d p => Dict.set p.1 p.2 d) d) : p ∈ d ∨ p ∈ fields := by
  induction fields generalizing d with
  | nil => exact Or.inl h
  | cons q fields ih =>
    rcases ih h with h | h
    · rcases Dict.mem_set h with h | h
      · exact Or.inr (h ▸ List.mem_cons_self)
      · exact Or.inl h
    · exact Or.inr (List.mem_cons_of_mem q h)

theorem mem_ofPairs {fields : List (Key × PyValue)} {p : Key × PyValue} (h : p ∈ ofPairs fields) : p ∈ fields := (mem_foldl_set h).resolve_left List.not_mem_nil

theorem allFields_iff {p : PyValue → Bool} {fields : List (Key × PyValue)} : PyValue.allFields p fields = true ↔ ∀ e ∈ fields, e.2.all p = true := by
  induction fields with
  | nil => exact ⟨fun _ _ h => absurd h List.not_mem_nil, fun _ => rfl⟩
  | cons e fields ih => rw [PyValue.allFields, Bool.and_eq_true, ih, List.forall_mem_cons]

theorem distinct_dict {fields : List (Key × PyValue)} : Distinct (.dict fields) ↔ (fields.map Prod.fst).Nodup ∧ PyValue.allFields distinctNode fields = true := by
  simp [Distinct, PyValue.all, distinctNode]

theorem distinct_list {xs : List PyValue} : Distinct (.list xs) ↔ PyValue.allItems distinctNode xs = true := by
  simp [Distinct, PyValue.all, distinctNode]

theorem unpaired_dict {fields : List (Key × PyValue)} :
    Unpaired (.dict fields) ↔ (fields.all fun p => p.1.unpaired) = true ∧ PyValue.allFields unpairedNode fields = true := by
  simp [Unpaired, PyValue.all, unpairedNode]

theorem unpaired_list {xs : List PyValue} : Unpaired (.list xs) ↔ PyValue.allItems unpairedNode xs = true := by
  simp [Unpaired, PyValue.all, unpairedNode]

theorem key_joined {k : Key} (h : k.unpaired = true) : k.joined = k := by
  cases k with
  | text s => exact congrArg Key.text (join_eq_self h)
  | other => rfl

theorem key_unpaired (k : Key) : k.joined.unpaired = true := by
  cases k with
  | text s => exact unpaired_join s
  | other => rfl

mutual

/-- A value in whose texts no surrogates pair comes back as it is. -/
theorem joined_eq_self : ∀ v : PyValue, Distinct v → Unpaired v → joined v = v
  | .null, _, _ => rfl
  | .bool _, _, _ => rfl
  | .int _, _, _ => rfl
  | .float _, _, _ => rfl
  | .other, _, _ => rfl
  | .str s, _, h => congrArg PyValue.str (join_eq_self h)
  | .list xs, hd, h => congrArg PyValue.list (joinedItems_eq_self xs (distinct_list.1 hd) (unpaired_list.1 h))
  | .dict fields, hd, h => by
    have hd := distinct_dict.1 hd
    have h := unpaired_dict.1 h
    rw [joined, joinedFields_eq_self fields hd.2 h.1 h.2, ofPairs_eq hd.1]

theorem joinedItems_eq_self : ∀ xs : List PyValue, PyValue.allItems distinctNode xs = true → PyValue.allItems unpairedNode xs = true → joinedItems xs = xs
  | [], _, _ => rfl
  | x :: xs, hd, h => by
    have hd := Bool.and_eq_true_iff.1 hd
    have h := Bool.and_eq_true_iff.1 h
    rw [joinedItems, joined_eq_self x hd.1 h.1, joinedItems_eq_self xs hd.2 h.2]

theorem joinedFields_eq_self : ∀ fields : List (Key × PyValue), PyValue.allFields distinctNode fields = true → (fields.all fun p => p.1.unpaired) = true →
    PyValue.allFields unpairedNode fields = true → joinedFields fields = fields
  | [], _, _, _ => rfl
  | (k, v) :: fields, hd, hk, h => by
    have hd := Bool.and_eq_true_iff.1 hd
    have hk := Bool.and_eq_true_iff.1 hk
    have h := Bool.and_eq_true_iff.1 h
    rw [joinedFields, key_joined hk.1, joined_eq_self v hd.1 h.1, joinedFields_eq_self fields hd.2 hk.2 h.2]

end

mutual

/-- No surrogates pair in what comes back. -/
theorem unpaired_joined : ∀ v : PyValue, Unpaired (joined v)
  | .null => rfl
  | .bool _ => rfl
  | .int _ => rfl
  | .float _ => rfl
  | .other => rfl
  | .str s => unpaired_join s
  | .list xs => unpaired_list.2 (unpaired_joinedItems xs)
  | .dict fields => by
    have hfields := unpaired_joinedFields fields
    refine unpaired_dict.2 ⟨List.all_eq_true.2 fun e he => ?_, allFields_iff.2 fun e he => ?_⟩
    · exact (hfields e (mem_ofPairs he)).1
    · exact (hfields e (mem_ofPairs he)).2

theorem unpaired_joinedItems : ∀ xs : List PyValue, PyValue.allItems unpairedNode (joinedItems xs) = true
  | [] => rfl
  | x :: xs => Bool.and_eq_true_iff.2 ⟨unpaired_joined x, unpaired_joinedItems xs⟩

theorem unpaired_joinedFields : ∀ fields : List (Key × PyValue), ∀ e ∈ joinedFields fields, e.1.unpaired = true ∧ Unpaired e.2
  | [], _, h => by cases h
  | (k, v) :: fields, e, h => by
    rcases List.mem_cons.1 h with rfl | h
    · exact ⟨key_unpaired k, unpaired_joined v⟩
    · exact unpaired_joinedFields fields e h

end

end JsonText
