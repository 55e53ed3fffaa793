import Mathlib
import TecTac.Lib.JsonSize
import TecTac.Lib.Text

/-!
# What a success row records

The values of the success row of `run_tactical_operation`: the declared fields of the body and of Tactical's own record, the declared lists in clear or masked,
and the markers of the secret fields and of the masked lists. `digest` is the digest of a value, which serves comparisons only. A text has no lone surrogates.
-/

namespace TecTac

namespace OperationRecord

inductive MaskMode where
  | names
  | mask

abbrev Fields := List (String × JsonValue)

/-! ## Masks -/

/-- `_LIST_CONTROL`. -/
def control (c : Char) : Bool := decide (c.toNat ≤ 8 ∨ 0x0b ≤ c.toNat ∧ c.toNat ≤ 0x1f ∨ c.toNat = 0x7f)

def uncontrolled (text : String) : List Char := text.toList.filter fun c => !control c

def nameRest (s : List Char) : Bool := decide (s.length ≤ 63) && s.all fun c => c.isAlphanum || decide (c ∈ ['_', '.', '-'])

def dashes (s : List Char) : Nat := (s.takeWhile (· = '-')).length

/-- `_ITEM_NAME_RE`. -/
def itemNameRe (s : List Char) : Bool :=
  match s.dropWhile (· = '-') with
  | [] => false
  | c :: rest => decide (dashes s ≤ 2) && (c.isAlpha || decide (c = '_')) && nameRest rest

/-- `_ITEM_SWITCH_RE`. -/
def itemSwitchRe (s : List Char) : Bool :=
  match if s.head? = some '/' then s.tail else s.dropWhile (· = '-') with
  | [] => false
  | c :: rest => decide (s.head? = some '/' ∨ 1 ≤ dashes s ∧ dashes s ≤ 2) && (c.isAlphanum || decide (c ∈ ['_', '?'])) && nameRest rest

/-- `_item_name`: the name, whether an equals sign follows it, and whether there is a value. -/
def itemName (text : String) : Option (List Char × Bool × Bool) :=
  let clean := strip (uncontrolled text)
  if '=' ∈ clean then
    let head := clean.takeWhile (· ≠ '=')
    if ((clean.dropWhile (· ≠ '=')).any fun c => decide (c ≠ '=')) && itemNameRe head then some (head, true, true) else none
  else if clean.head? = some '-' ∨ clean.head? = some '/' then
    let first := clean.takeWhile fun c => !isSpace c
    if itemSwitchRe first then some (first, false, decide (first.length < clean.length)) else none
  else none

/-- What a mask leaves of an item. -/
def visible : JsonValue → Option (List Char × Bool × Bool)
  | .str s => itemName s
  | _ => none

def maskPart (mode : MaskMode) (part : Option (List Char × Bool × Bool)) : String :=
  match part, mode with
  | none, _ => "***"
  | some (name, _, _), .names => String.ofList name
  | some (name, equals, hasValue), .mask =>
    if hasValue then String.ofList name ++ (if equals then "=" else " ") ++ "***" else String.ofList name

/-- `_mask_item`. -/
def maskItem (mode : MaskMode) (item : JsonValue) : String := maskPart mode (visible item)

/-- `_mask_value`. -/
def maskValue (mode : MaskMode) : JsonValue → JsonValue × Bool
  | .null => (.null, false)
  | .list items => (.list ((items.take 100).map fun item => .str (maskItem mode item)), decide (100 < items.length))
  | _ => (.str "***", false)

/-! ## The lists -/

/-- A value as it is kept and its bytes, or none when it is dropped; and whether something was cut. -/
abbrev Kept := Option (JsonValue × Nat) × Bool

/-- `_list_value` of what is no list. -/
def scalarValue : JsonValue → Kept
  | .null => (some (.null, 0), false)
  | .bool b => (some (.bool b, 0), false)
  | .num n => (some (.num n, (toString n).length), false)
  | .float zero digits => if digits ∈ ["nan", "inf", "-inf"] then (none, true) else (some (.float zero digits, digits.length), false)
  | .str s =>
    let text := String.ofList ((uncontrolled s).take 4096)
    (some (.str text, text.utf8ByteSize), decide (4096 < (uncontrolled s).length))
  | _ => (none, true)

/-- `_list_value`. -/
def listValue : JsonValue → Kept
  | .list items =>
    let kept := (items.take 100).map scalarValue
    (some (.list (kept.filterMap fun k => k.1.map Prod.fst), (kept.map fun k => (k.1.map Prod.snd).getD 0).sum),
      decide (100 < items.length) || kept.any Prod.snd)
  | value => scalarValue value

/-- `_FIELD_RE`, by `fullmatch`. -/
def fieldRe (name : String) : Bool :=
  match name.toList with
  | [] => false
  | c :: rest => (c.isAlpha || decide (c = '_')) && decide (rest.length ≤ 63) && rest.all fun c => c.isAlphanum || decide (c = '_')

structure Entry where
  fields : Fields
  size : Nat
  cut : Bool

def masked (masks : List (String × MaskMode)) (key : String) (value : JsonValue) : JsonValue × Bool :=
  match Dict.get key masks with
  | none => (value, false)
  | some mode => maskValue mode value

/-- One key of `_list_entry`. -/
def addField (masks : List (String × MaskMode)) (e : Entry) (field : String × JsonValue) : Entry :=
  if 24 ≤ e.fields.length ∨ fieldRe field.1 = false then { e with cut := true }
  else
    let value := masked masks field.1 field.2
    let kept := listValue value.1
    match kept.1 with
    | none => { e with cut := e.cut || value.2 || kept.2 }
    | some (clean, used) => ⟨e.fields ++ [(field.1, clean)], e.size + (field.1.utf8ByteSize + used), e.cut || value.2 || kept.2⟩

/-- `_list_entry`. -/
def listEntry (masks : List (String × MaskMode)) (item : Fields) : Entry := item.foldl (addField masks) ⟨[], 0, false⟩

/-- The loop of `_list_record`: the entries that fit, and whether something was cut. -/
def keepEntries (masks : List (String × MaskMode)) : List Fields → Nat → List Fields × Bool
  | [], _ => ([], false)
  | item :: items, used =>
    let entry := listEntry masks item
    if 65536 < used + entry.size then ([], true)
    else
      let rest := keepEntries masks items (used + entry.size)
      (entry.fields :: rest.1, entry.cut || rest.2)

def asDict : JsonValue → Option Fields
  | .dict fields => some fields
  | _ => none

def countOnly (name : String) (count : Nat) : Fields := [(name, .list []), (name ++ "_count", .num count), (name ++ "_truncated", .bool true)]

/-- `_list_record`. -/
def listRecord (name : String) (masks : List (String × MaskMode)) : JsonValue → Fields
  | .list items =>
    match items.mapM asDict with
    | none => countOnly name items.length
    | some dicts =>
      let kept := keepEntries masks (dicts.take 50) 0
      [(name, .list (kept.1.map .dict)), (name ++ "_count", .num items.length)] ++
        if 50 < items.length ∨ kept.2 then [(name ++ "_truncated", .bool true)] else []
  | _ => countOnly name 0

/-! ## The row -/

/-- The parts of an operation that say what a success row records. The fields that no value may be read from twice are checked at registration. -/
structure Declared where
  auditFields : List String
  auditParams : List String
  auditLists : List String
  listMasks : List (String × List (String × MaskMode))
  secretFields : List String
  beforeFields : List String
  countFields : List String
  masksOnLists : ∀ m ∈ listMasks, m.1 ∈ auditLists
  listsApart : ∀ name ∈ auditLists, name ∉ auditFields ∧ name ∉ beforeFields ∧ name ∉ countFields
  secretsApart : ∀ name ∈ secretFields, name ∉ auditFields ∧ name ∉ auditLists ∧ name ∉ beforeFields

variable (op : Declared)

/-- `_list_masks_for`. -/
def masksFor (name : String) : List (String × MaskMode) := (Dict.get name op.listMasks).getD []

def printable (text : String) : String := String.ofList ((text.toList.filter fun c => decide (32 ≤ c.toNat ∧ c.toNat < 127)).take 255)

def copyField (body query : Fields) (values : Fields) (name : String) : Fields :=
  match (Dict.get name body).or (Dict.get name query) with
  | none => values
  | some value => Dict.set name value values

def copyParam (params : List (String × String)) (values : Fields) (name : String) : Fields :=
  match Dict.get name params with
  | none => values
  | some value => Dict.set name (.str (printable value)) values

def copyList (from' : Fields) (values : Fields) (name : String) : Fields :=
  match Dict.get name from' with
  | none => values
  | some value => Dict.update values (listRecord name (masksFor op name) value)

/-- `_after_values`. -/
def afterValues (body query : Fields) (params : List (String × String)) (upload : Option Fields) : Option Fields :=
  if op.auditFields = [] ∧ op.auditParams = [] ∧ op.auditLists = [] ∧ upload = none then none
  else
    let values := op.auditLists.foldl (copyList op body) (op.auditParams.foldl (copyParam params) (op.auditFields.foldl (copyField body query) []))
    some (match upload with | none => values | some file => Dict.set "upload" (.dict file) values)

/-- `_before_text`. -/
def beforeText (text : String) : String := String.ofList ((text.toList.filter fun c => decide (32 ≤ c.toNat ∧ c.toNat ≠ 127)).take 256)

/-- One item of `_before_list`: the items kept and their characters. -/
def addItem (s : List JsonValue × Nat) (item : JsonValue) : Option (List JsonValue × Nat) :=
  let keep (clean : JsonValue) (size : Nat) := if s.1.length < 1000 ∧ s.2 ≤ 65536 then some (s.1 ++ [clean], s.2 + size) else some s
  match item with
  | .num n => keep (.num n) (toString n).length
  | .str text => keep (.str (beforeText text)) (beforeText text).length
  | _ => none

def copyBefore (data : Fields) (values : Fields) (name : String) : Fields :=
  match (Dict.get name data).getD .null with
  | .str text => Dict.set name (.str (beforeText text)) values
  | .list items =>
    match items.foldlM addItem ([], 0) with
    | none => values
    | some (kept, _) =>
      let counted := Dict.set (name ++ "_count") (.num items.length) (Dict.set name (.list kept) values)
      if kept.length < items.length then Dict.set (name ++ "_truncated") (.bool true) counted else counted
  | .dict _ | .other _ _ => values
  | value => Dict.set name value values

def copyCount (data : Fields) (values : Fields) (name : String) : Fields :=
  match Dict.get name data with
  | some (.list items) => Dict.set (name ++ "_count") (.num items.length) values
  | _ => values

/-- `_before_values`. -/
def beforeValues (data : Fields) : Fields :=
  op.auditLists.foldl (copyList op data) (op.countFields.foldl (copyCount data) (op.beforeFields.foldl (copyBefore data) []))

variable {δ : Type} [DecidableEq δ] (digest : JsonValue → δ)

/-- One field of `_secret_markers`: the markers after and before. -/
def markSecret (body : Fields) (read : Option Fields) (markers : Fields × Fields) (name : String) : Fields × Fields :=
  match Dict.get name body with
  | none => markers
  | some sent =>
    match read.bind (Dict.get name) with
    | none => (Dict.set name (.str "changed") markers.1, markers.2)
    | some stored =>
      (Dict.set name (.str (if digest stored = digest sent then "unchanged" else "changed")) markers.1, Dict.set name (.str "present") markers.2)

def isList : JsonValue → Bool
  | .list _ => true
  | _ => false

/-- One list of `_list_markers`. -/
def markList (body : Fields) (read : Option Fields) (markers : Fields) (name : String) : Fields :=
  match Dict.get name body with
  | none => markers
  | some sent =>
    match read.bind (Dict.get name) with
    | none => markers
    | some stored =>
      if isList sent && isList stored then Dict.set (name ++ "_changed") (.bool (decide (digest stored ≠ digest sent))) markers else markers

/-- `{**(payload or {}), **markers}`, for markers that are there. -/
def withMarkers (payload : Option Fields) (markers : Fields) : Option Fields :=
  if markers = [] then payload else some (Dict.update (payload.getD []) markers)

/-- The before and the after value of a success row. `read` is Tactical's own record, when the operation reads it and it is an object. -/
def rowValues (body query : Fields) (params : List (String × String)) (upload : Option Fields) (read : Option Fields) : Option Fields × Option Fields :=
  let secrets := op.secretFields.foldl (markSecret digest body read) ([], [])
  let lists := (op.listMasks.map Prod.fst).foldl (markList digest body read) []
  (withMarkers (read.map (beforeValues op)) secrets.2, withMarkers (withMarkers (afterValues op body query params upload) secrets.1) lists)

end OperationRecord

end TecTac
