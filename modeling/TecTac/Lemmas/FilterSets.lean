import Mathlib
import TecTac.FilterSets
import TecTac.Lib.Entries

/-!
# What the validator of filter sets accepts

`InDomain` says which values a rule of a kind and an operator holds, and `Reads` which trees the validator answers: every rule is
valid, and the counters are counted on. A value that is answered is in the domain, and the document of a value in the domain is read
back as the value; the same for a tree.
-/

namespace TecTac

namespace FilterSets

open Raise

/-- A text as a rule keeps it. -/
structure IsPlainText (s : String) : Prop where
  stripped : strip s.toList = s.toList
  filled : s.toList ≠ []
  short : s.toList.length ≤ maxValueLength
  plain : s.toList.any isControl = false

/-- A day as a rule keeps it. -/
def IsDay (s : String) : Prop :=
  ∃ year month day, dateParts s = some (year, month, day) ∧ isDate year month day = true ∧ precedes s minDate = false ∧
    precedes maxDate s = false

/-- A number as a rule of a number field keeps it. -/
structure IsNumber (integer : Bool) (minimum maximum : Option Num) (x : Num) : Prop where
  whole : integer = true → ∃ n, x = .int n
  size : |x.val| ≤ maxNumber
  inRange : outOfRange minimum maximum x = false

/-- The values that a rule holds, by the kind of its field and its operator. -/
inductive InDomain : FieldKind → Operator → Value → Prop where
  | text {op : Operator} {s : String} (h : IsPlainText s) : InDomain .text op (.text s)
  | id {nameLookup nameKey : Option String} {op : Operator} {n : Int} (hop : op ∈ Operator.forId) (hpos : 1 ≤ n) (hmax : n ≤ maxIdValue) :
    InDomain (.id nameLookup nameKey) op (.id n)
  | name {nameLookup nameKey : Option String} {op : Operator} {s : String} (hop : op ∉ Operator.forId) (h : IsPlainText s) :
    InDomain (.id nameLookup nameKey) op (.text s)
  | bool {op : Operator} {b : Bool} : InDomain .bool op (.bool b)
  | day {storedAs : StoredAs} {op : Operator} {s : String} (hrelative : op ∉ Operator.relative) (hbetween : op ≠ .between) (h : IsDay s) :
    InDomain (.date storedAs) op (.day s)
  | days {storedAs : StoredAs} {first last : String} (hfirst : IsDay first) (hlast : IsDay last) (horder : precedes last first = false) :
    InDomain (.date storedAs) .between (.days first last)
  | relative {storedAs : StoredAs} {op : Operator} {amount : Int} {unit : TimeUnit} (hop : op ∈ Operator.relative) (hpos : 1 ≤ amount)
    (hmax : amount ≤ unit.largest) : InDomain (.date storedAs) op (.relative amount unit)
  | number {integer : Bool} {minimum maximum : Option Num} {op : Operator} {x : Num} (hop : op ≠ .between)
    (h : IsNumber integer minimum maximum x) : InDomain (.number integer minimum maximum) op (.number x)
  | numbers {integer : Bool} {minimum maximum : Option Num} {first last : Num} (hfirst : IsNumber integer minimum maximum first)
    (hlast : IsNumber integer minimum maximum last) (horder : first.val ≤ last.val) :
    InDomain (.number integer minimum maximum) .between (.numbers first last)

/-! ## Fields -/

/-- The fields that are kept after some were: those, and others of the list. -/
theorem mem_keep {field : Field} {xs out : List Field}
    (h : field ∈ xs.foldl (fun out f => if f.id ∈ out.map Field.id then out else out ++ [f]) out) : field ∈ out ∨ field ∈ xs := by
  induction xs generalizing out with
  | nil => exact .inl h
  | cons x xs ih =>
    rcases ih h with h | h
    · simp only at h
      split at h
      · exact .inl h
      · rcases List.mem_append.1 h with h | h
        · exact .inl h
        · exact .inr (List.mem_cons.2 (.inl (List.mem_singleton.1 h)))
    · exact .inr (List.mem_cons_of_mem _ h)

theorem mem_of_mem_cleanFields {declared : List Field} {field : Field} (h : field ∈ cleanFields declared) : field ∈ declared := by
  rcases mem_keep h with h | h
  · cases h
  · exact List.mem_of_mem_take h

theorem nodup_keep {xs out : List Field} (h : (out.map Field.id).Nodup) :
    ((xs.foldl (fun out f => if f.id ∈ out.map Field.id then out else out ++ [f]) out).map Field.id).Nodup := by
  induction xs generalizing out with
  | nil => exact h
  | cons x xs ih =>
    apply ih
    simp only
    split
    · exact h
    · rename_i hx
      exact Entries.nodup_map_concat h hx

theorem get_index {declared : List Field} {id : String} {field : Field} (h : Dict.get id (index declared) = some field) :
    field ∈ cleanFields declared ∧ field.id = id := by
  obtain ⟨kept, hkept, heq⟩ := List.mem_map.1 (Dict.mem_of_get h)
  cases heq
  exact ⟨hkept, rfl⟩

/-- A field that is kept is found by its id. -/
theorem get_index_of_mem {declared : List Field} {field : Field} (h : field ∈ cleanFields declared) :
    Dict.get field.id (index declared) = some field := by
  apply Dict.get_of_mem
  · have hkeys : (index declared).map Prod.fst = (cleanFields declared).map Field.id := by
      unfold index
      rw [List.map_map]
      rfl
    rw [hkeys]
    exact nodup_keep List.nodup_nil
  · exact List.mem_map.2 ⟨field, h, rfl⟩

/-! ## Values -/

theorem plainText_ok {label : String} {doc : Doc} {s : String} (h : plainText label maxValueLength doc = .ok s) : IsPlainText s := by
  cases doc with
  | str t =>
    obtain ⟨_, hfilled, h⟩ := bind_ok h
    obtain ⟨_, hshort, h⟩ := bind_ok h
    obtain ⟨_, hplain, h⟩ := bind_ok h
    cases h
    have hfilled := of_require hfilled
    have hshort := of_require hshort
    have hplain := of_require hplain
    constructor
    · rw [String.toList_ofList, strip_strip]
    · simpa using hfilled
    · simpa using hshort
    · simpa using hplain
  | _ => cases h

theorem plainText_str {label s : String} (h : IsPlainText s) : plainText label maxValueLength (.str s) = .ok s := by
  have hfilled : (!s.toList.isEmpty) = true := by simpa using h.filled
  have hshort : decide (s.toList.length ≤ maxValueLength) = true := by simpa using h.short
  simp only [plainText, h.stripped, hfilled, hshort, h.plain, Bool.not_false, require_true, ok_bind]
  rw [String.ofList_toList]
  rfl

theorem normDay_ok {label : String} {doc : Doc} {s : String} (h : normDay label doc = .ok s) : IsDay s := by
  cases doc with
  | str t =>
    simp only [normDay] at h
    split at h
    · cases h
    · rename_i year month day hparts
      obtain ⟨_, hdate, h⟩ := bind_ok h
      obtain ⟨_, hrange, h⟩ := bind_ok h
      cases h
      have hrange := of_require hrange
      rw [Bool.and_eq_true, Bool.not_eq_true', Bool.not_eq_true'] at hrange
      exact ⟨year, month, day, hparts, of_require hdate, hrange⟩
  | _ => cases h

theorem normDay_str {label s : String} (h : IsDay s) : normDay label (.str s) = .ok s := by
  obtain ⟨year, month, day, hparts, hdate, hmin, hmax⟩ := h
  simp only [normDay, hparts, hdate, hmin, hmax, Bool.not_false, Bool.and_self, require_true, ok_bind]
  rfl

theorem readNumber_ok {integer : Bool} {label : String} {doc : Doc} {x : Num} (h : readNumber integer label doc = .ok x) :
    integer = true → ∃ n, x = .int n := by
  cases doc with
  | num n =>
    cases h
    exact fun _ => ⟨n, rfl⟩
  | float y =>
    intro hinteger
    simp only [readNumber, if_pos hinteger] at h
    split at h
    · cases h
      exact ⟨_, rfl⟩
    · cases h
  | _ => cases h

theorem readNumber_toDoc {integer : Bool} {label : String} {x : Num} (h : integer = true → ∃ n, x = .int n) :
    readNumber integer label x.toDoc = .ok x := by
  cases x with
  | int n => rfl
  | float y =>
    have hinteger : integer = false := by
      cases integer with
      | false => rfl
      | true =>
        obtain ⟨n, hn⟩ := h rfl
        cases hn
    rw [hinteger]
    rfl

theorem normNumber_ok {field : Field} {integer : Bool} {minimum maximum : Option Num} {label : String} {doc : Doc} {x : Num}
    (h : normNumber field integer minimum maximum label doc = .ok x) : IsNumber integer minimum maximum x := by
  obtain ⟨y, hread, h⟩ := bind_ok h
  obtain ⟨_, hsize, h⟩ := bind_ok h
  obtain ⟨_, hrange, h⟩ := bind_ok h
  cases h
  have hrange := of_require hrange
  rw [Bool.not_eq_true'] at hrange
  exact ⟨readNumber_ok hread, of_decide_eq_true (of_require hsize), hrange⟩

theorem normNumber_toDoc {field : Field} {integer : Bool} {minimum maximum : Option Num} {label : String} {x : Num}
    (h : IsNumber integer minimum maximum x) : normNumber field integer minimum maximum label x.toDoc = .ok x := by
  have hsize : decide (|x.val| ≤ maxNumber) = true := decide_eq_true h.size
  simp only [normNumber, readNumber_toDoc h.whole, hsize, h.inRange, Bool.not_false, require_true, ok_bind]
  rfl

theorem exactKeys_pair (label key₁ key₂ : String) (a b : Doc) :
    exactKeys label [key₁, key₂] (.obj [(key₁, a), (key₂, b)]) = .ok [(key₁, a), (key₂, b)] := by
  have hget : (Dict.get key₂ [(key₁, a), (key₂, b)]).isSome = true := Dict.get_isSome_of_mem (p := (key₂, b)) (by simp)
  have hget' : (Dict.get key₁ [(key₁, a), (key₂, b)]).isSome = true := Dict.get_isSome_of_mem (p := (key₁, a)) (by simp)
  unfold exactKeys
  simp [Doc.pairs, hget, hget']

theorem unitOf_word (label : String) (unit : TimeUnit) : unitOf label (.str unit.word) = .ok unit := by
  simp [unitOf]

theorem amountOf_ok {label : String} {unit : TimeUnit} {doc : Doc} {n : Int} (h : amountOf label unit doc = .ok n) :
    1 ≤ n ∧ n ≤ unit.largest := by
  unfold amountOf at h
  split at h
  · split at h
    · cases h
      assumption
    · cases h
  · cases h

theorem amountOf_num {label : String} {unit : TimeUnit} {n : Int} (hpos : 1 ≤ n) (hmax : n ≤ unit.largest) :
    amountOf label unit (.num n) = .ok n := if_pos ⟨hpos, hmax⟩

theorem normDateValue_ok {field : Field} {storedAs : StoredAs} {op : Operator} {doc : Doc} {v : Value}
    (h : normDateValue field op doc = .ok v) : InDomain (.date storedAs) op v := by
  unfold normDateValue at h
  simp only at h
  split at h
  · rename_i hop
    obtain ⟨body, -, h⟩ := bind_ok h
    obtain ⟨unit, -, h⟩ := bind_ok h
    obtain ⟨amount, hamount, h⟩ := bind_ok h
    cases h
    exact .relative hop (amountOf_ok hamount).1 (amountOf_ok hamount).2
  · rename_i hop
    split at h
    · rename_i hbetween
      subst hbetween
      obtain ⟨body, -, h⟩ := bind_ok h
      obtain ⟨first, hfirst, h⟩ := bind_ok h
      obtain ⟨last, hlast, h⟩ := bind_ok h
      obtain ⟨_, horder, h⟩ := bind_ok h
      cases h
      have horder := of_require horder
      rw [Bool.not_eq_true'] at horder
      exact .days (normDay_ok hfirst) (normDay_ok hlast) horder
    · rename_i hbetween
      obtain ⟨s, hday, h⟩ := bind_ok h
      cases h
      exact .day hop hbetween (normDay_ok hday)

theorem normNumberValue_ok {field : Field} {integer : Bool} {minimum maximum : Option Num} {op : Operator} {doc : Doc} {v : Value}
    (h : normNumberValue field integer minimum maximum op doc = .ok v) : InDomain (.number integer minimum maximum) op v := by
  unfold normNumberValue at h
  simp only at h
  split at h
  · rename_i hop
    subst hop
    obtain ⟨body, -, h⟩ := bind_ok h
    obtain ⟨first, hfirst, h⟩ := bind_ok h
    obtain ⟨last, hlast, h⟩ := bind_ok h
    obtain ⟨_, horder, h⟩ := bind_ok h
    cases h
    exact .numbers (normNumber_ok hfirst) (normNumber_ok hlast) (of_decide_eq_true (of_require horder))
  · rename_i hop
    obtain ⟨x, hx, h⟩ := bind_ok h
    cases h
    exact .number hop (normNumber_ok hx)

theorem normId_ok {field : Field} {doc : Doc} {v : Value} (h : normId field doc = .ok v) : ∃ n, v = .id n ∧ 1 ≤ n ∧ n ≤ maxIdValue := by
  obtain ⟨number, -, h⟩ := bind_ok h
  cases number with
  | none => cases h
  | some n =>
    obtain ⟨_, hrange, h⟩ := bind_ok h
    cases h
    exact ⟨n, rfl, of_decide_eq_true (of_require hrange)⟩

theorem normId_num {field : Field} {n : Int} (hpos : 1 ≤ n) (hmax : n ≤ maxIdValue) : normId field (.num n) = .ok (.id n) := by
  have hrange : decide (1 ≤ n ∧ n ≤ maxIdValue) = true := decide_eq_true ⟨hpos, hmax⟩
  simp only [normId, idNumber, hrange, require_true, ok_bind]
  rfl

theorem normBool_ok {field : Field} {doc : Doc} {v : Value} (h : normBool field doc = .ok v) : ∃ b, v = .bool b := by
  cases doc with
  | bool b =>
    cases h
    exact ⟨b, rfl⟩
  | str s =>
    simp only [normBool] at h
    split at h
    · cases h
      exact ⟨_, rfl⟩
    · split at h
      · cases h
        exact ⟨_, rfl⟩
      · cases h
  | _ => cases h

/-- A value that is answered is in the domain of its kind and operator. -/
theorem inDomain_of_normValue {field : Field} {op : Operator} {doc : Doc} {v : Value} (h : normValue field op doc = .ok v) :
    InDomain field.kind op v := by
  unfold normValue at h
  split at h
  · rename_i hkind
    exact hkind ▸ normDateValue_ok h
  · rename_i hkind
    exact hkind ▸ normNumberValue_ok h
  · rename_i hkind
    obtain ⟨b, rfl⟩ := normBool_ok h
    exact hkind ▸ .bool
  · rename_i hkind
    rw [hkind]
    split at h
    · rename_i hop
      obtain ⟨n, rfl, hpos, hmax⟩ := normId_ok h
      exact .id hop hpos hmax
    · rename_i hop
      obtain ⟨s, hs, h⟩ := bind_ok h
      cases h
      exact .name hop (plainText_ok hs)
  · rename_i hkind
    obtain ⟨s, hs, h⟩ := bind_ok h
    cases h
    exact hkind ▸ .text (plainText_ok hs)

/-- The document of a value in the domain is read as the value. -/
theorem normValue_toDoc {field : Field} {op : Operator} {v : Value} (h : InDomain field.kind op v) : normValue field op v.toDoc = .ok v := by
  unfold normValue
  generalize field.kind = kind at h
  cases h with
  | text h => simp [normText, Value.toDoc, plainText_str h]
  | id hop hpos hmax => simp [hop, Value.toDoc, normId_num hpos hmax]
  | name hop h => simp [hop, normText, Value.toDoc, plainText_str h]
  | bool => rfl
  | day hrelative hbetween h => simp [normDateValue, hrelative, hbetween, Value.toDoc, normDay_str h]
  | days hfirst hlast horder =>
    have hrelative : Operator.between ∉ Operator.relative := by decide
    simp [normDateValue, hrelative, Value.toDoc, exactKeys_pair, Doc.field, Dict.get_cons, normDay_str hfirst, normDay_str hlast, horder]
  | relative hop hpos hmax =>
    simp [normDateValue, hop, Value.toDoc, exactKeys_pair, Doc.field, Dict.get_cons, unitOf_word, amountOf_num hpos hmax]
  | number hop h => simp [normNumberValue, hop, Value.toDoc, normNumber_toDoc h]
  | numbers hfirst hlast horder =>
    simp [normNumberValue, Value.toDoc, exactKeys_pair, Doc.field, Dict.get_cons, normNumber_toDoc hfirst, normNumber_toDoc hlast, horder]

/-! ## Rules -/

/-- A rule that names a field of the index, an operator that its kind offers and a value in the domain. -/
def Rule.Valid (fields : List (String × Field)) (r : Rule) : Prop :=
  ∃ field, Dict.get r.field fields = some field ∧ r.operator ∈ operatorsFor field.kind ∧ InDomain field.kind r.operator r.value

theorem onlyKeys_ok {what : String} {allowed : List String} {item : List (String × Doc)} (h : ∀ p ∈ item, p.1 ∈ allowed) :
    onlyKeys what allowed item = .ok () := by
  have hnil : (item.map Prod.fst).filter (fun key => key ∉ allowed) = [] := by
    rw [List.filter_eq_nil_iff]
    intro key hkey
    obtain ⟨p, hp, rfl⟩ := List.mem_map.1 hkey
    simpa using h p hp
  have hunknown : unknownKeys allowed item = [] := by
    unfold unknownKeys
    rw [hnil]
    simp
  unfold onlyKeys
  rw [hunknown]
  rfl

theorem ruleField_ok {printable : String → Bool} {fields : List (String × Field)} {doc : Doc} {p : String × Field}
    (h : ruleField printable fields doc = .ok p) : doc = .str p.1 ∧ Dict.get p.1 fields = some p.2 := by
  unfold ruleField at h
  split at h
  · split at h
    · rename_i hget
      cases h
      exact ⟨rfl, hget⟩
    · cases h
  · cases h

theorem ruleField_str {printable : String → Bool} {fields : List (String × Field)} {s : String} {field : Field}
    (h : Dict.get s fields = some field) : ruleField printable fields (.str s) = .ok (s, field) := by
  simp only [ruleField, h]

theorem ruleOperator_ok {field : Field} {doc : Doc} {op : Operator} (h : ruleOperator field doc = .ok op) : op ∈ operatorsFor field.kind := by
  unfold ruleOperator at h
  split at h
  · split at h
    · split at h
      · cases h
        assumption
      · cases h
    · cases h
  · cases h

theorem ruleOperator_id {field : Field} {op : Operator} (h : op ∈ operatorsFor field.kind) : ruleOperator field (.str op.id) = .ok op := by
  simp only [ruleOperator, Operator.ofId_id, if_pos h]

/-- A rule that is answered is valid, and is counted. -/
theorem normRule_ok {printable : String → Bool} {fields : List (String × Field)} {item : List (String × Doc)} {c c' : Counter} {r : Rule}
    (h : normRule printable fields item c = .ok (r, c')) :
    r.Valid fields ∧ c.rules + 1 ≤ maxRules ∧ c' = { c with rules := c.rules + 1 } := by
  obtain ⟨_, -, h⟩ := bind_ok h
  obtain ⟨_, hcount, h⟩ := bind_ok h
  obtain ⟨⟨fieldId, field⟩, hfield, h⟩ := bind_ok h
  obtain ⟨op, hop, h⟩ := bind_ok h
  obtain ⟨v, hv, h⟩ := bind_ok h
  cases h
  exact ⟨⟨field, (ruleField_ok hfield).2, ruleOperator_ok hop, inDomain_of_normValue hv⟩, of_decide_eq_true (of_require hcount), rfl⟩

/-- The document of a valid rule is read as the rule. -/
theorem normRule_toDoc {printable : String → Bool} {fields : List (String × Field)} {c : Counter} {r : Rule} (h : r.Valid fields)
    (hcount : c.rules + 1 ≤ maxRules) :
    normRule printable fields
        [("kind", .str "rule"), ("field", .str r.field), ("operator", .str r.operator.id), ("value", r.value.toDoc)] c =
      .ok (r, { c with rules := c.rules + 1 }) := by
  obtain ⟨field, hfield, hop, hv⟩ := h
  have hkeys : onlyKeys "rule" ["kind", "field", "operator", "value"]
      [("kind", .str "rule"), ("field", .str r.field), ("operator", .str r.operator.id), ("value", r.value.toDoc)] = .ok () := onlyKeys_ok (by simp)
  simp [normRule, hkeys, hcount, Doc.field, Dict.get_cons, ruleField_str hfield, ruleOperator_id hop, normValue_toDoc hv]

/-! ## Groups -/

/-- How an entry that is a group is read, with room for `room` more levels. -/
def groupEntry (printable : String → Bool) (fields : List (String × Field)) : Nat → List (String × Doc) → Counter →
    Except FilterError (Node × Counter)
  | 0, _, _ => .error (.validation ("Groups can be nested " ++ toString maxDepth ++ " deep at most."))
  | room + 1, item, counter => do
    let counter := { counter with groups := counter.groups + 1 }
    require (decide (counter.groups ≤ maxGroups)) (.validation ("A filter can hold at most " ++ toString maxGroups ++ " groups."))
    let (tree, counter) ← normGroup printable fields room item counter
    return (.group tree.how tree.rules, counter)

/-- The entries of a group, with room for `room` more levels. -/
def normEntries (printable : String → Bool) (fields : List (String × Field)) (room : Nat) : List Doc → Counter →
    Except FilterError (List Node × Counter) :=
  normItems (normItem printable fields (groupEntry printable fields room))

theorem normGroup_eq (printable : String → Bool) (fields : List (String × Field)) (room : Nat) (body : List (String × Doc)) (c : Counter) :
    normGroup printable fields room body c = (do
      let how ← readMatch (fieldOr "match" (.str "all") body)
      let items ← readRules (fieldOr "rules" (.arr []) body)
      let (nodes, c) ← normEntries printable fields room items c
      return (⟨how, nodes⟩, c)) := by
  cases room with
  | zero => rfl
  | succ room => rfl

theorem normEntries_cons (printable : String → Bool) (fields : List (String × Field)) (room : Nat) (item : Doc) (items : List Doc) (c : Counter) :
    normEntries printable fields room (item :: items) c = (do
      let (node, c) ← normItem printable fields (groupEntry printable fields room) item c
      let (nodes, c) ← normEntries printable fields room items c
      return (node :: nodes, c)) := rfl

/-- What the entries of a group are when the validator answers them: the counters before them lead to the counters after them. -/
inductive Reads (fields : List (String × Field)) : Nat → List Node → Counter → Counter → Prop where
  | nil {room : Nat} {c : Counter} : Reads fields room [] c c
  | rule {room : Nat} {r : Rule} {nodes : List Node} {c c' : Counter} (hvalid : r.Valid fields) (hcount : c.rules + 1 ≤ maxRules)
    (h : Reads fields room nodes { c with rules := c.rules + 1 } c') : Reads fields room (.rule r :: nodes) c c'
  | group {room : Nat} {how : Match} {inner nodes : List Node} {c c₁ c' : Counter} (hcount : c.groups + 1 ≤ maxGroups)
    (hinner : Reads fields room inner { c with groups := c.groups + 1 } c₁) (h : Reads fields (room + 1) nodes c₁ c') :
    Reads fields (room + 1) (.group how inner :: nodes) c c'

/-- What is known of an entry that is answered. -/
theorem normItem_cases {printable : String → Bool} {fields : List (String × Field)} {room : Nat} {item : Doc} {c c₁ : Counter} {node : Node}
    (h : normItem printable fields (groupEntry printable fields room) item c = .ok (node, c₁)) :
    (∃ r, node = .rule r ∧ r.Valid fields ∧ c.rules + 1 ≤ maxRules ∧ c₁ = { c with rules := c.rules + 1 }) ∨
      ∃ room' body tree, room = room' + 1 ∧ node = .group tree.how tree.rules ∧ c.groups + 1 ≤ maxGroups ∧
        normGroup printable fields room' body { c with groups := c.groups + 1 } = .ok (tree, c₁) := by
  unfold normItem at h
  split at h
  · cases h
  · rename_i body _
    split at h
    · obtain ⟨⟨r, c'⟩, hrule, h⟩ := bind_ok h
      cases h
      exact .inl ⟨r, rfl, normRule_ok hrule⟩
    · split at h
      · obtain ⟨_, -, h⟩ := bind_ok h
        cases room with
        | zero => cases h
        | succ room =>
          obtain ⟨_, hcount, h⟩ := bind_ok h
          obtain ⟨⟨tree, c'⟩, htree, h⟩ := bind_ok h
          cases h
          exact .inr ⟨room, body, tree, rfl, rfl, of_decide_eq_true (of_require hcount), htree⟩
      · cases h

/-- A group that is answered has its entries read. -/
theorem normGroup_ok {printable : String → Bool} {fields : List (String × Field)} {room : Nat} {body : List (String × Doc)} {c c' : Counter}
    {tree : Tree} (h : normGroup printable fields room body c = .ok (tree, c')) :
    ∃ items, normEntries printable fields room items c = .ok (tree.rules, c') := by
  rw [normGroup_eq] at h
  obtain ⟨how, -, h⟩ := bind_ok h
  obtain ⟨items, -, h⟩ := bind_ok h
  obtain ⟨⟨nodes, c₁⟩, hnodes, h⟩ := bind_ok h
  cases h
  exact ⟨items, hnodes⟩

theorem reads_of_normEntries {printable : String → Bool} {fields : List (String × Field)} {room : Nat} {items : List Doc} {c c' : Counter}
    {nodes : List Node} (h : normEntries printable fields room items c = .ok (nodes, c')) : Reads fields room nodes c c' := by
  -- on the room for groups, then on the entries
  induction room using Nat.strong_induction_on generalizing items nodes c c' with
  | _ room ihroom =>
    induction items generalizing nodes c with
    | nil =>
      cases h
      exact .nil
    | cons item items ih =>
      rw [normEntries_cons] at h
      obtain ⟨⟨node, c₁⟩, hnode, h⟩ := bind_ok h
      obtain ⟨⟨rest, c₂⟩, hrest, h⟩ := bind_ok h
      cases h
      obtain ⟨r, rfl, hvalid, hcount, rfl⟩ | ⟨room', body, tree, rfl, rfl, hcount, htree⟩ := normItem_cases hnode
      · exact .rule hvalid hcount (ih hrest)
      · obtain ⟨inner, hinner⟩ := normGroup_ok htree
        exact .group hcount (ihroom room' (Nat.lt_succ_self room') hinner) (ih hrest)

theorem normGroup_toDocs {printable : String → Bool} {fields : List (String × Field)} {room : Nat} {body : List (String × Doc)} {c c' : Counter}
    {tree : Tree} (hhow : Dict.get "match" body = some (.str tree.how.word)) (hrules : Dict.get "rules" body = some (.arr (toDocs tree.rules)))
    (h : normEntries printable fields room (toDocs tree.rules) c = .ok (tree.rules, c')) :
    normGroup printable fields room body c = .ok (tree, c') := by
  have hword : readMatch (.str tree.how.word) = .ok tree.how := by cases tree.how <;> rfl
  simp [normGroup_eq, fieldOr, hhow, hrules, hword, readRules, Doc.items, h]

/-- The documents of entries that are read are read as the entries. -/
theorem normEntries_of_reads {printable : String → Bool} {fields : List (String × Field)} {room : Nat} {nodes : List Node} {c c' : Counter}
    (h : Reads fields room nodes c c') : normEntries printable fields room (toDocs nodes) c = .ok (nodes, c') := by
  induction h with
  | nil => rfl
  | @rule room r nodes c c' hvalid hcount _ ih =>
    rw [toDocs, Node.toDoc, normEntries_cons]
    have hitem : normItem printable fields (groupEntry printable fields room) r.toDoc c = .ok (.rule r, { c with rules := c.rules + 1 }) := by
      simp [normItem, Rule.toDoc, Doc.pairs, itemKind, Doc.field, Dict.get_cons, Doc.orElse, Doc.truthy, Doc.isText, normRule_toDoc hvalid hcount]
    simp [hitem, ih]
  | @group room how inner nodes c c₁ c' hcount _ _ ihinner ih =>
    rw [toDocs, normEntries_cons]
    have hkeys : onlyKeys "group" ["kind", "match", "rules"]
        [("kind", .str "group"), ("match", .str how.word), ("rules", .arr (toDocs inner))] = .ok () := onlyKeys_ok (by simp)
    have htree : normGroup printable fields room [("kind", .str "group"), ("match", .str how.word), ("rules", .arr (toDocs inner))]
        { c with groups := c.groups + 1 } = .ok (⟨how, inner⟩, c₁) := normGroup_toDocs rfl rfl ihinner
    have hitem : normItem printable fields (groupEntry printable fields (room + 1)) (Node.group how inner).toDoc c = .ok (.group how inner, c₁) := by
      simp [normItem, Node.toDoc, Doc.pairs, itemKind, Doc.field, Dict.get_cons, Doc.orElse, Doc.truthy, Doc.isText, hkeys, groupEntry, hcount, htree]
    simp [hitem, ih]

/-! ## The filter -/

/-- The document of a tree whose entries are read is answered with the tree. -/
theorem validate_toDoc {printable : String → Bool} {declared : List Field} {tree : Tree} {c : Counter} (h : Reads (index declared) maxDepth tree.rules ⟨0, 0⟩ c) :
    validateFilterSet printable declared tree.toDoc = .ok tree := by
  have hkeys : onlyKeys "filter" ["kind", "version", "match", "rules"]
      [("version", .num 1), ("match", .str tree.how.word), ("rules", .arr (toDocs tree.rules))] = .ok () := onlyKeys_ok (by simp)
  have htree : normGroup printable (index declared) maxDepth
      [("version", .num 1), ("match", .str tree.how.word), ("rules", .arr (toDocs tree.rules))] ⟨0, 0⟩ = .ok (tree, c) :=
    normGroup_toDocs rfl rfl (normEntries_of_reads h)
  simp [validateFilterSet, Tree.toDoc, Doc.pairs, hkeys, fieldOr, Dict.get_cons, Doc.isText, isVersionOne, htree]

/-- What is answered was read. -/
theorem reads_of_validate {printable : String → Bool} {declared : List Field} {raw : Doc} {tree : Tree} (h : validateFilterSet printable declared raw = .ok tree) :
    ∃ c, Reads (index declared) maxDepth tree.rules ⟨0, 0⟩ c := by
  unfold validateFilterSet at h
  split at h
  · cases h
  · obtain ⟨_, -, h⟩ := bind_ok h
    obtain ⟨_, -, h⟩ := bind_ok h
    obtain ⟨_, -, h⟩ := bind_ok h
    obtain ⟨⟨tree', c⟩, htree, h⟩ := bind_ok h
    cases h
    obtain ⟨items, hitems⟩ := normGroup_ok htree
    exact ⟨c, reads_of_normEntries hitems⟩

end FilterSets

end TecTac
