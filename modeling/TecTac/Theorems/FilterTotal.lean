import TecTac.Lemmas.FilterSets

/-!
# The validator answers or refuses

For every document the validator of filter sets answers a tree within the limits, with valid rules, that it reads back unchanged, or
raises an error of filter sets; and it does so exactly when it does not come to a rule on an id whose text is made of digits that are
not all decimal digits. `str.isdigit` lets such a text through, and `int` raises a plain `ValueError` on it.
-/

namespace TecTac

namespace FilterSets

open Raise

/-! ## What an answer is -/

mutual

/-- The rules of an entry. -/
def Node.rules : Node → List Rule
  | .rule r => [r]
  | .group _ nodes => allRules nodes

/-- The rules of the entries, those of their groups included. -/
def allRules : List Node → List Rule
  | [] => []
  | node :: nodes => node.rules ++ allRules nodes

end

mutual

/-- The groups of an entry, itself included. -/
def Node.groups : Node → Nat
  | .rule _ => 0
  | .group _ nodes => groupCount nodes + 1

/-- The groups of the entries, those inside them included. -/
def groupCount : List Node → Nat
  | [] => 0
  | node :: nodes => node.groups + groupCount nodes

end

mutual

/-- The levels of groups of an entry. -/
def Node.depth : Node → Nat
  | .rule _ => 0
  | .group _ nodes => depth nodes + 1

/-- The levels of groups of the entries. -/
def depth : List Node → Nat
  | [] => 0
  | node :: nodes => max node.depth (depth nodes)

end

/-- A tree within the limits, each rule of which names a declared field, an operator that its kind offers and a value of its domain. -/
structure Tree.WellFormed (fields : List Field) (tree : Tree) : Prop where
  rules : (allRules tree.rules).length ≤ maxRules
  groups : groupCount tree.rules ≤ maxGroups
  depth : depth tree.rules ≤ maxDepth
  valid : ∀ r ∈ allRules tree.rules, ∃ field ∈ fields, field.id = r.field ∧ r.operator ∈ operatorsFor field.kind ∧
    InDomain field.kind r.operator r.value

/-- The validator raises an error of filter sets, or answers a well-formed tree that it answers again for the document of the tree. -/
def Settles (printable : String → Bool) (fields : List Field) (raw : Doc) : Prop :=
  (∃ e, validateFilterSet printable fields raw = .error e ∧ e.isFilterSetError = true) ∨
    ∃ tree, validateFilterSet printable fields raw = .ok tree ∧ tree.WellFormed fields ∧
      validateFilterSet printable fields tree.toDoc = .ok tree

/-! ## The texts that `int` refuses -/

/-- A text that passes `isdigit` with at most 19 characters, one of which is no decimal digit. -/
def OddDigits (s : String) : Prop := isDigitText s = true ∧ ∃ c ∈ strip s.toList, decimalDigit c = none

/-- A rule that compares an id with such a text, and that passes every check up to its value. -/
structure OddRule (fields : List (String × Field)) (item : List (String × Doc)) (c : Counter) : Prop where
  kind : (itemKind item).isText "rule" = true
  keys : unknownKeys ["kind", "field", "operator", "value"] item = []
  count : c.rules + 1 ≤ maxRules
  value : ∃ s field nameLookup nameKey op text, Doc.field "field" item = .str s ∧ Dict.get s fields = some field ∧
    field.kind = .id nameLookup nameKey ∧ Doc.field "operator" item = .str op.id ∧ op ∈ Operator.forId ∧ Doc.field "value" item = .str text ∧
    OddDigits text

/-- The entries hold such a rule, and everything that is read before it is accepted. -/
inductive MeetsOddRule (printable : String → Bool) (fields : List (String × Field)) : Nat → List Doc → Counter → Prop where
  | rule {room : Nat} {item : List (String × Doc)} {items : List Doc} {c : Counter} (h : OddRule fields item c) :
    MeetsOddRule printable fields room (.obj item :: items) c
  | group {room : Nat} {item : List (String × Doc)} {items inner : List Doc} {c : Counter} {how : Match}
    (hkind : (itemKind item).isText "group" = true) (hkeys : unknownKeys ["kind", "match", "rules"] item = [])
    (hcount : c.groups + 1 ≤ maxGroups) (hhow : readMatch (fieldOr "match" (.str "all") item) = .ok how)
    (hrules : readRules (fieldOr "rules" (.arr []) item) = .ok inner)
    (h : MeetsOddRule printable fields room inner { c with groups := c.groups + 1 }) :
    MeetsOddRule printable fields (room + 1) (.obj item :: items) c
  | later {room : Nat} {item : Doc} {items : List Doc} {c c₁ : Counter} {node : Node}
    (hitem : normItem printable fields (groupEntry printable fields room) item c = .ok (node, c₁))
    (h : MeetsOddRule printable fields room items c₁) : MeetsOddRule printable fields room (item :: items) c

/-- The filter is read down to such a rule. -/
def ReachesOddRule (printable : String → Bool) (fields : List Field) (raw : Doc) : Prop :=
  ∃ body how items, raw = .obj body ∧ unknownKeys ["kind", "version", "match", "rules"] body = [] ∧
    (fieldOr "kind" (.str "filter_set") body).isText "filter_set" = true ∧ isVersionOne (fieldOr "version" (.num 1) body) = true ∧
    readMatch (fieldOr "match" (.str "all") body) = .ok how ∧ readRules (fieldOr "rules" (.arr []) body) = .ok items ∧
    MeetsOddRule printable (index fields) maxDepth items ⟨0, 0⟩

namespace FilterTotalAux

variable {printable : String → Bool} {fields : List (String × Field)}

/-! ## Counting -/

theorem reads_counts {room : Nat} {nodes : List Node} {c c' : Counter} (h : Reads fields room nodes c c') :
    c'.rules = c.rules + (allRules nodes).length ∧ c'.groups = c.groups + groupCount nodes := by
  induction h with
  | nil => simp [allRules, groupCount]
  | rule _ _ _ ih => simp [allRules, groupCount, Node.rules, Node.groups, ih]; omega
  | group _ _ _ ihinner ih => simp [allRules, groupCount, Node.rules, Node.groups, ih, ihinner]; omega

theorem reads_le {room : Nat} {nodes : List Node} {c c' : Counter} (h : Reads fields room nodes c c') (hrules : c.rules ≤ maxRules)
    (hgroups : c.groups ≤ maxGroups) : c'.rules ≤ maxRules ∧ c'.groups ≤ maxGroups := by
  induction h with
  | nil => exact ⟨hrules, hgroups⟩
  | rule _ hcount _ ih => exact ih hcount hgroups
  | group hcount _ _ ihinner ih =>
    obtain ⟨hrules, hgroups⟩ := ihinner hrules hcount
    exact ih hrules hgroups

theorem reads_depth {room : Nat} {nodes : List Node} {c c' : Counter} (h : Reads fields room nodes c c') : depth nodes ≤ room := by
  induction h with
  | nil => simp [depth]
  | rule _ _ _ ih => simpa [depth, Node.depth] using ih
  | group _ _ _ ihinner ih => simp [depth, Node.depth]; omega

theorem reads_valid {room : Nat} {nodes : List Node} {c c' : Counter} (h : Reads fields room nodes c c') :
    ∀ r ∈ allRules nodes, r.Valid fields := by
  induction h with
  | nil => simp [allRules]
  | rule hvalid _ _ ih =>
    intro r hr
    rcases List.mem_append.1 hr with hr | hr
    · cases List.mem_singleton.1 hr
      exact hvalid
    · exact ih r hr
  | group _ _ _ ihinner ih =>
    intro r hr
    rcases List.mem_append.1 hr with hr | hr
    · exact ihinner r hr
    · exact ih r hr

/-- A tree whose entries are read from empty counters is well formed. -/
theorem wellFormed_of_reads {declared : List Field} {tree : Tree} {c : Counter} (h : Reads (index declared) maxDepth tree.rules ⟨0, 0⟩ c) :
    tree.WellFormed declared := by
  obtain ⟨hrules, hgroups⟩ := reads_counts h
  obtain ⟨hrules', hgroups'⟩ := reads_le h (Nat.zero_le _) (Nat.zero_le _)
  refine ⟨by omega, by omega, reads_depth h, ?_⟩
  intro r hr
  obtain ⟨field, hget, hop, hvalue⟩ := reads_valid h r hr
  exact ⟨field, mem_of_mem_cleanFields (get_index hget).1, (get_index hget).2, hop, hvalue⟩

/-! ## What is raised -/

/-- Only errors of filter sets are raised. -/
abbrev Refuses {α : Type} (x : Except FilterError α) : Prop := Raise.RaisesOnly (fun e => e.isFilterSetError = true) x

theorem refuses_require (c : Bool) (text : String) : Refuses (require c (.validation text)) := raisesOnly_require rfl

theorem refuses_error {α : Type} (text : String) : Refuses (.error (.validation text) : Except FilterError α) := raisesOnly_error rfl

theorem refuses_plainText (label : String) (maximum : Nat) (doc : Doc) : Refuses (plainText label maximum doc) := by
  cases doc with
  | str s =>
    exact (refuses_require _ _).bind fun _ => (refuses_require _ _).bind fun _ =>
      (refuses_require _ _).bind fun _ => raisesOnly_pure _
  | _ => exact refuses_error _

theorem refuses_normDay (label : String) (doc : Doc) : Refuses (normDay label doc) := by
  cases doc with
  | str s =>
    simp only [normDay]
    cases dateParts s with
    | none => exact refuses_error _
    | some parts =>
      exact (refuses_require _ _).bind fun _ => (refuses_require _ _).bind fun _ => raisesOnly_pure _
  | _ => exact refuses_error _

theorem refuses_exactKeys (label : String) (keys : List String) (doc : Doc) : Refuses (exactKeys label keys doc) := by
  unfold exactKeys
  split
  · exact refuses_error _
  · exact (refuses_require _ _).bind fun _ => raisesOnly_pure _

theorem refuses_unitOf (label : String) (doc : Doc) : Refuses (unitOf label doc) := by
  unfold unitOf
  split
  · split
    · exact raisesOnly_ok _
    · exact refuses_error _
  · exact refuses_error _

theorem refuses_amountOf (label : String) (unit : TimeUnit) (doc : Doc) : Refuses (amountOf label unit doc) := by
  unfold amountOf
  split
  · split
    · exact raisesOnly_ok _
    · exact refuses_error _
  · exact refuses_error _

theorem refuses_normDateValue (field : Field) (op : Operator) (doc : Doc) : Refuses (normDateValue field op doc) := by
  unfold normDateValue
  simp only
  split
  · exact (refuses_exactKeys _ _ _).bind fun body => (refuses_unitOf _ _).bind fun unit => (refuses_amountOf _ _ _).bind fun _ =>
      raisesOnly_pure _
  · split
    · exact (refuses_exactKeys _ _ _).bind fun body => (refuses_normDay _ _).bind fun _ => (refuses_normDay _ _).bind fun _ =>
        (refuses_require _ _).bind fun _ => raisesOnly_pure _
    · exact (refuses_normDay _ _).bind fun _ => raisesOnly_pure _

theorem refuses_readNumber (integer : Bool) (label : String) (doc : Doc) : Refuses (readNumber integer label doc) := by
  cases doc with
  | num n => exact raisesOnly_ok _
  | float x =>
    simp only [readNumber]
    split
    · split
      · exact raisesOnly_ok _
      · exact refuses_error _
    · exact raisesOnly_ok _
  | _ => exact refuses_error _

theorem refuses_normNumber (field : Field) (integer : Bool) (minimum maximum : Option Num) (label : String) (doc : Doc) :
    Refuses (normNumber field integer minimum maximum label doc) :=
  (refuses_readNumber _ _ _).bind fun _ => (refuses_require _ _).bind fun _ => (refuses_require _ _).bind fun _ =>
    raisesOnly_pure _

theorem refuses_normNumberValue (field : Field) (integer : Bool) (minimum maximum : Option Num) (op : Operator) (doc : Doc) :
    Refuses (normNumberValue field integer minimum maximum op doc) := by
  unfold normNumberValue
  simp only
  split
  · exact (refuses_exactKeys _ _ _).bind fun body => (refuses_normNumber _ _ _ _ _ _).bind fun _ => (refuses_normNumber _ _ _ _ _ _).bind fun _ =>
      (refuses_require _ _).bind fun _ => raisesOnly_pure _
  · exact (refuses_normNumber _ _ _ _ _ _).bind fun _ => raisesOnly_pure _

theorem refuses_normBool (field : Field) (doc : Doc) : Refuses (normBool field doc) := by
  cases doc with
  | bool b => exact raisesOnly_ok _
  | str s =>
    simp only [normBool]
    split
    · exact raisesOnly_ok _
    · split
      · exact raisesOnly_ok _
      · exact refuses_error _
  | _ => exact refuses_error _

theorem refuses_normText (field : Field) (doc : Doc) : Refuses (normText field doc) :=
  (refuses_plainText _ _ _).bind fun _ => raisesOnly_pure _

theorem refuses_onlyKeys (what : String) (allowed : List String) (item : List (String × Doc)) : Refuses (onlyKeys what allowed item) :=
  refuses_require _ _

theorem refuses_ruleField (printable : String → Bool) (fields : List (String × Field)) (doc : Doc) : Refuses (ruleField printable fields doc) := by
  unfold ruleField
  split
  · split
    · exact raisesOnly_ok _
    · exact raisesOnly_error rfl
  · exact raisesOnly_error rfl

theorem refuses_ruleOperator (field : Field) (doc : Doc) : Refuses (ruleOperator field doc) := by
  unfold ruleOperator
  split
  · split
    · split
      · exact raisesOnly_ok _
      · exact refuses_error _
    · exact refuses_error _
  · exact refuses_error _

theorem refuses_readMatch (doc : Doc) : Refuses (readMatch doc) := by
  unfold readMatch
  split
  · exact raisesOnly_ok _
  · split
    · exact raisesOnly_ok _
    · exact refuses_error _

theorem refuses_readRules (doc : Doc) : Refuses (readRules doc) := by
  unfold readRules
  split
  · exact raisesOnly_ok _
  · exact refuses_error _

/-- A sequence whose first part only refuses raises a plain error when the rest does. -/
theorem bind_valueError_iff {α β : Type} {x : Except FilterError α} {f : α → Except FilterError β} (hx : Refuses x) :
    (x >>= f) = .error .valueError ↔ ∃ a, x = .ok a ∧ f a = .error .valueError := by
  rw [bind_error_iff]
  constructor
  · rintro (h | h)
    · exact absurd (hx _ h) (by decide)
    · exact h
  · exact .inr

theorem ne_valueError {α : Type} {x : Except FilterError α} (hx : Refuses x) : x ≠ .error .valueError :=
  fun h => absurd (hx _ h) (by decide)

theorem mapM_none_iff {f : Char → Option Nat} {s : List Char} : s.mapM f = none ↔ ∃ c ∈ s, f c = none := by
  induction s with
  | nil => simp
  | cons c s ih =>
    rw [List.mapM_cons]
    cases hc : f c with
    | none => simp [hc]
    | some n =>
      cases hs : s.mapM f with
      | none => simpa [hc] using ih.1 hs
      | some ns =>
        have hno : ¬ ∃ c ∈ s, f c = none := fun h => nomatch hs.symm.trans (ih.2 h)
        simpa [hc] using hno

theorem idNumber_valueError_iff {doc : Doc} : idNumber doc = .error .valueError ↔ ∃ text, doc = .str text ∧ OddDigits text := by
  cases doc with
  | str s =>
    simp only [idNumber, Doc.str.injEq, exists_eq_left']
    unfold OddDigits
    split
    · rename_i hdigits
      rw [← mapM_none_iff]
      unfold intOfDigits
      cases (strip s.toList).mapM decimalDigit with
      | none => simp [hdigits]
      | some ns => simp
    · rename_i hdigits
      simp [hdigits]
  | _ => simp [idNumber]

theorem normId_valueError_iff {field : Field} {doc : Doc} :
    normId field doc = .error .valueError ↔ ∃ text, doc = .str text ∧ OddDigits text := by
  unfold normId
  rw [bind_error_iff, idNumber_valueError_iff]
  constructor
  · rintro (h | ⟨number, -, h⟩)
    · exact h
    · cases number with
      | none => cases h
      | some n => exact absurd h (ne_valueError ((refuses_require _ _).bind fun _ => raisesOnly_pure _))
  · exact .inl

/-- A value raises a plain error exactly when it is a text of such digits for an id. -/
theorem normValue_valueError_iff {field : Field} {op : Operator} {doc : Doc} :
    normValue field op doc = .error .valueError ↔
      ∃ nameLookup nameKey text, field.kind = .id nameLookup nameKey ∧ op ∈ Operator.forId ∧ doc = .str text ∧ OddDigits text := by
  unfold normValue
  cases hkind : field.kind with
  | date storedAs => simp [ne_valueError (refuses_normDateValue field op doc)]
  | number integer minimum maximum => simp [ne_valueError (refuses_normNumberValue field integer minimum maximum op doc)]
  | bool => simp [ne_valueError (refuses_normBool field doc)]
  | text => simp [ne_valueError (refuses_normText field doc)]
  | id nameLookup nameKey =>
    simp only
    split
    · rename_i hop
      rw [normId_valueError_iff]
      simp [hop]
    · rename_i hop
      simp [hop, ne_valueError (refuses_normText field doc)]

theorem onlyKeys_iff {what : String} {allowed : List String} {item : List (String × Doc)} :
    onlyKeys what allowed item = .ok () ↔ unknownKeys allowed item = [] := by
  constructor
  · intro h
    exact List.isEmpty_iff.1 (of_require h)
  · intro h
    unfold onlyKeys
    rw [h]
    rfl

theorem ruleOperator_str {field : Field} {doc : Doc} {op : Operator} (h : ruleOperator field doc = .ok op) : doc = .str op.id := by
  unfold ruleOperator at h
  split at h
  · split at h
    · rename_i s op' hop
      split at h
      · cases h
        have hword := List.find?_some hop
        rw [eq_of_beq hword]
      · cases h
    · cases h
  · cases h

theorem mem_operatorsFor_id {nameLookup nameKey : Option String} {op : Operator} (h : op ∈ Operator.forId) :
    op ∈ operatorsFor (.id nameLookup nameKey) := by
  simp only [operatorsFor]
  split
  · exact List.mem_append_left _ h
  · exact h

theorem normRule_valueError_iff {item : List (String × Doc)} {c : Counter} (hkind : (itemKind item).isText "rule" = true) :
    normRule printable fields item c = .error .valueError ↔ OddRule fields item c := by
  unfold normRule
  rw [bind_valueError_iff (refuses_onlyKeys _ _ _)]
  constructor
  · rintro ⟨_, hkeys, h⟩
    obtain ⟨_, hcount, h⟩ := (bind_valueError_iff (refuses_require _ _)).1 h
    obtain ⟨⟨s, field⟩, hfield, h⟩ := (bind_valueError_iff (refuses_ruleField _ _ _)).1 h
    obtain ⟨op, hop, h⟩ := (bind_valueError_iff (refuses_ruleOperator _ _)).1 h
    rcases bind_error_iff.1 h with h | ⟨v, -, h⟩
    · obtain ⟨nameLookup, nameKey, text, hid, hforId, hvalue, hodd⟩ := normValue_valueError_iff.1 h
      exact ⟨hkind, onlyKeys_iff.1 hkeys, of_decide_eq_true (of_require hcount), s, field, nameLookup, nameKey, op, text,
        (ruleField_ok hfield).1, (ruleField_ok hfield).2, hid, ruleOperator_str hop, hforId, hvalue, hodd⟩
    · cases h
  · rintro ⟨-, hkeys, hcount, s, field, nameLookup, nameKey, op, text, hfield, hget, hid, hop, hforId, hvalue, hodd⟩
    have hoffered : op ∈ operatorsFor field.kind := hid ▸ mem_operatorsFor_id hforId
    have hnorm : normValue field op (.str text) = .error .valueError :=
      normValue_valueError_iff.2 ⟨nameLookup, nameKey, text, hid, hforId, rfl, hodd⟩
    refine ⟨(), onlyKeys_iff.2 hkeys, ?_⟩
    simp [hcount, hfield, ruleField_str hget, hop, ruleOperator_id hoffered, hvalue, hnorm]

/-- An entry raises a plain error when it is such a rule, or a group that does. -/
theorem normItem_valueError_iff {room : Nat} {item : Doc} {c : Counter} :
    normItem printable fields (groupEntry printable fields room) item c = .error .valueError ↔
      (∃ body, item = .obj body ∧ OddRule fields body c) ∨
        ∃ room' body how inner, room = room' + 1 ∧ item = .obj body ∧ (itemKind body).isText "group" = true ∧
          unknownKeys ["kind", "match", "rules"] body = [] ∧ c.groups + 1 ≤ maxGroups ∧
          readMatch (fieldOr "match" (.str "all") body) = .ok how ∧ readRules (fieldOr "rules" (.arr []) body) = .ok inner ∧
          normEntries printable fields room' inner { c with groups := c.groups + 1 } = .error .valueError := by
  cases item with
  | obj body =>
    simp only [normItem, Doc.pairs]
    split
    · rename_i hrule
      have hgroup : (itemKind body).isText "group" = false := by
        cases hk : itemKind body with
        | str s =>
          rw [hk] at hrule
          rw [eq_of_beq hrule]
          rfl
        | _ => rfl
      rw [bind_error_iff, normRule_valueError_iff hrule]
      constructor
      · rintro (h | ⟨⟨r, c₁⟩, -, h⟩)
        · exact .inl ⟨body, rfl, h⟩
        · cases h
      · rintro (⟨_, heq, h⟩ | ⟨_, _, _, _, _, heq, hkind, _⟩)
        · cases heq
          exact .inl h
        · cases heq
          exact absurd (hgroup.symm.trans hkind) (by decide)
    · rename_i hrule
      split
      · rename_i hgroup
        rw [bind_valueError_iff (refuses_onlyKeys _ _ _)]
        constructor
        · rintro ⟨_, hkeys, h⟩
          cases room with
          | zero => exact absurd h (ne_valueError (refuses_error _))
          | succ room =>
            obtain ⟨_, hcount, h⟩ := (bind_valueError_iff (refuses_require _ _)).1 h
            rcases bind_error_iff.1 h with h | ⟨_, -, h⟩
            · rw [normGroup_eq] at h
              obtain ⟨how, hhow, h⟩ := (bind_valueError_iff (refuses_readMatch _)).1 h
              obtain ⟨inner, hinner, h⟩ := (bind_valueError_iff (refuses_readRules _)).1 h
              rcases bind_error_iff.1 h with h | ⟨_, -, h⟩
              · exact .inr ⟨room, body, how, inner, rfl, rfl, hgroup, onlyKeys_iff.1 hkeys, of_decide_eq_true (of_require hcount), hhow, hinner, h⟩
              · cases h
            · cases h
        · rintro (⟨_, heq, h⟩ | ⟨room', _, how, inner, rfl, heq, -, hkeys, hcount, hhow, hinner, h⟩)
          · cases heq
            exact absurd h.kind hrule
          · cases heq
            refine ⟨(), onlyKeys_iff.2 hkeys, ?_⟩
            simp [groupEntry, hcount, normGroup_eq, hhow, hinner, h]
      · rename_i hgroup
        constructor
        · intro h
          cases h
        · rintro (⟨_, heq, h⟩ | ⟨_, _, _, _, _, heq, hkind, _⟩)
          · cases heq
            exact absurd h.kind hrule
          · cases heq
            exact absurd hkind hgroup
  | _ => simp [normItem, Doc.pairs]

/-- The entries raise a plain error exactly when the reading comes to such a rule. -/
theorem normEntries_valueError_iff {room : Nat} {items : List Doc} {c : Counter} :
    normEntries printable fields room items c = .error .valueError ↔ MeetsOddRule printable fields room items c := by
  constructor
  · intro h
    induction room using Nat.strong_induction_on generalizing items c with
    | _ room ihroom =>
      induction items generalizing c with
      | nil => cases h
      | cons item items ih =>
        rw [normEntries_cons] at h
        rcases bind_error_iff.1 h with h | ⟨⟨node, c₁⟩, hnode, h⟩
        · obtain ⟨body, rfl, hodd⟩ | ⟨room', body, how, inner, rfl, rfl, hkind, hkeys, hcount, hhow, hinner, h⟩ := normItem_valueError_iff.1 h
          · exact .rule hodd
          · exact .group hkind hkeys hcount hhow hinner (ihroom room' (Nat.lt_succ_self room') h)
        · rcases bind_error_iff.1 h with h | ⟨_, -, h⟩
          · exact .later hnode (ih h)
          · cases h
  · intro h
    induction h with
    | rule h =>
      rw [normEntries_cons, normItem_valueError_iff.2 (.inl ⟨_, rfl, h⟩)]
      rfl
    | group hkind hkeys hcount hhow hrules _ ih =>
      rw [normEntries_cons, normItem_valueError_iff.2 (.inr ⟨_, _, _, _, rfl, rfl, hkind, hkeys, hcount, hhow, hrules, ih⟩)]
      rfl
    | later hitem _ ih =>
      rw [normEntries_cons, hitem, ok_bind]
      simp only [ih, error_bind]

theorem validate_valueError_iff {declared : List Field} {raw : Doc} :
    validateFilterSet printable declared raw = .error .valueError ↔ ReachesOddRule printable declared raw := by
  unfold ReachesOddRule
  cases raw with
  | obj body =>
    simp only [validateFilterSet, Doc.pairs]
    rw [bind_valueError_iff (refuses_onlyKeys _ _ _)]
    constructor
    · rintro ⟨_, hkeys, h⟩
      obtain ⟨_, hkind, h⟩ := (bind_valueError_iff (refuses_require _ _)).1 h
      obtain ⟨_, hversion, h⟩ := (bind_valueError_iff (refuses_require _ _)).1 h
      rcases bind_error_iff.1 h with h | ⟨_, -, h⟩
      · rw [normGroup_eq] at h
        obtain ⟨how, hhow, h⟩ := (bind_valueError_iff (refuses_readMatch _)).1 h
        obtain ⟨items, hitems, h⟩ := (bind_valueError_iff (refuses_readRules _)).1 h
        rcases bind_error_iff.1 h with h | ⟨_, -, h⟩
        · exact ⟨body, how, items, rfl, onlyKeys_iff.1 hkeys, of_require hkind, of_require hversion, hhow, hitems,
            normEntries_valueError_iff.1 h⟩
        · cases h
      · cases h
    · rintro ⟨_, how, items, heq, hkeys, hkind, hversion, hhow, hitems, h⟩
      cases heq
      refine ⟨(), onlyKeys_iff.2 hkeys, ?_⟩
      rw [hkind, hversion, require_true, ok_bind, require_true, ok_bind, normGroup_eq, hhow, ok_bind, hitems,
        ok_bind, normEntries_valueError_iff.2 h]
      rfl
  | _ => simp [validateFilterSet, Doc.pairs]

end FilterTotalAux

open FilterTotalAux in
/-- The validator of filter sets is total and canonical, for every document and every list of declared fields, exactly when its
reading of the document does not come to a rule on an id whose text is made of digits that are not all decimal digits. -/
theorem validate_settles_iff (printable : String → Bool) (fields : List Field) (raw : Doc) :
    Settles printable fields raw ↔ ¬ ReachesOddRule printable fields raw := by
  rw [← validate_valueError_iff]
  constructor
  · rintro (⟨e, he, hfilter⟩ | ⟨tree, htree, _⟩) h
    · cases he.symm.trans h
      exact absurd hfilter (by decide)
    · cases htree.symm.trans h
  · intro h
    cases hresult : validateFilterSet printable fields raw with
    | ok tree =>
      obtain ⟨c, hreads⟩ := reads_of_validate hresult
      exact .inr ⟨tree, hresult, wellFormed_of_reads hreads, validate_toDoc hreads⟩
    | error e =>
      refine .inl ⟨e, hresult, ?_⟩
      cases e with
      | valueError => exact absurd hresult h
      | _ => rfl

/-! ## A superscript two -/

/-- A field on the id of a client. -/
def clientField : Field := ⟨"client", "Client", .id none none, some "client_id", some "client_id"⟩

/-- A filter for the clients with an id. -/
def clientFilter (id : Doc) : Doc :=
  .obj [("match", .str "all"), ("rules", .arr [.obj [("field", .str "client"), ("operator", .str "equals"), ("value", id)]])]

/-- The text `²` is a digit for `isdigit` and none for `int`: the validator raises a plain `ValueError`. -/
theorem superscript_escapes : ¬ Settles (fun _ => true) [clientField] (clientFilter (.str "²")) := by
  have hraised : validateFilterSet (fun _ => true) [clientField] (clientFilter (.str "²")) = .error .valueError := rfl
  rintro (⟨e, he, hfilter⟩ | ⟨tree, htree, _⟩)
  · cases he.symm.trans hraised
    exact absurd hfilter (by decide)
  · cases htree.symm.trans hraised

end FilterSets

end TecTac
