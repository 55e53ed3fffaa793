import TecTac.OperationRecord

/-!
# Secrets stay out of the row

Two calls that differ only in the values of secret fields and of masked keys write the same before and after values, as long as the same of them were changed.
What a mask leaves of a value depends on its visible part only, and every other part of the row is read from fields that are neither secret nor masked.
-/

namespace TecTac

namespace OperationRecord

/-- Masked values that a row may not tell apart: both null, lists whose items have the same visible parts, or both anything else. -/
def ValueAlike (v v' : JsonValue) : Prop :=
  v = .null ∧ v' = .null ∨ (∃ items items', v = .list items ∧ v' = .list items' ∧ items.map visible = items'.map visible) ∨
    (v ≠ .null ∧ ∀ items, v ≠ .list items) ∧ v' ≠ .null ∧ ∀ items, v' ≠ .list items

/-- Objects of a masked list that differ in values of masked keys only. -/
def FieldsAlike (masks : List (String × MaskMode)) (item item' : Fields) : Prop :=
  List.Forall₂ (fun f f' => f.1 = f'.1 ∧ (f.2 = f'.2 ∨ (Dict.get f.1 masks).isSome = true ∧ ValueAlike f.2 f'.2)) item item'

def ItemAlike (masks : List (String × MaskMode)) (v v' : JsonValue) : Prop :=
  v = v' ∨ ∃ item item', v = .dict item ∧ v' = .dict item' ∧ FieldsAlike masks item item'

def ListAlike (masks : List (String × MaskMode)) (v v' : JsonValue) : Prop :=
  v = v' ∨ ∃ items items', v = .list items ∧ v' = .list items' ∧ List.Forall₂ (ItemAlike masks) items items'

/-- Objects with the same fields, whose values differ in secret fields and under masked keys only. -/
def DataAlike (op : Declared) (data data' : Fields) : Prop :=
  ∀ name, Dict.get name data = none ∧ Dict.get name data' = none ∨ ∃ v v', Dict.get name data = some v ∧ Dict.get name data' = some v' ∧
    (v = v' ∨ name ∈ op.secretFields ∨ name ∈ op.listMasks.map Prod.fst ∧ ListAlike (masksFor op name) v v')

def ReadAlike (op : Declared) (read read' : Option Fields) : Prop :=
  read = none ∧ read' = none ∨ ∃ data data', read = some data ∧ read' = some data' ∧ DataAlike op data data'

/-- The same secret fields and masked lists were changed. -/
def SameChanges {δ : Type} (op : Declared) (digest : JsonValue → δ) (body body' : Fields) (read read' : Option Fields) : Prop :=
  ∀ name, name ∈ op.secretFields ∨ name ∈ op.listMasks.map Prod.fst → ∀ sent sent' stored stored', Dict.get name body = some sent →
    Dict.get name body' = some sent' → read.bind (Dict.get name) = some stored → read'.bind (Dict.get name) = some stored' →
      (digest stored = digest sent ↔ digest stored' = digest sent')

namespace SecretsUnseenAux

theorem maskValue_hidden {mode : MaskMode} {v : JsonValue} (hnull : v ≠ .null) (hlist : ∀ items, v ≠ .list items) : maskValue mode v = (.str "***", false) := by
  cases v with
  | null => exact absurd rfl hnull
  | list items => exact absurd rfl (hlist items)
  | _ => rfl

theorem maskValue_congr {mode : MaskMode} {v v' : JsonValue} (h : ValueAlike v v') : maskValue mode v = maskValue mode v' := by
  rcases h with ⟨rfl, rfl⟩ | ⟨items, items', rfl, rfl, hvisible⟩ | ⟨⟨hnull, hlist⟩, hnull', hlist'⟩
  · rfl
  · have hitems : ∀ l : List JsonValue,
        ((l.take 100).map fun item => JsonValue.str (maskItem mode item)) = ((l.map visible).take 100).map fun part => JsonValue.str (maskPart mode part) := by
      intro l
      rw [← List.map_take, List.map_map]
      rfl
    have hlength := congrArg List.length hvisible
    rw [List.length_map, List.length_map] at hlength
    rw [maskValue, maskValue, hitems, hitems, hvisible, hlength]
  · rw [maskValue_hidden hnull hlist, maskValue_hidden hnull' hlist']

theorem addField_congr {masks : List (String × MaskMode)} {e : Entry} {f f' : String × JsonValue}
    (h : f.1 = f'.1 ∧ (f.2 = f'.2 ∨ (Dict.get f.1 masks).isSome = true ∧ ValueAlike f.2 f'.2)) : addField masks e f = addField masks e f' := by
  obtain ⟨key, value⟩ := f
  obtain ⟨key', value'⟩ := f'
  obtain ⟨rfl, heq | ⟨hmasked, halike⟩⟩ := h
  · rw [show value = value' from heq]
  · have hsame : masked masks key value = masked masks key value' := by
      unfold masked
      obtain ⟨mode, hmode⟩ := Option.isSome_iff_exists.1 hmasked
      rw [show Dict.get key masks = some mode from hmode]
      exact maskValue_congr halike
    unfold addField
    dsimp only
    rw [hsame]

theorem listEntry_congr {masks : List (String × MaskMode)} {item item' : Fields} (h : FieldsAlike masks item item') :
    listEntry masks item = listEntry masks item' := by
  unfold listEntry
  generalize (⟨[], 0, false⟩ : Entry) = e
  induction h generalizing e with
  | nil => rfl
  | cons hfield _ ih =>
    rw [List.foldl_cons, List.foldl_cons, addField_congr hfield]
    exact ih _

theorem keepEntries_congr {masks : List (String × MaskMode)} {items items' : List Fields} (h : List.Forall₂ (FieldsAlike masks) items items') (used : Nat) :
    keepEntries masks items used = keepEntries masks items' used := by
  induction h generalizing used with
  | nil => rfl
  | cons hitem _ ih =>
    unfold keepEntries
    dsimp only
    rw [listEntry_congr hitem, ih]

theorem fieldsAlike_refl (masks : List (String × MaskMode)) (item : Fields) : FieldsAlike masks item item := List.forall₂_same.2 fun _ _ => ⟨rfl, Or.inl rfl⟩

/-- The objects of two alike lists: none for both, or objects that are alike. -/
theorem asDict_congr {masks : List (String × MaskMode)} {items items' : List JsonValue} (h : List.Forall₂ (ItemAlike masks) items items') :
    items.mapM asDict = none ∧ items'.mapM asDict = none ∨
      ∃ dicts dicts', items.mapM asDict = some dicts ∧ items'.mapM asDict = some dicts' ∧ List.Forall₂ (FieldsAlike masks) dicts dicts' := by
  induction h with
  | nil => exact Or.inr ⟨[], [], rfl, rfl, .nil⟩
  | @cons v v' items items' hitem _ ih =>
    have hone : asDict v = none ∧ asDict v' = none ∨ ∃ item item', asDict v = some item ∧ asDict v' = some item' ∧ FieldsAlike masks item item' := by
      rcases hitem with rfl | ⟨item, item', rfl, rfl, halike⟩
      · cases hv : asDict v with
        | none => exact Or.inl ⟨rfl, rfl⟩
        | some item => exact Or.inr ⟨item, item, rfl, rfl, fieldsAlike_refl masks item⟩
      · exact Or.inr ⟨item, item', rfl, rfl, halike⟩
    rw [List.mapM_cons, List.mapM_cons]
    rcases hone with ⟨hv, hv'⟩ | ⟨item, item', hv, hv', halike⟩
    · exact Or.inl (by simp [hv, hv'])
    · rcases ih with ⟨hrest, hrest'⟩ | ⟨dicts, dicts', hrest, hrest', hall⟩
      · exact Or.inl (by simp [hv, hv', hrest, hrest'])
      · exact Or.inr ⟨item :: dicts, item' :: dicts', by simp [hv, hrest], by simp [hv', hrest'], .cons halike hall⟩

theorem listRecord_congr {name : String} {masks : List (String × MaskMode)} {v v' : JsonValue} (h : ListAlike masks v v') :
    listRecord name masks v = listRecord name masks v' := by
  rcases h with rfl | ⟨items, items', rfl, rfl, hitems⟩
  · rfl
  · unfold listRecord
    dsimp only
    have hlength := hitems.length_eq
    rcases asDict_congr hitems with ⟨hnone, hnone'⟩ | ⟨dicts, dicts', hsome, hsome', halike⟩
    · rw [hnone, hnone', hlength]
    · rw [hsome, hsome', hlength]
      dsimp only
      rw [keepEntries_congr (List.forall₂_take 50 halike)]

variable {op : Declared} {data data' : Fields}

/-- A field that is neither secret nor masked is the same in both. -/
theorem get_same (h : DataAlike op data data') {name : String} (hsecret : name ∉ op.secretFields) (hmasked : name ∉ op.listMasks.map Prod.fst) :
    Dict.get name data = Dict.get name data' := by
  rcases h name with ⟨hnone, hnone'⟩ | ⟨v, v', hv, hv', rfl | hin | ⟨hin, -⟩⟩
  · rw [hnone, hnone']
  · rw [hv, hv']
  · exact absurd hin hsecret
  · exact absurd hin hmasked

theorem not_masked {name : String} (h : name ∉ op.auditLists) : name ∉ op.listMasks.map Prod.fst := by
  intro hmem
  obtain ⟨m, hm, rfl⟩ := List.mem_map.1 hmem
  exact h (op.masksOnLists m hm)

theorem copyList_same (h : DataAlike op data data') {name : String} (hname : name ∈ op.auditLists) (values : Fields) :
    copyList op data values name = copyList op data' values name := by
  unfold copyList
  rcases h name with ⟨hnone, hnone'⟩ | ⟨v, v', hv, hv', hfield⟩
  · rw [hnone, hnone']
  · rw [hv, hv']
    dsimp only
    rcases hfield with rfl | hsecret | ⟨-, halike⟩
    · rfl
    · exact absurd hname (op.secretsApart name hsecret).2.1
    · rw [listRecord_congr halike]

theorem copyLists_same (h : DataAlike op data data') (values : Fields) :
    op.auditLists.foldl (copyList op data) values = op.auditLists.foldl (copyList op data') values :=
  List.foldl_ext _ _ _ fun values _ hname => copyList_same h hname values

theorem afterValues_same (h : DataAlike op data data') (query : Fields) (params : List (String × String)) (upload : Option Fields) :
    afterValues op data query params upload = afterValues op data' query params upload := by
  have hfields : op.auditFields.foldl (copyField data query) [] = op.auditFields.foldl (copyField data' query) [] := by
    refine List.foldl_ext _ _ _ fun values name hname => ?_
    unfold copyField
    rw [get_same h (fun hsecret => (op.secretsApart name hsecret).1 hname) (not_masked fun hlist => (op.listsApart name hlist).1 hname)]
  unfold afterValues
  rw [hfields, copyLists_same h]

theorem beforeValues_same (h : DataAlike op data data') (hcounts : ∀ name ∈ op.secretFields, name ∉ op.countFields) : beforeValues op data = beforeValues op data' := by
  have hfields : op.beforeFields.foldl (copyBefore data) [] = op.beforeFields.foldl (copyBefore data') [] := by
    refine List.foldl_ext _ _ _ fun values name hname => ?_
    unfold copyBefore
    rw [get_same h (fun hsecret => (op.secretsApart name hsecret).2.2 hname) (not_masked fun hlist => (op.listsApart name hlist).2.1 hname)]
  have hcounted : ∀ values, op.countFields.foldl (copyCount data) values = op.countFields.foldl (copyCount data') values := by
    refine fun values => List.foldl_ext _ _ _ fun values name hname => ?_
    unfold copyCount
    rw [get_same h (fun hsecret => hcounts name hsecret hname) (not_masked fun hlist => (op.listsApart name hlist).2.2 hname)]
  unfold beforeValues
  rw [hfields, hcounted, copyLists_same h]

variable {δ : Type} [DecidableEq δ] {digest : JsonValue → δ} {body body' : Fields} {read read' : Option Fields}

/-- What the two reads hold of one field: none in both, or a value in each. -/
theorem read_cases (h : ReadAlike op read read') (name : String) :
    read.bind (Dict.get name) = none ∧ read'.bind (Dict.get name) = none ∨ ∃ v v', read.bind (Dict.get name) = some v ∧ read'.bind (Dict.get name) = some v' ∧
      (v = v' ∨ name ∈ op.secretFields ∨ name ∈ op.listMasks.map Prod.fst ∧ ListAlike (masksFor op name) v v') := by
  rcases h with ⟨rfl, rfl⟩ | ⟨data, data', rfl, rfl, halike⟩
  · exact Or.inl ⟨rfl, rfl⟩
  · exact halike name

theorem markSecret_same (hbody : DataAlike op body body') (hread : ReadAlike op read read') (hchanges : SameChanges op digest body body' read read')
    {name : String} (hname : name ∈ op.secretFields) (markers : Fields × Fields) :
    markSecret digest body read markers name = markSecret digest body' read' markers name := by
  unfold markSecret
  rcases hbody name with ⟨hnone, hnone'⟩ | ⟨sent, sent', hsent, hsent', -⟩
  · rw [hnone, hnone']
  · rw [hsent, hsent']
    dsimp only
    rcases read_cases hread name with ⟨hnone, hnone'⟩ | ⟨stored, stored', hstored, hstored', -⟩
    · rw [hnone, hnone']
    · rw [hstored, hstored']
      dsimp only
      simp only [hchanges name (Or.inl hname) sent sent' stored stored' hsent hsent' hstored hstored']

theorem isList_same {masks : List (String × MaskMode)} {v v' : JsonValue} (h : ListAlike masks v v') : isList v = isList v' := by
  rcases h with rfl | ⟨items, items', rfl, rfl, -⟩
  · rfl
  · rfl

/-- A masked list is no secret, so the two values of its field are alike as lists. -/
theorem alike_of_masked {name : String} (hname : name ∈ op.listMasks.map Prod.fst) {v v' : JsonValue}
    (h : v = v' ∨ name ∈ op.secretFields ∨ name ∈ op.listMasks.map Prod.fst ∧ ListAlike (masksFor op name) v v') : ListAlike (masksFor op name) v v' := by
  rcases h with rfl | hsecret | ⟨-, halike⟩
  · exact Or.inl rfl
  · exact absurd hname (not_masked (op.secretsApart name hsecret).2.1)
  · exact halike

theorem markList_same (hbody : DataAlike op body body') (hread : ReadAlike op read read') (hchanges : SameChanges op digest body body' read read')
    {name : String} (hname : name ∈ op.listMasks.map Prod.fst) (markers : Fields) :
    markList digest body read markers name = markList digest body' read' markers name := by
  unfold markList
  rcases hbody name with ⟨hnone, hnone'⟩ | ⟨sent, sent', hsent, hsent', hfield⟩
  · rw [hnone, hnone']
  · rw [hsent, hsent']
    dsimp only
    rcases read_cases hread name with ⟨hnone, hnone'⟩ | ⟨stored, stored', hstored, hstored', hfield'⟩
    · rw [hnone, hnone']
    · rw [hstored, hstored']
      dsimp only
      rw [isList_same (alike_of_masked hname hfield), isList_same (alike_of_masked hname hfield')]
      simp only [ne_eq, hchanges name (Or.inr hname) sent sent' stored stored' hsent hsent' hstored hstored']

end SecretsUnseenAux

open SecretsUnseenAux

/-- Two calls that differ only in the values of secret fields and of masked keys, in the body and in Tactical's record, and that change the same secret fields
and masked lists, record the same before and after values. -/
theorem row_does_not_depend_on_secrets {δ : Type} [DecidableEq δ] {op : Declared} {digest : JsonValue → δ}
    (hcounts : ∀ name ∈ op.secretFields, name ∉ op.countFields) {body body' : Fields} (hbody : DataAlike op body body') {read read' : Option Fields}
    (hread : ReadAlike op read read') (hchanges : SameChanges op digest body body' read read') (query : Fields) (params : List (String × String))
    (upload : Option Fields) : rowValues op digest body query params upload read = rowValues op digest body' query params upload read' := by
  have hsecrets : op.secretFields.foldl (markSecret digest body read) ([], []) = op.secretFields.foldl (markSecret digest body' read') ([], []) :=
    List.foldl_ext _ _ _ fun markers _ hname => markSecret_same hbody hread hchanges hname markers
  have hlists : (op.listMasks.map Prod.fst).foldl (markList digest body read) [] = (op.listMasks.map Prod.fst).foldl (markList digest body' read') [] :=
    List.foldl_ext _ _ _ fun markers _ hname => markList_same hbody hread hchanges hname markers
  have hbefore : read.map (beforeValues op) = read'.map (beforeValues op) := by
    rcases hread with ⟨rfl, rfl⟩ | ⟨data, data', rfl, rfl, halike⟩
    · rfl
    · exact congrArg some (beforeValues_same halike hcounts)
  unfold rowValues
  rw [hsecrets, hlists, hbefore, afterValues_same hbody]

def sampleDeclared : Declared where
  auditFields := ["name"]
  auditParams := []
  auditLists := ["actions"]
  listMasks := [("actions", [("env", .names)])]
  secretFields := ["password"]
  beforeFields := ["name"]
  countFields := []
  masksOnLists := by simp
  listsApart := by simp
  secretsApart := by simp

/-- A body, or Tactical's record, with a password and the environment of one action. -/
def sampleData (password env : String) : Fields :=
  [("name", .str "nightly"), ("password", .str password), ("actions", .list [.dict [("env", .list [.str env])]])]

theorem sample_dataAlike {password password' env env' : String} (h : itemName env = itemName env') :
    DataAlike sampleDeclared (sampleData password env) (sampleData password' env') := by
  intro name
  by_cases hname : name = "name"
  · subst hname
    exact Or.inr ⟨_, _, rfl, rfl, Or.inl rfl⟩
  by_cases hpassword : name = "password"
  · subst hpassword
    exact Or.inr ⟨_, _, rfl, rfl, Or.inr (Or.inl List.mem_cons_self)⟩
  by_cases hactions : name = "actions"
  · subst hactions
    have henv : ValueAlike (.list [.str env]) (.list [.str env']) := Or.inr (Or.inl ⟨_, _, rfl, rfl, by rw [List.map_singleton, visible, h]; rfl⟩)
    have hitem : ItemAlike [("env", .names)] (.dict [("env", .list [.str env])]) (.dict [("env", .list [.str env'])]) :=
      Or.inr ⟨_, _, rfl, rfl, .cons ⟨rfl, Or.inr ⟨rfl, henv⟩⟩ .nil⟩
    exact Or.inr ⟨_, _, rfl, rfl, Or.inr (Or.inr ⟨List.mem_cons_self, Or.inr ⟨_, _, rfl, rfl, .cons hitem .nil⟩⟩)⟩
  · refine Or.inl ⟨?_, ?_⟩ <;>
      exact Dict.get_eq_none_iff.2 (by simp [sampleData, hname, hpassword, hactions])

theorem sample_row_does_not_depend_on_secrets :
    rowValues sampleDeclared (fun v => v.bytes) (sampleData "a" "KEY=one") [] [] none (some (sampleData "stored" "KEY=other")) =
      rowValues sampleDeclared (fun v => v.bytes) (sampleData "b" "KEY=two") [] [] none (some (sampleData "other" "KEY=longer")) := by
  refine row_does_not_depend_on_secrets (fun _ _ hmem => by cases hmem) (sample_dataAlike (by decide +kernel))
    (Or.inr ⟨_, _, rfl, rfl, sample_dataAlike (by decide +kernel)⟩) ?_ [] [] none
  intro name hname sent sent' stored stored' hsent hsent' hstored hstored'
  have hor : name = "password" ∨ name = "actions" := by simpa [sampleDeclared] using hname
  rcases hor with rfl | rfl
  · obtain rfl := Option.some.inj hsent
    obtain rfl := Option.some.inj hsent'
    obtain rfl := Option.some.inj hstored
    obtain rfl := Option.some.inj hstored'
    decide +kernel
  · obtain rfl := Option.some.inj hsent
    obtain rfl := Option.some.inj hsent'
    obtain rfl := Option.some.inj hstored
    obtain rfl := Option.some.inj hstored'
    decide +kernel

end OperationRecord

end TecTac
