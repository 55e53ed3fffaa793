import Mathlib
import TecTac.Lib.Raise
import TecTac.SchedulerTargets

/-!
# What the canonical form of targets keeps

One lemma for each step: the identifiers of a kind, the aliases of a kind, the scope, the root, and the four forms of targets that are accepted.
-/

namespace TecTac

namespace SchedulerTargets

open Raise

/-! ## Identifiers -/

/-- An alias of a scope, or its list of identifiers, names identifiers of a kind. -/
inductive ScopeNames (lang : Language) (scope : Fields) : Kind → JsonValue → Prop where
  | alias {kind : Kind} {key : String} {value : JsonValue} : key ∈ aliases kind → Dict.get key scope = some value → ScopeNames lang scope kind (asList value)
  | ids {kind : Kind} {value : JsonValue} : nativeKind (lang.word scope "type" "") = some kind → Dict.get "ids" scope = some value → ScopeNames lang scope kind value

/-- An alias at the root of dynamic targets, or their scope, names identifiers of a kind. -/
inductive Supplied (lang : Language) (targets : Fields) : Kind → JsonValue → Prop where
  | root {kind : Kind} {key : String} {value : JsonValue} : key ∈ aliases kind → Dict.get key targets = some value → Supplied lang targets kind (asList value)
  | scope {scope : Fields} {kind : Kind} {value : JsonValue} : Dict.get "scope" targets = some (.dict scope) → ScopeNames lang scope kind value → Supplied lang targets kind value

/-- Identifiers of a kind as they are stored: none twice, and each is read as itself. -/
def Stored (lang : Language) (kind : Kind) (ids : List Ident) : Prop := ids.Nodup ∧ ∀ id ∈ ids, ident lang kind id.value = .ok id

/-- The filter of dynamic targets. -/
def filterOf (fields : Fields) : Fields :=
  match Dict.get "filter" fields with
  | some (.dict filter) => filter
  | _ => []

/-- The targets of a dynamic type as they are stored. -/
def stored (scope : Kind × List Ident) (filter : Fields) : Fields :=
  [("type", .str "dynamic"), ("scope", scopeValue scope)] ++ (if filter = [] then [] else [("filter", .dict filter)])

/-- The four forms of an object that is accepted, with what is made of each. -/
inductive Accepted (lang : Language) (fields : Fields) : Fields → Prop where
  | none : targetType lang fields = "" ∨ targetType lang fields = "none" → Accepted lang fields [("type", .str "none")]
  | native {kind : Kind} {value : JsonValue} {ids : List Ident} : nativeKind (targetType lang fields) = some kind → Dict.get "ids" fields = some value →
      canonicalIds lang kind value = .ok ids → Accepted lang fields [("type", .str (targetType lang fields)), ("ids", idList ids)]
  | dynamic {filter : Fields} {scope : Kind × List Ident} : targetType lang fields = "dynamic" → dynamicRootScope lang fields = .ok scope →
      (Dict.get "filter" fields).getD (.dict []) = .dict filter → reservedKey filter = none → reservedFilterValue (.dict filter) = none → Accepted lang fields (stored scope filter)
  | module : nativeKind (targetType lang fields) = none → targetType lang fields ≠ "dynamic" → Accepted lang fields fields

/-- A language in which no text is a number. -/
def wordless : Language := ⟨fun _ => "", fun _ => none, fun _ => .ok none⟩

namespace TargetsAux

theorem foldl_dedupe (values out : List Ident) (hout : out.Nodup) :
    (values.foldl (fun out value => if value ∈ out then out else out ++ [value]) out).Nodup ∧
      ∀ id, id ∈ values.foldl (fun out value => if value ∈ out then out else out ++ [value]) out ↔ id ∈ out ∨ id ∈ values := by
  induction values generalizing out with
  | nil => exact ⟨hout, fun id => by simp⟩
  | cons value values ih =>
    rw [List.foldl_cons]
    by_cases hmem : value ∈ out
    · rw [if_pos hmem]
      refine ⟨(ih out hout).1, fun id => ?_⟩
      rw [(ih out hout).2, List.mem_cons]
      constructor
      · rintro (h | h)
        · exact Or.inl h
        · exact Or.inr (Or.inr h)
      · rintro (h | rfl | h)
        · exact Or.inl h
        · exact Or.inl hmem
        · exact Or.inr h
    · rw [if_neg hmem]
      have hnodup : (out ++ [value]).Nodup := List.nodup_append.2 ⟨hout, List.nodup_singleton value, fun a ha b hb hab => hmem (List.mem_singleton.1 hb ▸ hab ▸ ha)⟩
      refine ⟨(ih _ hnodup).1, fun id => ?_⟩
      rw [(ih _ hnodup).2, List.mem_append, List.mem_singleton, List.mem_cons, or_assoc]

theorem nodup_dedupe (values : List Ident) : (dedupe values).Nodup := (foldl_dedupe values [] List.nodup_nil).1

theorem mem_dedupe {values : List Ident} {id : Ident} : id ∈ dedupe values ↔ id ∈ values := by
  rw [dedupe, (foldl_dedupe values [] List.nodup_nil).2]
  simp

/-- Identifiers without a repetition are left as they are. -/
theorem dedupe_of_nodup {values : List Ident} (h : values.Nodup) : dedupe values = values := by
  suffices hgeneral : ∀ out : List Ident, (out ++ values).Nodup → values.foldl (fun out value => if value ∈ out then out else out ++ [value]) out = out ++ values from
    hgeneral [] h
  clear h
  induction values with
  | nil => exact fun out _ => (List.append_nil out).symm
  | cons value values ih =>
    intro out hout
    have hnot : value ∉ out := fun hmem => (List.nodup_append.1 hout).2.2 value hmem value List.mem_cons_self rfl
    rw [List.foldl_cons, if_neg hnot, ih (out ++ [value]) (by rwa [List.append_assoc, List.singleton_append]), List.append_assoc, List.singleton_append]

section

variable {lang : Language}

theorem numberIdent_ok {kind : Kind} {value : JsonValue} {id : Ident} (h : numberIdent lang kind value = .ok id) : ∃ n : Int, 0 < n ∧ id = .number n := by
  unfold numberIdent at h
  split at h
  · cases h
  · obtain ⟨found, -, h⟩ := bind_ok h
    cases found with
    | none => cases h
    | some n =>
      replace h : (if n ≤ 0 then throw (.shape (label kind ++ " target identifiers must be positive integers.")) else pure (Ident.number n) : Except Raised Ident) = .ok id := h
      split at h
      · cases h
      · rename_i hpos
        exact ⟨n, by omega, (Except.ok.inj h).symm⟩

theorem numberIdent_num (kind : Kind) {n : Int} (h : 0 < n) : numberIdent lang kind (.num n) = .ok (.number n) := by
  show (if n ≤ 0 then throw (.shape (label kind ++ " target identifiers must be positive integers.")) else pure (Ident.number n) : Except Raised Ident) = .ok (.number n)
  rw [if_neg (by omega)]
  rfl

theorem endpointIdent_ok {value : JsonValue} {id : Ident} (h : endpointIdent lang value = .ok id) : ∃ s, s ≠ "" ∧ stripText s = s ∧ id = .text s := by
  simp only [endpointIdent] at h
  split at h
  · cases h
  · rename_i hne
    simp only [Bool.or_eq_true, beq_iff_eq, not_or] at hne
    exact ⟨_, hne.2, stripText_stripText _, (Except.ok.inj h).symm⟩

theorem endpointIdent_str {s : String} (hne : s ≠ "") (hstrip : stripText s = s) : endpointIdent lang (.str s) = .ok (.text s) := by
  show (if false || s == "" || stripText s == "" then .error _ else .ok (Ident.text (stripText s)) : Except Raised Ident) = .ok (.text s)
  rw [hstrip, if_neg (by simpa using hne)]

/-- An identifier is read as itself again. -/
theorem ident_value {kind : Kind} {value : JsonValue} {id : Ident} (h : ident lang kind value = .ok id) : ident lang kind id.value = .ok id := by
  cases kind with
  | client =>
    obtain ⟨n, hpos, rfl⟩ := numberIdent_ok h
    exact numberIdent_num .client hpos
  | site =>
    obtain ⟨n, hpos, rfl⟩ := numberIdent_ok h
    exact numberIdent_num .site hpos
  | endpoint =>
    obtain ⟨s, hne, hstrip, rfl⟩ := endpointIdent_ok h
    exact endpointIdent_str hne hstrip

theorem stored_of_canonicalIds {kind : Kind} {value : JsonValue} {ids : List Ident} (h : canonicalIds lang kind value = .ok ids) : Stored lang kind ids := by
  unfold canonicalIds at h
  split at h
  · obtain ⟨found, hfound, h⟩ := bind_ok h
    obtain rfl := Except.ok.inj h
    refine ⟨nodup_dedupe found, fun id hid => ?_⟩
    obtain ⟨value, -, hvalue⟩ := mem_of_mapM_ok hfound (mem_dedupe.1 hid)
    exact ident_value hvalue
  · cases h

theorem mapM_stored {kind : Kind} {ids : List Ident} (h : ∀ id ∈ ids, ident lang kind id.value = .ok id) : (ids.map Ident.value).mapM (ident lang kind) = .ok ids := by
  induction ids with
  | nil => rfl
  | cons id ids ih =>
    rw [List.map_cons, List.mapM_cons, h id List.mem_cons_self, ih fun id hid => h id (List.mem_cons_of_mem _ hid)]
    rfl

theorem canonicalIds_idList {kind : Kind} {ids : List Ident} (h : Stored lang kind ids) : canonicalIds lang kind (idList ids) = .ok ids := by
  show (do return dedupe (← (ids.map Ident.value).mapM (ident lang kind)) : Except Raised (List Ident)) = .ok ids
  rw [mapM_stored h.2]
  exact congrArg Except.ok (dedupe_of_nodup h.1)

/-! ## The keys -/

theorem rejectUnknownKeys_ok_iff {fields : Fields} {allowed : List String} {label : String} :
    rejectUnknownKeys fields allowed label = .ok () ↔ ∀ key ∈ fields.map Prod.fst, key ∈ allowed := by
  unfold rejectUnknownKeys
  have hextra : ((fields.map Prod.fst).filter fun key => !allowed.contains key) = [] ↔ ∀ key ∈ fields.map Prod.fst, key ∈ allowed := by
    rw [List.filter_eq_nil_iff]
    simp
  simp only
  split
  · rename_i h
    exact iff_of_true rfl (hextra.1 h)
  · rename_i h
    exact iff_of_false (fun heq => by cases heq) (h ∘ hextra.2)

/-! ## The scope -/

/-- The aliases of a kind all name the candidate, and one of them does. -/
theorem legacyScopeCandidate_ok {fields : Fields} {kind : Kind} {found : Option (List Ident)} (h : legacyScopeCandidate lang fields kind = .ok found) :
    (∀ key ∈ aliases kind, ∀ value, Dict.get key fields = some value → ∃ ids, found = some ids ∧ canonicalIds lang kind (asList value) = .ok ids) ∧
      ∀ ids, found = some ids → ∃ key ∈ aliases kind, ∃ value, Dict.get key fields = some value ∧ canonicalIds lang kind (asList value) = .ok ids := by
  unfold legacyScopeCandidate at h
  obtain ⟨resolved, hresolved, h⟩ := bind_ok h
  have hall {key : String} {value : JsonValue} (hkey : key ∈ aliases kind) (hvalue : Dict.get key fields = some value) :
      ∃ ids ∈ resolved, canonicalIds lang kind (asList value) = .ok ids := mapM_ok_of_mem hresolved (List.mem_filterMap.2 ⟨key, hkey, hvalue⟩)
  cases resolved with
  | nil =>
    obtain rfl : none = found := Except.ok.inj h
    exact ⟨fun key hkey value hvalue => (hall hkey hvalue).elim fun ids hids => absurd hids.1 List.not_mem_nil, fun ids hids => by cases hids⟩
  | cons first others =>
    replace h : (if others.all (· == first) then pure (some first) else throw _ : Except Raised (Option (List Ident))) = .ok found := h
    split at h
    · rename_i hsame
      obtain rfl : some first = found := Except.ok.inj h
      constructor
      · intro key hkey value hvalue
        obtain ⟨ids, hmem, hids⟩ := hall hkey hvalue
        rcases List.mem_cons.1 hmem with rfl | hmem
        · exact ⟨ids, rfl, hids⟩
        · obtain rfl : ids = first := by simpa using List.all_eq_true.1 hsame ids hmem
          exact ⟨ids, rfl, hids⟩
      · rintro ids ⟨⟩
        obtain ⟨value, hmem, hids⟩ := mem_of_mapM_ok hresolved List.mem_cons_self
        obtain ⟨key, hkey, hvalue⟩ := List.mem_filterMap.1 hmem
        exact ⟨key, hkey, value, hvalue, hids⟩
    · cases h

/-- The candidates are what the aliases name, each kind once. -/
theorem legacyCandidates_ok {fields : Fields} {found : List (Kind × List Ident)} (h : legacyCandidates lang fields = .ok found) :
    (found.map Prod.fst).Nodup ∧
      (∀ kind, ∀ key ∈ aliases kind, ∀ value, Dict.get key fields = some value → ∃ ids, (kind, ids) ∈ found ∧ canonicalIds lang kind (asList value) = .ok ids) ∧
      ∀ c ∈ found, ∃ value, ScopeNames lang fields c.1 value ∧ canonicalIds lang c.1 value = .ok c.2 := by
  unfold legacyCandidates at h
  obtain ⟨all, hall, h⟩ := bind_ok h
  obtain rfl := Except.ok.inj h
  refine ⟨?_, fun kind key hkey value hvalue => ?_, fun c hc => ?_⟩
  · have hkinds : all.map Prod.fst = kinds := by
      have hmap := map_eq_of_mapM hall (g := Prod.fst) (k := id) fun kind p hp => by
        obtain ⟨found, -, hp⟩ := bind_ok hp
        exact congrArg Prod.fst (Except.ok.inj hp).symm
      rw [hmap, List.map_id]
    have hsub : ∀ l : List (Kind × Option (List Ident)), ((l.filterMap fun p => p.2.map fun values => (p.1, values)).map Prod.fst).Sublist (l.map Prod.fst) := by
      intro l
      induction l with
      | nil => exact List.Sublist.slnil
      | cons p l ih =>
        obtain ⟨kind, values⟩ := p
        cases values with
        | none => exact ih.cons kind
        | some values => exact ih.cons_cons kind
    exact (hkinds ▸ hsub all).nodup (by decide)
  · obtain ⟨p, hp, hfound⟩ := mapM_ok_of_mem hall (show kind ∈ kinds by cases kind <;> decide)
    obtain ⟨found, hcandidate, hfound⟩ := bind_ok hfound
    obtain rfl := Except.ok.inj hfound
    obtain ⟨ids, rfl, hids⟩ := (legacyScopeCandidate_ok hcandidate).1 key hkey value hvalue
    exact ⟨ids, List.mem_filterMap.2 ⟨_, hp, rfl⟩, hids⟩
  · obtain ⟨p, hp, hc⟩ := List.mem_filterMap.1 hc
    obtain ⟨kind, -, hfound⟩ := mem_of_mapM_ok hall hp
    obtain ⟨found, hcandidate, hfound⟩ := bind_ok hfound
    obtain rfl := Except.ok.inj hfound
    obtain ⟨ids, rfl, rfl⟩ := Option.map_eq_some_iff.1 hc
    obtain ⟨key, hkey, value, hvalue, hids⟩ := (legacyScopeCandidate_ok hcandidate).2 ids rfl
    exact ⟨asList value, ScopeNames.alias hkey hvalue, hids⟩

theorem explicitKind_ok {fields : Fields} {explicit : Option Kind} (h : explicitKind lang fields = .ok explicit) : explicit = nativeKind (lang.word fields "type" "") := by
  unfold explicitKind at h
  simp only at h
  split at h
  · rename_i hempty
    rw [hempty]
    exact (Except.ok.inj h).symm
  · split at h
    · rename_i hkind
      rw [hkind]
      exact (Except.ok.inj h).symm
    · cases h

theorem withIds_ok {fields : Fields} {explicit : Option Kind} {candidates found : List (Kind × List Ident)} (h : withIds lang fields explicit candidates = .ok found) :
    Dict.get "ids" fields = none ∧ found = candidates ∨
      ∃ value kind ids, Dict.get "ids" fields = some value ∧ explicit = some kind ∧ canonicalIds lang kind value = .ok ids ∧
        (∀ previous, Dict.get kind candidates = some previous → previous = ids) ∧ found = Dict.set kind ids candidates := by
  unfold withIds at h
  split at h
  · rename_i hnone
    exact Or.inl ⟨hnone, (Except.ok.inj h).symm⟩
  · rename_i value hvalue
    split at h
    · cases h
    · rename_i kind
      obtain ⟨ids, hids, h⟩ := bind_ok h
      refine Or.inr ⟨value, kind, ids, hvalue, rfl, hids, ?_⟩
      split at h
      · rename_i previous hprevious
        split at h
        · rename_i hsame
          exact ⟨fun other hother => (Option.some.inj (hother.symm.trans hprevious)).trans hsame, (Except.ok.inj h).symm⟩
        · cases h
      · rename_i hnone
        exact ⟨fun other hother => (by cases hnone.symm.trans hother), (Except.ok.inj h).symm⟩

theorem oneScope_ok {explicit : Option Kind} {candidates : List (Kind × List Ident)} {scope : Kind × List Ident} (h : oneScope explicit candidates = .ok scope) :
    (∀ c ∈ candidates, c.1 = scope.1) ∧ Dict.get scope.1 candidates = some scope.2 ∧ (∀ kind, explicit = some kind → kind = scope.1) := by
  unfold oneScope at h
  split at h
  · rename_i kind
    split at h
    · cases h
    · rename_i hforeign
      split at h
      · cases h
      · rename_i values hvalues
        obtain rfl := Except.ok.inj h
        refine ⟨fun c hc => ?_, hvalues, fun kind hkind => (Option.some.inj hkind).symm⟩
        by_contra hne
        exact hforeign (List.any_eq_true.2 ⟨c, hc, by simpa using hne⟩)
  · split at h
    · cases h
    · rename_i c
      obtain rfl := Except.ok.inj h
      refine ⟨fun d hd => congrArg Prod.fst (List.mem_singleton.1 hd), ?_, fun kind hkind => by cases hkind⟩
      show Dict.get c.1 [(c.1, c.2)] = some c.2
      rw [Dict.get_cons, if_pos rfl]
    · cases h

/-- Whatever a scope that is accepted names is what it is accepted for. -/
theorem canonicalDynamicScope_ok {fields : Fields} {scope : Kind × List Ident} (h : canonicalDynamicScope lang (.dict fields) = .ok scope) :
    (∀ kind value, ScopeNames lang fields kind value → kind = scope.1 ∧ canonicalIds lang kind value = .ok scope.2) ∧
      ∃ value, ScopeNames lang fields scope.1 value ∧ canonicalIds lang scope.1 value = .ok scope.2 := by
  unfold canonicalDynamicScope at h
  obtain ⟨-, -, h⟩ := bind_ok h
  obtain ⟨explicit, hexplicit, h⟩ := bind_ok h
  obtain ⟨candidates, hcandidates, h⟩ := bind_ok h
  obtain ⟨found, hfound, h⟩ := bind_ok h
  obtain ⟨hnodup, haliases, hfrom⟩ := legacyCandidates_ok hcandidates
  obtain ⟨hall, hget, hkind⟩ := oneScope_ok h
  replace hexplicit := explicitKind_ok hexplicit
  rcases withIds_ok hfound with ⟨hnone, rfl⟩ | ⟨value, kind, ids, hvalue, hsome, hids, hprevious, rfl⟩
  · constructor
    · rintro kind _ (⟨hkey, hvalue⟩ | ⟨-, hids⟩)
      · obtain ⟨ids, hmem, hids⟩ := haliases _ _ hkey _ hvalue
        obtain rfl : kind = scope.1 := hall _ hmem
        obtain rfl : ids = scope.2 := Option.some.inj ((Dict.get_of_mem hnodup hmem).symm.trans hget)
        exact ⟨rfl, hids⟩
      · cases hnone.symm.trans hids
    · exact hfrom _ (Dict.mem_of_get hget)
  · obtain rfl := hkind kind hsome
    rw [Dict.get_set_self] at hget
    obtain rfl := Option.some.inj hget
    constructor
    · rintro other _ (⟨hkey, hvalue⟩ | ⟨hother, hvalue'⟩)
      · obtain ⟨ids, hmem, hids⟩ := haliases _ _ hkey _ hvalue
        have hother := Dict.get_of_mem hnodup hmem
        have hsame : other = scope.1 := by
          by_contra hne
          rw [← Dict.get_set_of_ne (Ne.symm hne) scope.2 candidates] at hother
          exact hne (hall _ (Dict.mem_of_get hother))
        subst hsame
        exact ⟨rfl, hprevious ids hother ▸ hids⟩
      · obtain rfl := Option.some.inj (hvalue.symm.trans hvalue')
        obtain rfl := Option.some.inj (hother.symm.trans (hexplicit.symm.trans hsome))
        exact ⟨rfl, hids⟩
    · exact ⟨value, ScopeNames.ids (hexplicit.symm.trans hsome) hvalue, hids⟩

/-! ## The root -/

theorem get_collected (names : List String) (key : String) (targets : Fields) :
    Dict.get key (names.filterMap fun name => (Dict.get name targets).map fun value => (name, value)) = if key ∈ names then Dict.get key targets else none := by
  induction names with
  | nil => rfl
  | cons name names ih =>
    rw [List.filterMap_cons]
    cases hvalue : Dict.get name targets with
    | none =>
      rw [Option.map_none]
      simp only [ih, List.mem_cons]
      by_cases hname : key = name
      · rw [if_pos (Or.inl hname), hname, hvalue, ite_self]
      · simp only [hname, false_or]
    | some value =>
      rw [Option.map_some]
      simp only [Dict.get_cons, ih, List.mem_cons]
      by_cases hname : name = key
      · rw [if_pos hname, if_pos (Or.inl hname.symm), ← hname, hvalue]
      · simp only [hname, Ne.symm hname, if_false, false_or]

theorem get_rootScope {targets : Fields} {key : String} (h : key ∈ allAliases) : Dict.get key (rootScope targets) = Dict.get key targets := by
  rw [rootScope, get_collected, if_pos h]

theorem get_of_mem_rootScope {targets : Fields} {key : String} {value : JsonValue} (h : Dict.get key (rootScope targets) = some value) : key ∈ allAliases := by
  obtain ⟨name, hname, hvalue⟩ := List.mem_filterMap.1 (Dict.mem_of_get h)
  obtain ⟨value', -, heq⟩ := Option.map_eq_some_iff.1 hvalue
  exact (Prod.mk.inj heq).1 ▸ hname

theorem mem_allAliases {kind : Kind} {key : String} (h : key ∈ aliases kind) : key ∈ allAliases :=
  List.mem_flatMap.2 ⟨kind, by cases kind <;> decide, h⟩

/-- What the aliases at the root name, as the aliases of a scope. -/
theorem rootScope_names {targets : Fields} {kind : Kind} {value : JsonValue} (h : ScopeNames lang (rootScope targets) kind value) : Supplied lang targets kind value := by
  rcases h with ⟨hkey, hvalue⟩ | ⟨-, hids⟩
  · exact Supplied.root hkey (get_rootScope (mem_allAliases hkey) ▸ hvalue)
  · exact absurd (get_of_mem_rootScope hids) (by decide)

theorem scope_is_dict {value : JsonValue} {scope : Kind × List Ident} (h : canonicalDynamicScope lang value = .ok scope) : ∃ fields, value = .dict fields := by
  unfold canonicalDynamicScope at h
  split at h
  · exact ⟨_, rfl⟩
  · cases h

theorem scopeField_dict {targets fields : Fields} {canonical : Option (Kind × List Ident)} (hfields : Dict.get "scope" targets = some (.dict fields))
    (h : scopeField lang targets = .ok canonical) : ∃ found, canonical = some found ∧ canonicalDynamicScope lang (.dict fields) = .ok found := by
  unfold scopeField at h
  rw [hfields] at h
  replace h : some <$> canonicalDynamicScope lang (.dict fields) = Except.ok canonical := h
  cases hfound : canonicalDynamicScope lang (.dict fields) with
  | error e =>
    rw [hfound] at h
    cases h
  | ok found =>
    rw [hfound] at h
    exact ⟨found, (Except.ok.inj h).symm, rfl⟩

theorem of_scopeField {targets : Fields} {found : Kind × List Ident} (h : scopeField lang targets = .ok (some found)) :
    ∃ fields, Dict.get "scope" targets = some (.dict fields) ∧ canonicalDynamicScope lang (.dict fields) = .ok found := by
  unfold scopeField at h
  split at h
  · cases Except.ok.inj h
  · rename_i value hvalue
    cases hfound : canonicalDynamicScope lang value with
    | error e =>
      rw [hfound] at h
      cases h
    | ok other =>
      rw [hfound] at h
      obtain rfl : other = found := Option.some.inj (Except.ok.inj h)
      obtain ⟨fields, rfl⟩ := scope_is_dict hfound
      exact ⟨fields, hvalue, hfound⟩

/-- Whatever dynamic targets supply is what they are accepted for. -/
theorem dynamicRootScope_ok {targets : Fields} {scope : Kind × List Ident} (h : dynamicRootScope lang targets = .ok scope) :
    (∀ kind value, Supplied lang targets kind value → kind = scope.1 ∧ canonicalIds lang kind value = .ok scope.2) ∧
      ∃ value, Supplied lang targets scope.1 value ∧ canonicalIds lang scope.1 value = .ok scope.2 := by
  unfold dynamicRootScope at h
  obtain ⟨-, -, h⟩ := bind_ok h
  obtain ⟨canonical, hcanonical, h⟩ := bind_ok h
  split at h
  · rename_i hempty
    split at h
    · cases h
    · rename_i found
      obtain rfl := Except.ok.inj h
      constructor
      · rintro kind _ (⟨hkey, hvalue⟩ | ⟨hfields, hnames⟩)
        · rw [← get_rootScope (mem_allAliases hkey), hempty] at hvalue
          cases hvalue
        · obtain ⟨other, hother, hok⟩ := scopeField_dict hfields hcanonical
          obtain rfl := Option.some.inj hother
          exact (canonicalDynamicScope_ok hok).1 kind _ hnames
      · obtain ⟨fields, hfields, hok⟩ := of_scopeField hcanonical
        obtain ⟨value, hnames, hids⟩ := (canonicalDynamicScope_ok hok).2
        exact ⟨value, Supplied.scope hfields hnames, hids⟩
  · obtain ⟨root, hroot, h⟩ := bind_ok h
    obtain ⟨hall, value, hroots, hids⟩ := canonicalDynamicScope_ok hroot
    have hsame : root = scope ∧ ∀ found, canonical = some found → found = root := by
      split at h
      · exact ⟨Except.ok.inj h, fun found hfound => by cases hfound⟩
      · rename_i found
        split at h
        · rename_i heq
          exact ⟨Except.ok.inj h, fun other hother => (Option.some.inj hother).symm.trans heq.symm⟩
        · cases h
    obtain ⟨rfl, hcanon⟩ := hsame
    refine ⟨?_, value, rootScope_names hroots, hids⟩
    rintro kind _ (⟨hkey, hvalue⟩ | ⟨hfields, hnames⟩)
    · exact hall kind _ (ScopeNames.alias hkey ((get_rootScope (mem_allAliases hkey)).trans hvalue))
    · obtain ⟨found, hfound, hok⟩ := scopeField_dict hfields hcanonical
      obtain rfl := hcanon found hfound
      exact (canonicalDynamicScope_ok hok).1 kind _ hnames

/-! ## The canonical form of a scope -/

theorem word_str {fields : Fields} {key default s : String} (h : Dict.get key fields = some (.str s)) (hne : s ≠ "") : lang.word fields key default = lowered s := by
  unfold Language.word
  rw [h]
  show lowered (if (s != "") = true then s else default) = lowered s
  rw [if_pos (by simpa using hne)]

/-- An object with a type and a list of identifiers has no alias. -/
theorem no_alias {type value : JsonValue} {kind : Kind} : ((aliases kind).filterMap fun key => Dict.get key [("type", type), ("ids", value)]) = [] := by
  have hforeign : ∀ key ∈ aliases kind, key ∉ ["type", "ids"] := by cases kind <;> decide
  exact List.filterMap_eq_nil_iff.2 fun key hkey => Dict.get_eq_none_iff.2 (hforeign key hkey)

theorem legacyCandidates_typed {type value : JsonValue} : legacyCandidates lang [("type", type), ("ids", value)] = .ok [] := by
  have hnone (kind : Kind) : legacyScopeCandidate lang [("type", type), ("ids", value)] kind = .ok none := by
    unfold legacyScopeCandidate
    rw [no_alias]
    rfl
  unfold legacyCandidates
  simp only [kinds, hnone]
  rfl

/-- A scope as it is stored is its own canonical form. -/
theorem canonicalDynamicScope_scopeValue {kind : Kind} {ids : List Ident} (h : Stored lang kind ids) : canonicalDynamicScope lang (scopeValue (kind, ids)) = .ok (kind, ids) := by
  have hkeys : rejectUnknownKeys [("type", .str kind.text), ("ids", idList ids)] (["type", "ids"] ++ allAliases) "Dynamic targets.scope" = .ok () :=
    rejectUnknownKeys_ok_iff.2 fun key hkey => List.mem_append_left _ hkey
  have hexplicit : explicitKind lang [("type", .str kind.text), ("ids", idList ids)] = .ok (some kind) := by
    unfold explicitKind
    rw [word_str rfl (by cases kind <;> decide)]
    cases kind <;> rfl
  have hids : withIds lang [("type", .str kind.text), ("ids", idList ids)] (some kind) [] = .ok [(kind, ids)] := by
    show (canonicalIds lang kind (idList ids) >>= fun values => _) = _
    rw [canonicalIds_idList h]
    rfl
  show (rejectUnknownKeys [("type", .str kind.text), ("ids", idList ids)] (["type", "ids"] ++ allAliases) "Dynamic targets.scope" >>= fun _ => _) = _
  rw [hkeys, ok_bind, hexplicit, ok_bind, legacyCandidates_typed, ok_bind, hids, ok_bind]
  cases kind <;> rfl

theorem keys_stored (scope : Kind × List Ident) (filter : Fields) : ∀ key ∈ (stored scope filter).map Prod.fst, key ∈ ["type", "scope", "filter"] := by
  intro key hkey
  unfold stored at hkey
  split at hkey
  · exact List.mem_append_left ["filter"] hkey
  · exact hkey

/-- Dynamic targets as they are stored name their scope. -/
theorem dynamicRootScope_stored {scope : Kind × List Ident} (h : Stored lang scope.1 scope.2) (filter : Fields) : dynamicRootScope lang (stored scope filter) = .ok scope := by
  have hkeys : rejectUnknownKeys (stored scope filter) (["type", "scope", "filter"] ++ allAliases) "Dynamic targets" = .ok () :=
    rejectUnknownKeys_ok_iff.2 fun key hkey => List.mem_append_left _ (keys_stored scope filter key hkey)
  have hscope : scopeField lang (stored scope filter) = .ok (some scope) := by
    show some <$> canonicalDynamicScope lang (scopeValue scope) = _
    rw [show scope = (scope.1, scope.2) from rfl, canonicalDynamicScope_scopeValue h]
    rfl
  have hforeign : ∀ key ∈ allAliases, key ∉ ["type", "scope", "filter"] := by decide
  have hroot : rootScope (stored scope filter) = [] :=
    List.filterMap_eq_nil_iff.2 fun key hkey => Option.map_eq_none_iff.2 (Dict.get_eq_none_iff.2 fun hmem => hforeign key hkey (keys_stored scope filter key hmem))
  unfold dynamicRootScope
  rw [hkeys, ok_bind, hscope, ok_bind, hroot]
  rfl

/-- Targets of a dynamic type as they are stored are their own canonical form. -/
theorem normalizeFields_stored {scope : Kind × List Ident} {filter : Fields} (h : Stored lang scope.1 scope.2) (hkey : reservedKey filter = none)
    (hvalue : reservedFilterValue (.dict filter) = none) : normalizeFields lang (stored scope filter) = .ok (stored scope filter) := by
  have htype : targetType lang (stored scope filter) = "dynamic" := (word_str rfl (by decide)).trans (by decide)
  have hfilter : (Dict.get "filter" (stored scope filter)).getD (.dict []) = .dict filter := by
    unfold stored
    split
    · rename_i hempty
      rw [hempty]
      rfl
    · rfl
  have hdynamic : dynamicTargets lang (stored scope filter) = .ok (stored scope filter) := by
    unfold dynamicTargets
    rw [dynamicRootScope_stored h, ok_bind, hfilter]
    simp only [hkey, hvalue]
    rfl
  unfold normalizeFields
  rw [htype, if_neg (by decide), hdynamic]
  rfl

/-! ## The forms -/

theorem filterOf_eq {fields filter : Fields} (h : (Dict.get "filter" fields).getD (.dict []) = .dict filter) : filterOf fields = filter := by
  unfold filterOf
  cases hget : Dict.get "filter" fields with
  | none =>
    rw [hget] at h
    exact JsonValue.dict.inj h
  | some value =>
    rw [hget] at h
    obtain rfl : value = .dict filter := h
    rfl

theorem normalize_dict (fields : Fields) : normalizeSchedulerTargets lang (.dict fields) = normalizeFields lang fields := by
  rw [normalizeSchedulerTargets, targetFields, ok_bind]

theorem accepted_of_normalize {fields result : Fields} (h : normalizeFields lang fields = .ok result) : Accepted lang fields result := by
  unfold normalizeFields at h
  split at h
  · rename_i hnone
    obtain ⟨-, -, h⟩ := bind_ok h
    obtain rfl := Except.ok.inj h
    exact Accepted.none hnone
  · split at h
    · rename_i kind hkind
      obtain ⟨-, -, h⟩ := bind_ok h
      split at h
      · cases h
      · rename_i value hvalue
        obtain ⟨ids, hids, h⟩ := bind_ok h
        obtain rfl := Except.ok.inj h
        exact Accepted.native hkind hvalue hids
    · rename_i hkind
      split at h
      · rename_i hdynamic
        unfold dynamicTargets at h
        obtain ⟨scope, hscope, h⟩ := bind_ok h
        split at h
        · rename_i filter hfilter
          split at h
          · cases h
          · rename_i hkey
            split at h
            · cases h
            · rename_i hvalue
              obtain rfl := Except.ok.inj h
              exact Accepted.dynamic hdynamic hscope hfilter hkey hvalue
        · cases h
      · rename_i hdynamic
        obtain rfl := Except.ok.inj h
        exact Accepted.module hkind hdynamic

end

end TargetsAux

end SchedulerTargets

end TecTac
