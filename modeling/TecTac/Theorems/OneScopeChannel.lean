import TecTac.Lemmas.SchedulerTargets

/-!
# No second scope channel

The values of a filter are searched for references to a scope, its keys only for the reserved words themselves. So dynamic targets that are accepted have one scope channel exactly where every key
that is such a reference is one of the words.
-/

namespace TecTac

namespace SchedulerTargets

/-- A text that is a value somewhere in a value. -/
inductive Within (s : String) : JsonValue → Prop where
  | here : Within s (.str s)
  | item {x : JsonValue} {xs : List JsonValue} : x ∈ xs → Within s x → Within s (.list xs)
  | field {p : String × JsonValue} {fields : Fields} : p ∈ fields → Within s p.2 → Within s (.dict fields)

/-- The filter has no reference to a scope, as a key or as a value, and the scope has the kind and the identifiers of everything that was supplied. -/
structure OneChannel (lang : Language) (fields result : Fields) : Prop where
  keys : ∀ key ∈ (filterOf fields).map Prod.fst, scopeAliasToken key = none
  values : ∀ s, Within s (.dict (filterOf fields)) → scopeAliasToken s = none
  scope : ∃ kind ids, Dict.get "scope" result = some (scopeValue (kind, ids)) ∧ ∀ other value, Supplied lang fields other value → other = kind ∧ canonicalIds lang other value = .ok ids

namespace ChannelAux

mutual

/-- Nothing is found in a value exactly where none of its texts is a reference. -/
theorem value_none_iff : (v : JsonValue) → (reservedFilterValue v = none ↔ ∀ s, Within s v → scopeAliasToken s = none)
  | .str s => by
    rw [reservedFilterValue]
    constructor
    · intro h t ht
      cases ht
      exact h
    · exact fun h => h s Within.here
  | .list xs => by
    rw [reservedFilterValue, item_none_iff xs]
    constructor
    · intro h s hs
      cases hs with
      | item hx hs => exact h _ hx s hs
    · exact fun h x hx s hs => h s (Within.item hx hs)
  | .dict fields => by
    rw [reservedFilterValue, field_none_iff fields]
    constructor
    · intro h s hs
      cases hs with
      | field hp hs => exact h _ hp s hs
    · exact fun h p hp s hs => h s (Within.field hp hs)
  | .null | .bool _ | .num _ | .float _ _ | .other _ _ => iff_of_true (by simp [reservedFilterValue]) fun s hs => by cases hs

theorem item_none_iff : (xs : List JsonValue) → (reservedItem xs = none ↔ ∀ x ∈ xs, ∀ s, Within s x → scopeAliasToken s = none)
  | [] => by simp [reservedItem]
  | x :: xs => by
    rw [reservedItem, Option.or_eq_none_iff, value_none_iff x, item_none_iff xs]
    simp

theorem field_none_iff : (fields : Fields) → (reservedField fields = none ↔ ∀ p ∈ fields, ∀ s, Within s p.2 → scopeAliasToken s = none)
  | [] => by simp [reservedField]
  | (key, x) :: fields => by
    rw [reservedField, Option.or_eq_none_iff, value_none_iff x, field_none_iff fields]
    simp

end

theorem reservedKey_none {filter : Fields} (h : reservedKey filter = none) : ∀ key ∈ filter.map Prod.fst, lowered key ∉ reservedFilterScopeKeys := by
  intro key hkey hmem
  exact List.find?_eq_none.1 h (lowered key) (List.mem_map_of_mem hkey) (List.contains_iff_mem.2 hmem)

end ChannelAux

open TargetsAux ChannelAux

/-- Dynamic targets that are accepted have one scope channel exactly where each key that refers to a scope is, stripped and in lower case, one of the reserved words. -/
theorem oneChannel_iff_literal (lang : Language) {fields result : Fields} (hdynamic : targetType lang fields = "dynamic") (h : normalizeSchedulerTargets lang (.dict fields) = .ok result) :
    OneChannel lang fields result ↔ ∀ key ∈ (filterOf fields).map Prod.fst, scopeAliasToken key ≠ none → lowered key ∈ reservedFilterScopeKeys := by
  rw [normalize_dict] at h
  have hnative : nativeKind "dynamic" = none := by decide
  cases accepted_of_normalize h with
  | none hnone => exact absurd hnone (by rw [hdynamic]; decide)
  | native hkind =>
    rw [hdynamic, hnative] at hkind
    cases hkind
  | module _ hother => exact absurd hdynamic hother
  | dynamic _ hscope hfilter hkey hvalue =>
    rename_i filter scope _
    obtain rfl := filterOf_eq hfilter
    constructor
    · exact fun hone key hmem hsome => absurd (hone.keys key hmem) hsome
    · intro hliteral
      refine ⟨fun key hmem => ?_, (value_none_iff _).1 hvalue, scope.1, scope.2, rfl, (dynamicRootScope_ok hscope).1⟩
      by_contra hsome
      exact reservedKey_none hkey key hmem (hliteral key hmem hsome)

/-- Dynamic targets of one client, with a filter. -/
def filteredTargets (filter : Fields) : Fields := stored (.client, [.number 17]) filter

namespace ChannelAux

theorem filteredTargets_ok {filter : Fields} (hkey : reservedKey filter = none) (hvalue : reservedFilterValue (.dict filter) = none) :
    normalizeSchedulerTargets wordless (.dict (filteredTargets filter)) = .ok (filteredTargets filter) :=
  (normalize_dict _).trans (normalizeFields_stored ⟨List.nodup_singleton _, fun id hid => by
    obtain rfl := List.mem_singleton.1 hid
    exact numberIdent_num .client (by decide)⟩ hkey hvalue)

end ChannelAux

/-- The endpoints of a client with an operating system have one channel. -/
theorem plain_filter_one_channel : OneChannel wordless (filteredTargets [("os", .str "windows")]) (filteredTargets [("os", .str "windows")]) :=
  (oneChannel_iff_literal wordless (by decide) (filteredTargets_ok (by decide) (by decide))).2 (by decide)

/-- A site in the key of a filter is a second channel. -/
theorem siteId_key_is_accepted : normalizeSchedulerTargets wordless (.dict (filteredTargets [("siteId", .num 999)])) = .ok (filteredTargets [("siteId", .num 999)]) ∧
    ¬ OneChannel wordless (filteredTargets [("siteId", .num 999)]) (filteredTargets [("siteId", .num 999)]) :=
  ⟨filteredTargets_ok (by decide) (by decide), fun h => absurd (h.keys "siteId" List.mem_cons_self) (by decide)⟩

end SchedulerTargets

end TecTac
