import TecTac.Lemmas.SchedulerTargets

/-!
# The canonical form of targets

What targets are normalised to is its own canonical form and names the same scope. Two objects of one type and with one filter have the same canonical form where they name the same identifiers of a
kind in the same order, each where it is named first; the order itself is kept.
-/

namespace TecTac

namespace SchedulerTargets

/-- An object names identifiers of a kind: by the list of a native type, or by the scope or an alias of dynamic targets. -/
inductive Names (lang : Language) (fields : Fields) (kind : Kind) (ids : List Ident) : Prop where
  | native {value : JsonValue} : nativeKind (targetType lang fields) = some kind → Dict.get "ids" fields = some value → canonicalIds lang kind value = .ok ids → Names lang fields kind ids
  | dynamic {value : JsonValue} : targetType lang fields = "dynamic" → Supplied lang fields kind value → canonicalIds lang kind value = .ok ids → Names lang fields kind ids

/-- The canonical form of an object of a type that names a scope. -/
def formOf (type : String) (scope : Kind × List Ident) (filter : Fields) : Fields :=
  if type = "dynamic" then stored scope filter else [("type", .str type), ("ids", idList scope.2)]

namespace CanonicalAux

open TargetsAux

theorem nativeKind_dynamic : nativeKind "dynamic" = none := by decide

theorem lowered_of_nativeKind {type : String} {kind : Kind} (h : nativeKind type = some kind) : lowered type = type ∧ type ≠ "" ∧ type ≠ "none" := by
  have hall : ∀ p ∈ nativeKinds, lowered p.1 = p.1 ∧ p.1 ≠ "" ∧ p.1 ≠ "none" := by decide
  exact hall (type, kind) (Dict.mem_of_get h)

/-- What an object is normalised to is its own canonical form. -/
theorem normalizeFields_result {lang : Language} {fields result : Fields} (h : normalizeFields lang fields = .ok result) : normalizeFields lang result = .ok result := by
  cases accepted_of_normalize h with
  | none hnone =>
    have htype : targetType lang [("type", .str "none")] = "none" := (word_str rfl (by decide)).trans (by decide)
    unfold normalizeFields
    rw [htype, if_pos (Or.inr rfl), rejectUnknownKeys_ok_iff.2 (by decide), Raise.ok_bind]
    rfl
  | native hkind _ hids =>
    rename_i kind value ids _
    obtain ⟨hlowered, hempty, hnone⟩ := lowered_of_nativeKind hkind
    have htype : targetType lang [("type", .str (targetType lang fields)), ("ids", idList ids)] = targetType lang fields := (word_str rfl hempty).trans hlowered
    have hkeys : rejectUnknownKeys [("type", .str (targetType lang fields)), ("ids", idList ids)] ["type", "ids"] "Tactical-native targets" = .ok () :=
      rejectUnknownKeys_ok_iff.2 fun key hkey => hkey
    unfold normalizeFields
    rw [htype, if_neg (by simp [hempty, hnone]), hkind]
    show (rejectUnknownKeys [("type", .str (targetType lang fields)), ("ids", idList ids)] ["type", "ids"] "Tactical-native targets" >>= fun _ => canonicalIds lang kind (idList ids) >>= fun ids =>
      pure [("type", .str (targetType lang fields)), ("ids", idList ids)]) = _
    rw [hkeys, Raise.ok_bind, canonicalIds_idList (stored_of_canonicalIds hids), Raise.ok_bind]
    rfl
  | dynamic _ hscope _ hkey hvalue =>
    obtain ⟨value, -, hids⟩ := (dynamicRootScope_ok hscope).2
    exact normalizeFields_stored (stored_of_canonicalIds hids) hkey hvalue
  | module => exact h

/-- The canonical form of an object is given by its type, the scope that it names and its filter. -/
theorem form_of_names {lang : Language} {fields result : Fields} {kind : Kind} {ids : List Ident} (h : normalizeFields lang fields = .ok result) (hnames : Names lang fields kind ids) :
    result = formOf (targetType lang fields) (kind, ids) (filterOf fields) := by
  unfold formOf
  rcases hnames with ⟨hkind, hvalue, hids⟩ | ⟨hdynamic, hsupplied, hids⟩
  · have hother : targetType lang fields ≠ "dynamic" := fun hdynamic => by
      rw [hdynamic, nativeKind_dynamic] at hkind
      cases hkind
    obtain ⟨-, hempty, hnone⟩ := lowered_of_nativeKind hkind
    rw [if_neg hother]
    cases accepted_of_normalize h with
    | none htype => exact absurd htype (by simp [hempty, hnone])
    | native hkind' hvalue' hids' =>
      obtain rfl := Option.some.inj (hkind.symm.trans hkind')
      obtain rfl := Option.some.inj (hvalue.symm.trans hvalue')
      obtain rfl := Except.ok.inj (hids.symm.trans hids')
      rfl
    | dynamic hdynamic => exact absurd hdynamic hother
    | module hmodule => cases hkind.symm.trans hmodule
  · rw [if_pos hdynamic]
    cases accepted_of_normalize h with
    | none htype => exact absurd htype (by rw [hdynamic]; decide)
    | native hkind =>
      rw [hdynamic, nativeKind_dynamic] at hkind
      cases hkind
    | dynamic _ hscope hfilter =>
      rename_i filter scope _ _
      obtain ⟨rfl, hscopeIds⟩ := (dynamicRootScope_ok hscope).1 _ _ hsupplied
      obtain rfl := Except.ok.inj (hids.symm.trans hscopeIds)
      rw [filterOf_eq hfilter]
    | module _ hother => exact absurd hdynamic hother

end CanonicalAux

open TargetsAux CanonicalAux

/-- Targets that are accepted are normalised to what is its own canonical form and names the same scope, and every object of the same type and with the same filter that is accepted has that form
too where it names the same identifiers. -/
theorem canonical_form_stable (lang : Language) {targets : JsonValue} {result : Fields} (h : normalizeSchedulerTargets lang targets = .ok result) :
    normalizeSchedulerTargets lang (.dict result) = .ok result ∧ tacticalScopeRef lang (.dict result) = tacticalScopeRef lang targets ∧
      ∀ fields, targets = .dict fields → ∀ other result' kind ids, normalizeSchedulerTargets lang (.dict other) = .ok result' → targetType lang other = targetType lang fields →
        filterOf other = filterOf fields → Names lang fields kind ids → Names lang other kind ids → result' = result := by
  have hstable : normalizeSchedulerTargets lang (.dict result) = .ok result := by
    obtain ⟨fields, -, hfields⟩ := Raise.bind_ok h
    rw [normalize_dict]
    exact normalizeFields_result hfields
  refine ⟨hstable, ?_, ?_⟩
  · unfold tacticalScopeRef
    rw [hstable, h]
  · rintro fields rfl other result' kind ids hother htype hfilter hnames hnames'
    rw [normalize_dict] at h hother
    rw [form_of_names h hnames, form_of_names hother hnames', htype, hfilter]

/-- Dynamic targets of these clients. -/
def clientTargets (ids : List Int) : Fields := stored (.client, ids.map Ident.number) []

namespace CanonicalAux

theorem clientTargets_ok {ids : List Int} (hnodup : ids.Nodup) (hpos : ∀ n ∈ ids, 0 < n) : normalizeSchedulerTargets wordless (.dict (clientTargets ids)) = .ok (clientTargets ids) := by
  rw [normalize_dict]
  refine normalizeFields_stored ⟨hnodup.map fun a b hab => Ident.number.inj hab, fun id hid => ?_⟩ (by decide) (by simp [reservedFilterValue, reservedField])
  obtain ⟨n, hn, rfl⟩ := List.mem_map.1 hid
  exact numberIdent_num .client (hpos n hn)

theorem agents_ok : normalizeSchedulerTargets wordless (.dict [("type", .str " Agents"), ("ids", .list [.str "a", .str "a "])]) = .ok [("type", .str "agents"), ("ids", idList [.text "a"])] := by
  have htype : targetType wordless [("type", .str " Agents"), ("ids", .list [.str "a", .str "a "])] = "agents" := (word_str rfl (by decide)).trans (by decide)
  have hids : canonicalIds wordless .endpoint (.list [.str "a", .str "a "]) = .ok [.text "a"] := by decide
  have hkeys : rejectUnknownKeys [("type", .str " Agents"), ("ids", .list [.str "a", .str "a "])] ["type", "ids"] "Tactical-native targets" = .ok () :=
    rejectUnknownKeys_ok_iff.2 fun key hkey => hkey
  rw [normalize_dict, normalizeFields, htype, if_neg (by decide)]
  show (rejectUnknownKeys _ ["type", "ids"] "Tactical-native targets" >>= fun _ => canonicalIds wordless .endpoint (.list [.str "a", .str "a "]) >>= fun ids =>
    pure [("type", .str "agents"), ("ids", idList ids)]) = _
  rw [hkeys, Raise.ok_bind, hids]
  rfl

end CanonicalAux

/-- An endpoint that is given twice is stored once and stays so. -/
theorem agents_stay_canonical : normalizeSchedulerTargets wordless (.dict [("type", .str "agents"), ("ids", idList [.text "a"])]) = .ok [("type", .str "agents"), ("ids", idList [.text "a"])] :=
  (canonical_form_stable wordless agents_ok).1

/-- The same clients in another order have another form. -/
theorem order_of_clients_is_kept : normalizeSchedulerTargets wordless (.dict (clientTargets [1, 2])) = .ok (clientTargets [1, 2]) ∧
    normalizeSchedulerTargets wordless (.dict (clientTargets [2, 1])) = .ok (clientTargets [2, 1]) ∧ clientTargets [1, 2] ≠ clientTargets [2, 1] := by
  refine ⟨clientTargets_ok (by decide) (by decide), clientTargets_ok (by decide) (by decide), fun h => ?_⟩
  simp [clientTargets, stored, scopeValue, idList, Ident.value] at h

end SchedulerTargets

end TecTac
