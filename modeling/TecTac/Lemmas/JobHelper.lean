import TecTac.JobHelper

/-!
# What the root helper's jobs do to the flags

`enabledIn` reads the flag of a module from the records. The lemmas say what each write leaves of it, what a plan of an
enable job went through, and that the file of a job reads as the records it wrote.
-/

namespace TecTac

open Raise

namespace Helper

/-- The flag of a module, unless its record cannot be read. -/
def enabledIn (modules : Records) (id : String) : Option Bool := (record modules id).toOption.map flag

/-- The flag of a module in the state file. -/
def fileEnabled (file : StateFile) (id : String) : Option Bool :=
  match loadModuleState file with
  | .ok s => enabledIn s.modules id
  | .error _ => none

/-- The manifests are trusted: every module once, under its own id, and every manifest keeps its rules. -/
structure Manifests.Trusted (manifests : Manifests) : Prop where
  keys : (manifests.map Prod.fst).Nodup
  ids : ∀ p ∈ manifests, p.2.id = p.1
  rules : ∀ p ∈ manifests, p.2.Allowed

/-! ## The writes -/

/-- The record of a module that was written. -/
theorem record_set (modules : Records) (id id' : String) (enabled : Bool) (fields : List (String × Json)) :
    record (Dict.set id (.obj (Dict.set "enabled" (.bool enabled) fields)) modules) id' =
      if id = id' then .ok (Dict.set "enabled" (.bool enabled) fields) else record modules id' := by
  unfold record
  rw [Dict.get_set]
  by_cases h : id = id'
  · have hne := Dict.set_ne_nil "enabled" (Json.bool enabled) fields
    simp [h, Json.truthy, hne]
  · simp [h]

theorem flag_set (enabled : Bool) (fields : List (String × Json)) :
    flag (Dict.set "enabled" (.bool enabled) fields) = enabled := by
  simp [flag, Json.truthy]

/-- What writing a flag leaves of the flags. -/
theorem enabledIn_setFlags {enabled : Bool} {ids : List String} {modules modules' : Records}
    (h : setFlags enabled ids modules = .ok modules') (id : String) :
    enabledIn modules' id = if id ∈ ids then some enabled else enabledIn modules id := by
  induction ids generalizing modules with
  | nil =>
    cases h
    simp
  | cons first ids ih =>
    obtain ⟨written, hwritten, h⟩ := bind_ok h
    obtain ⟨fields, _, hwritten⟩ := bind_ok hwritten
    cases hwritten
    rw [ih h]
    by_cases hrest : id ∈ ids
    · simp [hrest]
    · by_cases hfirst : first = id
      · simp [hrest, hfirst, enabledIn, record_set, flag_set, Except.toOption]
      · have hne : ¬ id = first := fun heq => hfirst heq.symm
        simp [hrest, hne, enabledIn, record_set, hfirst]

/-! ## The model of the flags -/

/-- Reading a dictionary that was built pair by pair, each under its own key. -/
theorem get_of_mapM {ν ν' : Type} {f : String × ν → Except String (String × ν')} {d : List (String × ν)}
    {d' : List (String × ν')}
    (hkey : ∀ p q, f p = .ok q → q.1 = p.1) (h : d.mapM f = .ok d') (k : String) :
    match Dict.get k d with
    | none => Dict.get k d' = none
    | some v => ∃ q, f (k, v) = .ok q ∧ Dict.get k d' = some q.2 := by
  induction d generalizing d' with
  | nil =>
    cases h
    rfl
  | cons p d ih =>
    rw [List.mapM_cons] at h
    obtain ⟨q, hq, h⟩ := bind_ok h
    obtain ⟨rest, hrest, h⟩ := bind_ok h
    cases h
    have hk := hkey p q hq
    obtain ⟨k', v⟩ := p
    rw [Dict.get_cons]
    by_cases heq : k' = k
    · rw [if_pos heq]
      dsimp only
      refine ⟨q, heq ▸ hq, ?_⟩
      obtain ⟨l, w⟩ := q
      rw [Dict.get_cons, if_pos (hk.trans heq)]
    · rw [if_neg heq]
      have hget : Dict.get k (q :: rest) = Dict.get k rest := by
        obtain ⟨l, w⟩ := q
        rw [Dict.get_cons, if_neg (fun hl => heq (hk.symm.trans hl))]
      rw [hget]
      exact ih hrest

/-- The manifest node with its flag is stored under its own key. -/
theorem key_of_node {modules : Records} (p : String × ManifestNode) (q : String × HelperNode)
    (h : (do let fields ← record modules p.1
             return (p.1, ({ p.2 with enabled := flag fields } : HelperNode))) = Except.ok q) : q.1 = p.1 := by
  obtain ⟨fields, _, h⟩ := bind_ok h
  cases h
  rfl

/-- A module without a manifest is not in the model. -/
theorem get_replacementModel_none {manifests : Manifests} {modules : Records} {model : HelperModel}
    (h : replacementModel manifests modules = .ok model) {id : String} (hget : Dict.get id manifests = none) :
    Dict.get id model = none := by
  have hread := get_of_mapM key_of_node h id
  rw [hget] at hread
  exact hread

/-- A node of the model is the manifest node with its flag. -/
theorem get_replacementModel {manifests : Manifests} {modules : Records} {model : HelperModel}
    (h : replacementModel manifests modules = .ok model) {id : String} {node : ManifestNode} (hget : Dict.get id manifests = some node) :
    ∃ enabled, enabledIn modules id = some enabled ∧ Dict.get id model = some { node with enabled := enabled } := by
  have hread := get_of_mapM key_of_node h id
  rw [hget] at hread
  obtain ⟨q, hq, hmodel⟩ := hread
  obtain ⟨fields, hfields, hq⟩ := bind_ok hq
  cases hq
  exact ⟨flag fields, by simp [enabledIn, hfields, Except.toOption], hmodel⟩

/-! ## The file -/

/-- Cleaning a source leaves the flag of a record. -/
theorem get_scrubRecord (urlsplit : String → Option UrlParts) (fields : List (String × Json)) :
    ∃ fields', scrubRecord urlsplit (.obj fields) = .obj fields' ∧ (fields' = [] ↔ fields = []) ∧
      Dict.get "enabled" fields' = Dict.get "enabled" fields := by
  cases hsource : Dict.get "source" fields with
  | none => exact ⟨fields, by simp [scrubRecord, hsource], Iff.rfl, rfl⟩
  | some source =>
    have hne : fields ≠ [] := by
      rintro rfl
      cases hsource
    cases source with
    | obj pairs =>
      cases hurl : Dict.get "repository_url" pairs with
      | none => exact ⟨fields, by simp [scrubRecord, hsource, hurl], Iff.rfl, rfl⟩
      | some url =>
        refine ⟨_, by simp only [scrubRecord, hsource, hurl]; rfl, ?_, ?_⟩
        · exact ⟨fun h => absurd h (Dict.set_ne_nil _ _ _), fun h => absurd h hne⟩
        · exact Dict.get_set_of_ne (by decide) _ _
    | _ => exact ⟨fields, by simp [scrubRecord, hsource], Iff.rfl, rfl⟩

/-- Cleaning the sources leaves every flag. -/
theorem enabledIn_scrub (urlsplit : String → Option UrlParts) (modules : Records) (id : String) :
    enabledIn (modules.map fun p => (p.1, scrubRecord urlsplit p.2)) id = enabledIn modules id := by
  have hget := Dict.get_mapValues (scrubRecord urlsplit) id modules
  unfold Dict.mapValues at hget
  unfold enabledIn record
  rw [hget]
  cases Dict.get id modules with
  | none => rfl
  | some j =>
    cases j with
    | obj fields =>
      obtain ⟨fields', heq, hnil, hflag⟩ := get_scrubRecord urlsplit fields
      simp only [Option.map_some, heq, Json.truthy]
      by_cases hempty : fields = []
      · simp [hempty, hnil.2 hempty]
      · have hne : fields' ≠ [] := fun h => hempty (hnil.1 h)
        simp [hempty, hne, Except.toOption, flag, hflag]
    | null => rfl
    | bool b => rfl
    | num n => rfl
    | str s => rfl
    | arr xs => rfl

/-- A state that was loaded has a schema. -/
theorem schema_of_load {file : StateFile} {s : State} (h : loadModuleState file = .ok s) : (Dict.get "schema" s).isSome := by
  unfold loadModuleState at h
  split at h
  · cases h
    rfl
  · cases h
  · rename_i payload
    have hschema : (Dict.get "schema" (if (Dict.get "schema" payload).isSome = true then payload
        else Dict.set "schema" (Json.num 1) payload)).isSome := by
      split
      · assumption
      · rw [Dict.get_set_self]
        rfl
    dsimp only at h
    split at h
    · cases h
      rw [Dict.get_set_of_ne (by decide)]
      exact hschema
    · cases h
      exact hschema
    · cases h
  · cases h

/-- A file that has a schema and its modules is loaded as it is. -/
theorem load_json {s : State} {modules : Records} (hschema : (Dict.get "schema" s).isSome)
    (hmodules : Dict.get "modules" s = some (.obj modules)) : loadModuleState (.json (.obj s)) = .ok s := by
  simp [loadModuleState, hschema, hmodules]

/-- What a write that answers read and what it left: the other keys of the state, and the records of the callback with their
sources cleaned. -/
theorem mutate_ok {α : Type} {urlsplit : String → Option UrlParts} {fault : Option String}
    {callback : Records → Except String (α × Records)} {file file' : StateFile} {answer : α}
    (h : mutateModuleState urlsplit fault callback file = (.ok answer, file')) :
    ∃ (s : State) (modules : Records) (s' : State), loadModuleState file = .ok s ∧ callback s.modules = .ok (answer, modules) ∧
      file' = .json (.obj s') ∧
      loadModuleState file' = .ok s' ∧ (∀ key, key ≠ "modules" → Dict.get key s' = Dict.get key s) ∧
      s'.modules = (modules.map fun p => (p.1, scrubRecord urlsplit p.2)) ∧ ((Dict.get "_corrupt" s).getD .null).truthy = false := by
  unfold mutateModuleState at h
  dsimp only at h
  split at h
  · rename_i answer' saved hsaved
    cases h
    obtain ⟨s, hs, hsaved⟩ := bind_ok hsaved
    obtain ⟨⟨answer'', modules⟩, hcallback, hsaved⟩ := bind_ok hsaved
    obtain ⟨written, hwritten, hsaved⟩ := bind_ok hsaved
    cases hsaved
    unfold saveModuleState at hwritten
    obtain ⟨_, hsound, hwritten⟩ := bind_ok hwritten
    cases fault with
    | some e => cases hwritten
    | none =>
      cases hwritten
      have hsound := of_require hsound
      rw [Dict.get_set_of_ne (by decide), Bool.not_eq_true'] at hsound
      have hmodules : State.modules (Dict.set "modules" (.obj modules) s) = modules := by simp [State.modules]
      rw [hmodules]
      have hkeys : ∀ key, key ≠ "modules" → Dict.get key (Dict.set "modules" (Json.obj (modules.map fun p =>
          (p.1, scrubRecord urlsplit p.2))) (Dict.set "modules" (.obj modules) s)) = Dict.get key s := by
        intro key hkey
        rw [Dict.get_set_of_ne hkey.symm, Dict.get_set_of_ne hkey.symm]
      refine ⟨s, modules, _, hs, hcallback, rfl, ?_, hkeys, ?_, hsound⟩
      · refine load_json ?_ (Dict.get_set_self _ _ _)
        rw [hkeys "schema" (by decide)]
        exact schema_of_load hs
      · simp only [State.modules, Dict.get_set_self]
  · cases h

/-- The file of a job that answers reads as the records that the job wrote. -/
theorem fileEnabled_mutate {α : Type} {urlsplit : String → Option UrlParts} {fault : Option String}
    {callback : Records → Except String (α × Records)} {file file' : StateFile} {answer : α}
    (h : mutateModuleState urlsplit fault callback file = (.ok answer, file')) :
    ∃ s modules, loadModuleState file = .ok s ∧ callback s.modules = .ok (answer, modules) ∧
      ∀ id, fileEnabled file' id = enabledIn modules id := by
  obtain ⟨s, modules, s', hs, hcallback, _, hs', _, hmodules, _⟩ := mutate_ok h
  refine ⟨s, modules, hs, hcallback, ?_⟩
  intro id
  unfold fileEnabled
  rw [hs']
  dsimp only
  rw [hmodules]
  exact enabledIn_scrub urlsplit modules id

end Helper

end TecTac
