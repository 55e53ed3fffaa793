import TecTac.AuditRecord

/-!
# What an audit row keeps

The two reductions keep Core's keys and the limit. The correlation id is read from the operation context after the first of them, so one that is too large takes its id with it.
-/

namespace TecTac

namespace Audit

/-- The fields of an object that was given. -/
def given : JsonValue → List (String × JsonValue)
  | .dict fields => fields
  | _ => []

/-- The row without any limit. -/
def original (texts : Texts) (fresh : String) (writer : Writer) (c : RowCall) : List (String × JsonValue) :=
  debugInfo c (rowCorrelationId texts fresh c (given writer.context)) (given c.metadata) (given writer.context)

/-- The row after the first reductions. -/
def reduced (limit : Int) (texts : Texts) (fresh : String) (writer : Writer) (c : RowCall) : List (String × JsonValue) :=
  let context := (safeContext limit (given writer.context)).toOption.getD []
  debugInfo c (rowCorrelationId texts fresh c context) ((safeMetadata limit c.metadata).toOption.getD []) context

/-- Core's own keys and two markers fit. -/
def MarkersFit (limit : Int) (texts : Texts) (fresh : String) (writer : Writer) (c : RowCall) : Prop :=
  let row := reduced limit texts fresh writer c
  (debugInfoBytes (Dict.set "operation_context" (.dict (markerOf row "operation_context")) (Dict.set "metadata" (.dict (markerOf row "metadata")) row)) : Int) ≤ limit

/-- What is promised of a stored row. -/
structure ProvenanceKept (limit : Int) (texts : Texts) (fresh : String) (writer : Writer) (c : RowCall) (row : List (String × JsonValue)) : Prop where
  fits : ∃ n : Nat, JsonValue.bytes (.dict row) = some n ∧ (n : Int) ≤ limit
  keys : ∀ key, key ≠ "metadata" → key ≠ "operation_context" → Dict.get key row = Dict.get key (original texts fresh writer c)
  core : ∀ key value, Dict.get key writer.coreContext = some value → value ≠ .null → Dict.get key (fieldsOf (Dict.get "operation_context" row)) = some value
  untouched : ∀ n a b : Nat, JsonValue.bytes (.dict (original texts fresh writer c)) = some n → (n : Int) ≤ limit →
    JsonValue.bytes (.dict (given c.metadata)) = some a → (a : Int) ≤ budget limit → JsonValue.bytes (.dict (given writer.context)) = some b → (b : Int) ≤ budget limit →
    row = original texts fresh writer c
  foreign : ∀ context, writer = .record context → ∀ key ∈ coreContextKeys, Dict.get key (fieldsOf (Dict.get "operation_context" row)) = none

/-- The text of the id that an operation context includes. -/
def includedId (texts : Texts) (context : List (String × JsonValue)) : String :=
  let value := (Dict.get "correlation_id" context).getD .null
  stripText (if value.truthy then texts.str value else "")

/-- The row does not rest on an id inside an operation context that is replaced. -/
def IncludedIdKept (limit : Int) (texts : Texts) (fresh : String) (writer : Writer) (c : RowCall) : Prop :=
  c.correlationId.truthy = true ∨ (∃ n : Nat, JsonValue.bytes (.dict (given writer.context)) = some n ∧ (n : Int) ≤ budget limit) ∨
    includedId texts (given writer.context) = "" ∨ cut 255 (includedId texts (given writer.context)) = fresh

namespace ProvenanceAux

open JsonValue Raise

/-! ## What can be written -/

/-- Every value can be written. -/
def Writable (fields : List (String × JsonValue)) : Prop := ∀ p ∈ fields, (bytes p.2).isSome = true

theorem Writable.set {fields : List (String × JsonValue)} (h : Writable fields) {v : JsonValue} (hv : (bytes v).isSome = true) (key : String) :
    Writable (Dict.set key v fields) := by
  intro p hp
  rcases Dict.mem_set hp with rfl | hp
  · exact hv
  · exact h p hp

theorem Writable.dict {fields : List (String × JsonValue)} (h : Writable fields) : (bytes (.dict fields)).isSome = true := by
  rw [bytes_dict, Option.isSome_map]
  exact fieldsBytes_isSome h

theorem Writable.carry {fields : List (String × JsonValue)} (h : Writable fields) {value : Option JsonValue} (hv : ∀ v, value = some v → (bytes v).isSome = true)
    (key : String) : Writable (carry key value fields) := by
  cases value with
  | none => exact h
  | some v => exact h.set (hv v rfl) key

theorem writable_str {value : Option String} : ∀ v, value.map JsonValue.str = some v → (bytes v).isSome = true := by
  intro v hv
  obtain ⟨s, -, rfl⟩ := Option.map_eq_some_iff.1 hv
  rfl

theorem Writable.keep {marker : List (String × JsonValue)} (h : Writable marker) (original : List (String × JsonValue)) : Writable (keepBrowserProvenance marker original) := by
  have htrue : ∀ v, isTrue (Dict.get "core_refusal" original) = some v → (bytes v).isSome = true := by
    intro v hv
    unfold isTrue at hv
    split at hv
    · obtain rfl := Option.some.inj hv
      rfl
    · cases hv
  have hnumber : ∀ v, wholeNumber (Dict.get "tactical_status" original) = some v → (bytes v).isSome = true := by
    intro v hv
    unfold wholeNumber at hv
    split at hv
    · obtain rfl := Option.some.inj hv
      rfl
    · cases hv
  have hprovenance : ∀ v, (shortText (Dict.get "browser_provenance" original)).map JsonValue.str = some v → (bytes v).isSome = true := writable_str
  have hfront := (h.carry hprovenance "browser_provenance").carry htrue "core_refusal"
  unfold keepBrowserProvenance keepServer
  split
  · exact hfront
  · exact ((hfront.set rfl "server_provenance").carry writable_str "operation").carry hnumber "tactical_status"

theorem writable_tooLarge (n : Nat) : Writable (tooLarge n) := by
  intro p hp
  simp only [tooLarge, List.mem_cons, List.not_mem_nil, or_false] at hp
  rcases hp with rfl | rfl
  · rfl
  · rfl

theorem writable_unprocessed : Writable [("error", .str "could not process audit metadata")] := by
  intro p hp
  obtain rfl := List.mem_singleton.1 hp
  rfl

theorem safeMetadata_writable {limit : Int} {v : JsonValue} {fields : List (String × JsonValue)} (h : safeMetadata limit v = .ok fields) :
    (bytes (.dict fields)).isSome = true := by
  unfold safeMetadata at h
  split at h
  · obtain rfl := Except.ok.inj h
    rfl
  · split at h
    · obtain rfl := Except.ok.inj h
      exact writable_unprocessed.dict
    · rename_i n hn
      split at h
      · obtain rfl := Except.ok.inj h
        exact (writable_tooLarge n).dict
      · obtain rfl := Except.ok.inj h
        rw [hn]
        rfl
  · cases h

theorem safeContext_writable {limit : Int} {context kept : List (String × JsonValue)} (h : safeContext limit context = .ok kept) : (bytes (.dict kept)).isSome = true := by
  unfold safeContext at h
  split at h
  · rename_i n hn
    split at h
    · obtain rfl := Except.ok.inj h
      exact ((writable_tooLarge n).keep context).dict
    · obtain rfl := Except.ok.inj h
      rw [hn]
      rfl
  · obtain rfl := Except.ok.inj h
    exact (writable_unprocessed.keep context).dict

theorem writable_optionalKey (key : String) (value : Option String) : Writable (optionalKey key value) := by
  cases value with
  | none => nofun
  | some s =>
    intro p hp
    obtain rfl := List.mem_singleton.1 hp
    rfl

theorem Writable.append {a b : List (String × JsonValue)} (ha : Writable a) (hb : Writable b) : Writable (a ++ b) := by
  intro p hp
  rcases List.mem_append.1 hp with hp | hp
  · exact ha p hp
  · exact hb p hp

theorem Writable.cons {fields : List (String × JsonValue)} (h : Writable fields) {key : String} {v : JsonValue} (hv : (bytes v).isSome = true) : Writable ((key, v) :: fields) := by
  intro p hp
  rcases List.mem_cons.1 hp with rfl | hp
  · exact hv
  · exact h p hp

theorem writable_nil : Writable [] := nofun

theorem writable_info (actor : Actor) : Writable actor.info := by
  cases actor with
  | background kind identity moduleId service deviceId =>
    exact (((writable_nil.cons rfl).cons rfl).cons rfl |>.append (writable_optionalKey _ service)).append (writable_optionalKey _ deviceId)
  | human username authority viaModule =>
    exact ((writable_nil.cons rfl).cons rfl |>.append (writable_optionalKey _ authority)).append (writable_optionalKey _ viaModule)

theorem writable_debugInfo (c : RowCall) (correlationId : String) {metadata context : List (String × JsonValue)} (hmetadata : (bytes (.dict metadata)).isSome = true)
    (hcontext : (bytes (.dict context)).isSome = true) : Writable (debugInfo c correlationId metadata context) :=
  ((((writable_nil.cons rfl).cons rfl).cons rfl |>.append (writable_optionalKey _ _)).append (((writable_nil.cons hcontext).cons hmetadata).cons rfl)).append
    (writable_info c.actor)

/-! ## Keys -/

theorem get_optionalKey_of_ne {key key' : String} (h : key' ≠ key) (value : Option String) : Dict.get key (optionalKey key' value) = none := by
  cases value with
  | none => rfl
  | some s => rw [optionalKey, Dict.get_cons, if_neg h, Dict.get_nil]

theorem get_correlationId (c : RowCall) (cid : String) (metadata context : List (String × JsonValue)) :
    Dict.get "correlation_id" (debugInfo c cid metadata context) = some (.str cid) := by
  simp [debugInfo, Dict.get_append, Dict.get_cons, get_optionalKey_of_ne]

theorem get_metadata (c : RowCall) (cid : String) (metadata context : List (String × JsonValue)) :
    Dict.get "metadata" (debugInfo c cid metadata context) = some (.dict metadata) := by
  simp [debugInfo, Dict.get_append, Dict.get_cons, get_optionalKey_of_ne]

theorem get_context (c : RowCall) (cid : String) (metadata context : List (String × JsonValue)) :
    Dict.get "operation_context" (debugInfo c cid metadata context) = some (.dict context) := by
  simp [debugInfo, Dict.get_append, Dict.get_cons, get_optionalKey_of_ne]

/-- Every other key is the same in two rows of a call. -/
theorem get_other (c : RowCall) {key : String} (hcid : key ≠ "correlation_id") (hmetadata : key ≠ "metadata") (hcontext : key ≠ "operation_context") (cid cid' : String)
    (metadata metadata' context context' : List (String × JsonValue)) :
    Dict.get key (debugInfo c cid metadata context) = Dict.get key (debugInfo c cid' metadata' context') := by
  have hown : ∀ (cid : String) (metadata context : List (String × JsonValue)),
      Dict.get key [("correlation_id", JsonValue.str cid), ("metadata", .dict metadata), ("operation_context", .dict context)] = none := by
    intro cid metadata context
    rw [Dict.get_cons, if_neg hcid.symm, Dict.get_cons, if_neg hmetadata.symm, Dict.get_cons, if_neg hcontext.symm, Dict.get_nil]
  simp only [debugInfo, Dict.get_append, hown]

/-! ## What a marker carries over -/

/-- A pair that a marker carries over. -/
inductive Carried (original : List (String × JsonValue)) : String → JsonValue → Prop
  | browser {s : String} (h : shortText (Dict.get "browser_provenance" original) = some s) : Carried original "browser_provenance" (.str s)
  | refusal (h : Dict.get "core_refusal" original = some (.bool true)) : Carried original "core_refusal" (.bool true)
  | server {s : String} (h : shortText (Dict.get "server_provenance" original) = some s) : Carried original "server_provenance" (.str s)
  | operation {s t : String} (h : shortText (Dict.get "server_provenance" original) = some s) (hoperation : shortText (Dict.get "operation" original) = some t) :
      Carried original "operation" (.str t)
  | status {s : String} {n : Int} (h : shortText (Dict.get "server_provenance" original) = some s) (hstatus : Dict.get "tactical_status" original = some (.num n)) :
      Carried original "tactical_status" (.num n)

theorem get_carry (key key' : String) (value : Option JsonValue) (marker : List (String × JsonValue)) :
    Dict.get key (carry key' value marker) = if key' = key then value.or (Dict.get key marker) else Dict.get key marker := by
  cases value with
  | none => simp [carry]
  | some v => simp [carry, Dict.get_set]

theorem of_shortText {value : Option JsonValue} {s : String} (h : shortText value = some s) : value = some (.str s) ∧ s.length ≤ 100 := by
  unfold shortText at h
  split at h
  · split at h
    · rename_i hlength
      obtain rfl := Option.some.inj h
      exact ⟨rfl, hlength⟩
    · cases h
  · cases h

theorem get_keep_carried {marker original : List (String × JsonValue)} {key : String} {value : JsonValue} (h : Carried original key value) :
    Dict.get key (keepBrowserProvenance marker original) = some value := by
  cases h with
  | browser h =>
    unfold keepBrowserProvenance keepServer
    split
    · simp [get_carry, h]
    · simp [get_carry, Dict.get_set, h]
  | refusal h =>
    unfold keepBrowserProvenance keepServer
    split
    · simp [get_carry, h, isTrue]
    · simp [get_carry, Dict.get_set, h, isTrue]
  | server h => simp [keepBrowserProvenance, keepServer, get_carry, h]
  | operation h hoperation => simp [keepBrowserProvenance, keepServer, get_carry, h, hoperation]
  | status h hstatus => simp [keepBrowserProvenance, keepServer, get_carry, h, hstatus, wholeNumber]

/-- What is carried over once is carried over again. -/
theorem Carried.keep {marker original : List (String × JsonValue)} {key : String} {value : JsonValue} (h : Carried original key value) :
    Carried (keepBrowserProvenance marker original) key value := by
  have hshort : ∀ {key : String} {s : String}, shortText (Dict.get key original) = some s → Carried original key (.str s) →
      shortText (Dict.get key (keepBrowserProvenance marker original)) = some s := by
    intro key s hs hcarried
    rw [get_keep_carried hcarried, shortText, if_pos (of_shortText hs).2]
  cases h with
  | browser h => exact .browser (hshort h (.browser h))
  | refusal h => exact .refusal (get_keep_carried (.refusal h))
  | server h => exact .server (hshort h (.server h))
  | operation h hoperation => exact .operation (hshort h (.server h)) (hshort hoperation (.operation h hoperation))
  | status h hstatus => exact .status (hshort h (.server h)) (get_keep_carried (.status h hstatus))

/-- Without Core's keys a marker gets none. -/
theorem get_keep_foreign {marker original : List (String × JsonValue)} (h : ∀ key ∈ coreContextKeys, Dict.get key original = none) :
    keepBrowserProvenance marker original = marker := by
  have hbrowser := h "browser_provenance" (by decide)
  have hrefusal := h "core_refusal" (by decide)
  have hserver := h "server_provenance" (by decide)
  simp [keepBrowserProvenance, keepServer, hbrowser, hrefusal, hserver, shortText, isTrue, carry]

/-! ## The second reduction -/

/-- What a row may have become: the parts as they were, or their markers. -/
structure Shrunk (info row : List (String × JsonValue)) : Prop where
  other : ∀ key, key ≠ "metadata" → key ≠ "operation_context" → Dict.get key row = Dict.get key info
  context : Dict.get "operation_context" row = Dict.get "operation_context" info ∨
    Dict.get "operation_context" row = some (.dict (markerOf info "operation_context"))
  writable : Writable row

theorem writable_markerOf (info : List (String × JsonValue)) (key : String) : Writable (markerOf info key) := by
  unfold markerOf
  dsimp only
  split
  · exact (writable_tooLarge _).keep _
  · exact writable_tooLarge _

theorem Shrunk.set {info row : List (String × JsonValue)} (h : Shrunk info row) {key : String} (hkey : key = "metadata" ∨ key = "operation_context") :
    Shrunk info (Dict.set key (.dict (markerOf info key)) row) where
  other k hmetadata hcontext := by
    rcases hkey with rfl | rfl
    · rw [Dict.get_set_of_ne hmetadata.symm, h.other k hmetadata hcontext]
    · rw [Dict.get_set_of_ne hcontext.symm, h.other k hmetadata hcontext]
  context := by
    rcases hkey with rfl | rfl
    · rw [Dict.get_set_of_ne (by decide)]
      exact h.context
    · rw [Dict.get_set_self]
      exact .inr rfl
  writable := h.writable.set (writable_markerOf info key).dict key

theorem shrink_shrunk {limit : Int} {info row : List (String × JsonValue)} {keys : List String} (hkeys : ∀ key ∈ keys, key = "metadata" ∨ key = "operation_context")
    (h : Shrunk info row) : Shrunk info (shrink limit info keys row) := by
  induction keys generalizing row with
  | nil => exact h
  | cons key keys ih =>
    have hset := h.set (hkeys key List.mem_cons_self)
    rw [shrink]
    split
    · exact hset
    · exact ih (fun k hk => hkeys k (List.mem_cons_of_mem _ hk)) hset

theorem Shrunk.start {info : List (String × JsonValue)} (h : Writable info) : Shrunk info info where
  other _ _ _ := rfl
  context := .inl rfl
  writable := h

theorem mem_order {info : List (String × JsonValue)} {key : String}
    (h : key ∈ (["metadata", "operation_context"].filter fun key => (Dict.get key info).isSome).insertionSort fun a b => partBytes info b ≤ partBytes info a) :
    key = "metadata" ∨ key = "operation_context" := by
  rw [List.mem_insertionSort, List.mem_filter] at h
  simpa using h.1

theorem fit_shrunk (limit : Int) {info : List (String × JsonValue)} (h : Writable info) : Shrunk info (fitDebugInfo limit info) := by
  unfold fitDebugInfo
  split
  · exact .start h
  · exact shrink_shrunk (fun _ => mem_order) (.start h)

/-- Both parts are there, so they are replaced in one of two orders. -/
theorem order_cases {info : List (String × JsonValue)} (hmetadata : (Dict.get "metadata" info).isSome = true) (hcontext : (Dict.get "operation_context" info).isSome = true) :
    (["metadata", "operation_context"].filter fun key => (Dict.get key info).isSome).insertionSort (fun a b => partBytes info b ≤ partBytes info a) =
      if partBytes info "operation_context" ≤ partBytes info "metadata" then ["metadata", "operation_context"] else ["operation_context", "metadata"] := by
  have hpresent : (["metadata", "operation_context"].filter fun key => (Dict.get key info).isSome) = ["metadata", "operation_context"] := by
    simp [hmetadata, hcontext]
  rw [hpresent, List.insertionSort_cons, List.insertionSort_cons, List.insertionSort_nil, List.orderedInsert_nil, List.orderedInsert_cons]
  split
  · rfl
  · rfl

theorem shrink_last (limit : Int) (info row : List (String × JsonValue)) (key : String) : shrink limit info [key] row = Dict.set key (.dict (markerOf info key)) row := by
  simp only [shrink, ite_self]

/-- When both markers fit, the row fits. -/
theorem fit_fits {limit : Int} {info : List (String × JsonValue)} (hmetadata : (Dict.get "metadata" info).isSome = true)
    (hcontext : (Dict.get "operation_context" info).isSome = true)
    (hmarkers : (debugInfoBytes (Dict.set "operation_context" (.dict (markerOf info "operation_context")) (Dict.set "metadata" (.dict (markerOf info "metadata")) info)) : Int) ≤ limit) :
    (debugInfoBytes (fitDebugInfo limit info) : Int) ≤ limit := by
  unfold fitDebugInfo
  split
  · assumption
  · dsimp only
    rw [order_cases hmetadata hcontext]
    split
    · rw [shrink, shrink_last]
      split
      · assumption
      · exact hmarkers
    · rw [shrink, shrink_last]
      split
      · assumption
      · rw [Dict.set_comm (by decide) _ _ hmetadata hcontext]
        exact hmarkers

theorem bytes_of_writable {row : List (String × JsonValue)} (h : Writable row) : bytes (.dict row) = some (debugInfoBytes row) := by
  obtain ⟨n, hn⟩ := Option.isSome_iff_exists.1 h.dict
  rw [debugInfoBytes, hn]
  rfl

/-! ## Small operation contexts -/

theorem bytes_set {row : List (String × JsonValue)} (h : Writable row) {key : String} {old new : List (String × JsonValue)} (hget : Dict.get key row = some (.dict old))
    (hold : (bytes (.dict old)).isSome = true) (hnew : (bytes (.dict new)).isSome = true) :
    debugInfoBytes (Dict.set key (.dict new) row) + debugInfoBytes old = debugInfoBytes row + debugInfoBytes new := by
  obtain ⟨n, hn⟩ := Option.isSome_iff_exists.1 (fieldsBytes_isSome h)
  obtain ⟨o, ho⟩ := Option.isSome_iff_exists.1 hold
  obtain ⟨w, hw⟩ := Option.isSome_iff_exists.1 hnew
  obtain ⟨m, hm, hsum⟩ := fieldsBytes_set hn hget ho hw
  simp only [debugInfoBytes, ho, hw, bytes_dict, hn, hm, Option.map_some, Option.getD_some]
  omega

/-- A pair takes its part of the size. -/
theorem le_fieldsBytes {fields : List (String × JsonValue)} {key : String} {v : JsonValue} {n o : Nat} (hn : fieldsBytes fields = some n) (hget : Dict.get key fields = some v)
    (ho : bytes v = some o) : textBytes key + 2 + o ≤ n := by
  induction fields generalizing n with
  | nil => cases hget
  | cons p fields ih =>
    obtain ⟨k, w⟩ := p
    rw [fieldsBytes_cons] at hn
    obtain ⟨a, ha, hn⟩ := Option.bind_eq_some_iff.1 hn
    obtain ⟨b, hb, rfl⟩ := Option.map_eq_some_iff.1 hn
    rw [Dict.get_cons] at hget
    split at hget
    · rename_i hk
      obtain rfl := Option.some.inj hget
      rw [ho] at ha
      obtain rfl := Option.some.inj ha
      rw [hk]
      omega
    · have hrest := ih hb hget
      omega

theorem get_keep_other {marker original : List (String × JsonValue)} {key : String}
    (h : key ∉ ["browser_provenance", "core_refusal", "server_provenance", "operation", "tactical_status"]) :
    Dict.get key (keepBrowserProvenance marker original) = Dict.get key marker := by
  simp only [List.mem_cons, List.not_mem_nil, or_false, not_or] at h
  unfold keepBrowserProvenance keepServer
  split
  · simp [get_carry, Ne.symm h.1, Ne.symm h.2.1]
  · simp [get_carry, Dict.get_set, Ne.symm h.1, Ne.symm h.2.1, Ne.symm h.2.2.1, Ne.symm h.2.2.2.1, Ne.symm h.2.2.2.2]

/-- A marker has more than a hundred bytes. -/
theorem marker_large (info : List (String × JsonValue)) (key : String) : 105 < debugInfoBytes (markerOf info key) := by
  have herror : Dict.get "error" (markerOf info key) =
      some (.str "value too large to store in audit log. Check documentation for configuring AUDIT_MAX_VALUE_BYTES") := by
    unfold markerOf
    dsimp only
    split
    · rw [get_keep_other (by decide)]
      rfl
    · rfl
  obtain ⟨n, hn⟩ := Option.isSome_iff_exists.1 (fieldsBytes_isSome (writable_markerOf info key))
  have hle := le_fieldsBytes hn herror rfl
  have hbytes : textBytes "error" + 2 + textBytes "value too large to store in audit log. Check documentation for configuring AUDIT_MAX_VALUE_BYTES" = 107 := by
    rw [textBytes, textBytes, show "error".toList = _ from String.toList_ofList,
      show "value too large to store in audit log. Check documentation for configuring AUDIT_MAX_VALUE_BYTES".toList = _ from String.toList_ofList]
    decide_cbv
  rw [debugInfoBytes, bytes_dict, hn, Option.map_some, Option.getD_some]
  omega

theorem partBytes_of_dict {info : List (String × JsonValue)} {key : String} {fields : List (String × JsonValue)} (hget : Dict.get key info = some (.dict fields))
    (hwritable : (bytes (.dict fields)).isSome = true) : partBytes info key = textBytes key + debugInfoBytes fields + 4 := by
  obtain ⟨n, hn⟩ := Option.isSome_iff_exists.1 hwritable
  simp only [partBytes, debugInfoBytes, hget, Option.getD_some, bytes_dict, fieldsBytes, comma]
  rw [← bytes_dict, hn]
  simp
  omega

/-- An operation context of less than a hundred bytes is never replaced. -/
theorem small_context_kept {limit : Int} {info metadata context : List (String × JsonValue)} (hinfo : Writable info) (hmetadata : Dict.get "metadata" info = some (.dict metadata))
    (hcontext : Dict.get "operation_context" info = some (.dict context)) (hwritable : (bytes (.dict metadata)).isSome = true)
    (hsmall : (bytes (.dict context)).isSome = true ∧ debugInfoBytes context ≤ 99)
    (hmarkers : (debugInfoBytes (Dict.set "operation_context" (.dict (markerOf info "operation_context")) (Dict.set "metadata" (.dict (markerOf info "metadata")) info)) : Int) ≤ limit) :
    Dict.get "operation_context" (fitDebugInfo limit info) = some (.dict context) := by
  unfold fitDebugInfo
  split
  · exact hcontext
  · rename_i hover
    have hmarker := marker_large info "metadata"
    have hmarker' := marker_large info "operation_context"
    have hset := hinfo.set (writable_markerOf info "metadata").dict "metadata"
    have hfirst := bytes_set hinfo hmetadata hwritable (writable_markerOf info "metadata").dict
    have hsecond := bytes_set hset ((Dict.get_set_of_ne (show "metadata" ≠ "operation_context" by decide) _ _).trans hcontext) hsmall.1 (writable_markerOf info "operation_context").dict
    have htexts : textBytes "metadata" = 10 ∧ textBytes "operation_context" = 19 := by decide_cbv
    have hsizes : partBytes info "operation_context" ≤ partBytes info "metadata" := by
      rw [partBytes_of_dict hmetadata hwritable, partBytes_of_dict hcontext hsmall.1, htexts.1, htexts.2]
      omega
    dsimp only
    rw [order_cases (by rw [hmetadata]; rfl) (by rw [hcontext]; rfl), if_pos hsizes, shrink, shrink_last]
    split
    · rw [Dict.get_set_of_ne (by decide)]
      exact hcontext
    · omega

/-! ## The first reduction -/

/-- An operation context that is replaced: it cannot be written or it is over its budget. -/
def Replaced (limit : Int) (context : List (String × JsonValue)) : Prop := ¬ ∃ n : Nat, bytes (.dict context) = some n ∧ (n : Int) ≤ budget limit

/-- What stands for an operation context that is replaced, before Core's keys are put to it. -/
def IsMarker (marker : List (String × JsonValue)) : Prop := (∃ n, marker = tooLarge n) ∨ marker = [("error", .str "could not process audit metadata")]

theorem get_marker {marker : List (String × JsonValue)} (h : IsMarker marker) {key : String} (herror : key ≠ "error") (hbytes : key ≠ "original_bytes") :
    Dict.get key marker = none := by
  rcases h with ⟨n, rfl⟩ | rfl
  · simp [tooLarge, Dict.get_cons, herror.symm, hbytes.symm]
  · simp [Dict.get_cons, herror.symm]

theorem safeContext_cases {limit : Int} {context kept : List (String × JsonValue)} (h : safeContext limit context = .ok kept) :
    (kept = context ∧ ¬ Replaced limit context) ∨ (Replaced limit context ∧ ∃ marker, IsMarker marker ∧ kept = keepBrowserProvenance marker context) := by
  unfold safeContext at h
  split at h
  · rename_i n hn
    split at h
    · rename_i hover
      obtain rfl := Except.ok.inj h
      refine .inr ⟨?_, _, .inl ⟨n, rfl⟩, rfl⟩
      rintro ⟨m, hm, hle⟩
      rw [hn] at hm
      obtain rfl := Option.some.inj hm
      omega
    · rename_i hfits
      obtain rfl := Except.ok.inj h
      exact .inl ⟨rfl, not_not.2 ⟨n, hn, by omega⟩⟩
  · rename_i hn
    obtain rfl := Except.ok.inj h
    refine .inr ⟨?_, _, .inr rfl, rfl⟩
    rintro ⟨m, hm, -⟩
    rw [hn] at hm
    cases hm

theorem safeMetadata_fits {limit : Int} {v : JsonValue} {fields : List (String × JsonValue)} (h : safeMetadata limit v = .ok fields) {a : Nat}
    (ha : bytes (.dict (given v)) = some a) (hle : (a : Int) ≤ budget limit) : fields = given v := by
  unfold safeMetadata at h
  split at h
  · exact (Except.ok.inj h).symm
  · rw [given] at ha
    rw [ha] at h
    dsimp only at h
    rw [if_neg (by omega)] at h
    exact (Except.ok.inj h).symm
  · cases h

/-- What a writer that wrote a row went through. -/
theorem write_spec {limit : Int} {texts : Texts} {fresh : String} {writer : Writer} {c : RowCall} {row : StoredRow} (h : writer.write limit texts fresh c = .ok row) :
    ∃ kept metadata, safeContext limit (given writer.context) = .ok kept ∧ safeMetadata limit c.metadata = .ok metadata ∧ writer.check texts c.action = .ok () ∧
      reduced limit texts fresh writer c = debugInfo c (rowCorrelationId texts fresh c kept) metadata kept ∧
      row.debugInfo = fitDebugInfo limit (reduced limit texts fresh writer c) := by
  obtain ⟨_, hcheck, h⟩ := bind_ok h
  obtain ⟨_, _, h⟩ := bind_ok h
  obtain ⟨_, _, h⟩ := bind_ok h
  obtain ⟨_, _, h⟩ := bind_ok h
  obtain ⟨_, _, h⟩ := bind_ok h
  obtain ⟨_, _, h⟩ := bind_ok h
  obtain ⟨context, hcontext, h⟩ := bind_ok h
  obtain ⟨kept, hkept, h⟩ := bind_ok h
  obtain ⟨metadata, hmetadata, h⟩ := bind_ok h
  have hgiven : given writer.context = context := by
    unfold contextFields at hcontext
    split at hcontext
    · rename_i hnull
      rw [hnull]
      exact Except.ok.inj hcontext
    · rename_i fields hdict
      rw [hdict]
      exact Except.ok.inj hcontext
    · cases hcontext
  have hreduced : reduced limit texts fresh writer c = debugInfo c (rowCorrelationId texts fresh c kept) metadata kept := by
    unfold reduced
    rw [hgiven, hkept, hmetadata]
    rfl
  refine ⟨kept, metadata, hgiven ▸ hkept, hmetadata, hcheck, hreduced, ?_⟩
  rw [hreduced]
  exact (congrArg StoredRow.debugInfo (Except.ok.inj h)).symm

/-! ## Core's keys in an operation context -/

theorem Carried.get {original : List (String × JsonValue)} {key : String} {value : JsonValue} (h : Carried original key value) : Dict.get key original = some value := by
  cases h with
  | browser h => exact (of_shortText h).1
  | refusal h => exact h
  | server h => exact (of_shortText h).1
  | operation h hoperation => exact (of_shortText hoperation).1
  | status h hstatus => exact hstatus

theorem shortText_cut (s : String) : shortText (some (.str (cut 100 s))) = some (cut 100 s) := by
  rw [shortText, if_pos]
  rw [cut, String.length_ofList, List.length_take]
  omega

/-- Every key that Core sets is carried over, but for the kind of a socket. -/
theorem carried_of_coreContext {writer : Writer} (hwriter : ∀ kind refusal, writer ≠ .tacticalWebsocket kind refusal) {key : String} {value : JsonValue}
    (hget : Dict.get key writer.coreContext = some value) (hvalue : value ≠ .null) : Carried writer.coreContext key value := by
  cases writer with
  | record context => cases hget
  | coreRefusal =>
    rcases List.mem_cons.1 (Dict.mem_of_get hget) with h | h
    · obtain ⟨rfl, rfl⟩ := Prod.mk.inj h
      exact .browser (by decide_cbv)
    · obtain ⟨rfl, rfl⟩ := Prod.mk.inj (List.mem_singleton.1 h)
      exact .refusal hget
  | browserDeclared =>
    obtain ⟨rfl, rfl⟩ := Prod.mk.inj (List.mem_singleton.1 (Dict.mem_of_get hget))
    exact .browser (by decide_cbv)
  | tacticalOperation operation status refusal =>
    have hserver : shortText (Dict.get "server_provenance" (Writer.tacticalOperation operation status refusal).coreContext) = some "tactical-operation" := rfl
    have hoperation : Dict.get "operation" (Writer.tacticalOperation operation status refusal).coreContext = some (.str (cut 100 operation)) := rfl
    rcases List.mem_append.1 (Dict.mem_of_get hget) with h | h
    · simp only [List.mem_cons, List.not_mem_nil, or_false, Prod.mk.injEq] at h
      rcases h with ⟨rfl, rfl⟩ | ⟨rfl, rfl⟩ | ⟨rfl, rfl⟩
      · exact .server hserver
      · exact .operation hserver (by rw [hoperation, shortText_cut])
      · cases status with
        | none => exact absurd rfl hvalue
        | some n => exact .status hserver hget
    · cases refusal with
      | false => cases h
      | true =>
        obtain ⟨rfl, rfl⟩ := Prod.mk.inj (List.mem_singleton.1 h)
        exact .refusal hget
  | tacticalWebsocket kind refusal => exact absurd rfl (hwriter kind refusal)
  | endpointTransport refusal =>
    rcases List.mem_cons.1 (Dict.mem_of_get hget) with h | h
    · obtain ⟨rfl, rfl⟩ := Prod.mk.inj h
      exact .server rfl
    · cases refusal with
      | false => cases h
      | true =>
        obtain ⟨rfl, rfl⟩ := Prod.mk.inj (List.mem_singleton.1 h)
        exact .refusal hget

theorem socket_small : ∀ kind ∈ [SocketKind.agentTerminal, .serverTerminal], ∀ refusal ∈ [true, false],
    (bytes (.dict (Writer.tacticalWebsocket kind refusal).coreContext)).isSome = true ∧ debugInfoBytes (Writer.tacticalWebsocket kind refusal).coreContext ≤ 99 := by
  decide_cbv

theorem given_coreContext {writer : Writer} (h : ∀ context, writer ≠ .record context) : given writer.context = writer.coreContext := by
  cases writer with
  | record context => exact absurd rfl (h context)
  | coreRefusal => rfl
  | browserDeclared => rfl
  | tacticalOperation operation status refusal => rfl
  | tacticalWebsocket kind refusal => rfl
  | endpointTransport refusal => rfl

/-! ## The stored row -/

variable {limit : Int} {texts : Texts} {fresh : String} {writer : Writer} {c : RowCall}

/-- A row that fits, with parts that fit, is stored as it is. -/
theorem stored_eq_original {row : StoredRow} (h : writer.write limit texts fresh c = .ok row) {n a b : Nat} (hn : bytes (.dict (original texts fresh writer c)) = some n)
    (hfits : (n : Int) ≤ limit) (ha : bytes (.dict (given c.metadata)) = some a) (hmetadataFits : (a : Int) ≤ budget limit)
    (hb : bytes (.dict (given writer.context)) = some b) (hcontextFits : (b : Int) ≤ budget limit) : row.debugInfo = original texts fresh writer c := by
  obtain ⟨kept, metadata, hkept, hmetadata, -, hreduced, hrow⟩ := write_spec h
  have hsame : kept = given writer.context := by
    rcases safeContext_cases hkept with ⟨hsame, -⟩ | ⟨hreplaced, -⟩
    · exact hsame
    · exact absurd ⟨b, hb, hcontextFits⟩ hreplaced
  have hsame' := safeMetadata_fits hmetadata ha hmetadataFits
  rw [hrow, hreduced, hsame, hsame']
  change fitDebugInfo limit (original texts fresh writer c) = _
  rw [fitDebugInfo, debugInfoBytes, hn, Option.getD_some, if_pos hfits]

/-- A carried key is in the operation context of the stored row. -/
theorem get_stored_of_carried {kept metadata : List (String × JsonValue)} (hkept : safeContext limit (given writer.context) = .ok kept)
    (hmetadata : safeMetadata limit c.metadata = .ok metadata) {cid key : String} {value : JsonValue} (h : Carried (given writer.context) key value) :
    Dict.get key (fieldsOf (Dict.get "operation_context" (fitDebugInfo limit (debugInfo c cid metadata kept)))) = some value := by
  have hcarried : Carried kept key value := by
    rcases safeContext_cases hkept with ⟨rfl, -⟩ | ⟨-, marker, -, rfl⟩
    · exact h
    · exact h.keep
  have hshrunk := fit_shrunk limit (writable_debugInfo c cid (safeMetadata_writable hmetadata) (safeContext_writable hkept))
  rcases hshrunk.context with hsame | hmarker
  · rw [hsame, get_context]
    exact hcarried.get
  · rw [hmarker, markerOf, if_pos rfl, get_context]
    exact get_keep_carried hcarried

/-- A caller of `record` puts none of Core's keys into the row. -/
theorem get_stored_of_record {context : JsonValue} (hwriter : writer = .record context) (hcheck : writer.check texts c.action = .ok ())
    {kept metadata : List (String × JsonValue)} (hkept : safeContext limit (given writer.context) = .ok kept) (hmetadata : safeMetadata limit c.metadata = .ok metadata)
    {cid key : String} (hkey : key ∈ coreContextKeys) :
    Dict.get key (fieldsOf (Dict.get "operation_context" (fitDebugInfo limit (debugInfo c cid metadata kept)))) = none := by
  have hnone : ∀ key ∈ coreContextKeys, Dict.get key (given writer.context) = none := by
    subst hwriter
    obtain ⟨_, hrefuse, -⟩ := bind_ok hcheck
    intro key hkey
    change Dict.get key (given context) = none
    unfold refuseCoreKeys at hrefuse
    split at hrefuse
    · rename_i fields
      split at hrefuse
      · cases hrefuse
      · rename_i hfind
        have hfound := List.find?_eq_none.1 hfind key hkey
        change Dict.get key fields = none
        simpa using hfound
    · cases context with
      | dict fields => simp_all
      | _ => rfl
  have hkeys : key ≠ "error" ∧ key ≠ "original_bytes" := by
    have hall : ∀ key ∈ coreContextKeys, key ≠ "error" ∧ key ≠ "original_bytes" := by decide
    exact hall key hkey
  have hkeptNone : ∀ key ∈ coreContextKeys, Dict.get key kept = none := by
    rcases safeContext_cases hkept with ⟨rfl, -⟩ | ⟨-, marker, hmarker, rfl⟩
    · exact hnone
    · rw [get_keep_foreign hnone]
      intro key hkey
      have hall : ∀ key ∈ coreContextKeys, key ≠ "error" ∧ key ≠ "original_bytes" := by decide
      exact get_marker hmarker (hall key hkey).1 (hall key hkey).2
  have hshrunk := fit_shrunk limit (writable_debugInfo c cid (safeMetadata_writable hmetadata) (safeContext_writable hkept))
  rcases hshrunk.context with hsame | hmarker
  · rw [hsame, get_context]
    exact hkeptNone key hkey
  · rw [hmarker, markerOf, if_pos rfl, get_context, fieldsOf, fieldsOf, get_keep_foreign hkeptNone]
    exact get_marker (.inl ⟨_, rfl⟩) hkeys.1 hkeys.2

/-- The id of a row is that of the row without a limit exactly when no included id is lost. -/
theorem correlationId_iff {kept : List (String × JsonValue)} (hkept : safeContext limit (given writer.context) = .ok kept) :
    rowCorrelationId texts fresh c kept = rowCorrelationId texts fresh c (given writer.context) ↔ IncludedIdKept limit texts fresh writer c := by
  by_cases hexplicit : c.correlationId.truthy = true
  · have hsame : ∀ context, rowCorrelationId texts fresh c context = correlationIdOf texts fresh c.correlationId := fun context => by
      rw [rowCorrelationId, if_pos hexplicit]
    rw [hsame, hsame]
    exact ⟨fun _ => .inl hexplicit, fun _ => rfl⟩
  · have hincluded : rowCorrelationId texts fresh c (given writer.context) =
        if includedId texts (given writer.context) ≠ "" then cut 255 (includedId texts (given writer.context)) else fresh := by
      rw [rowCorrelationId, if_neg hexplicit]
      rfl
    rcases safeContext_cases hkept with ⟨rfl, hfits⟩ | ⟨hreplaced, marker, hmarker, rfl⟩
    · exact ⟨fun _ => .inr (.inl (not_not.1 hfits)), fun _ => rfl⟩
    · have hlost : rowCorrelationId texts fresh c (keepBrowserProvenance marker (given writer.context)) = fresh := by
        have hnone : Dict.get "correlation_id" (keepBrowserProvenance marker (given writer.context)) = none := by
          rw [get_keep_other (by decide)]
          exact get_marker hmarker (by decide) (by decide)
        have hblank : stripText "" = "" := by decide_cbv
        rw [rowCorrelationId, if_neg hexplicit, hnone, correlationIdOf, Option.getD_none, truthy, if_neg Bool.false_ne_true, hblank]
        exact if_neg fun h => h rfl
      rw [hlost, hincluded]
      unfold IncludedIdKept
      by_cases hblank : includedId texts (given writer.context) = ""
      · rw [if_neg (not_not.2 hblank)]
        exact ⟨fun _ => .inr (.inr (.inl hblank)), fun _ => rfl⟩
      · rw [if_pos hblank]
        constructor
        · exact fun h => .inr (.inr (.inr h.symm))
        · rintro (h | h | h | h)
          · exact absurd h hexplicit
          · exact absurd h hreplaced
          · exact absurd h hblank
          · exact h.symm

end ProvenanceAux

open ProvenanceAux JsonValue Raise

/-- What a writer stores keeps what is promised, at every limit at which Core's own keys and two markers fit, exactly when the row does not take its correlation id out of an
operation context that is replaced. -/
theorem provenance_kept_iff (limit : Int) (texts : Texts) (fresh : String) (writer : Writer) (c : RowCall) (row : StoredRow)
    (h : writer.write limit texts fresh c = .ok row) (hmarkers : MarkersFit limit texts fresh writer c) :
    ProvenanceKept limit texts fresh writer c row.debugInfo ↔ IncludedIdKept limit texts fresh writer c := by
  obtain ⟨kept, metadata, hkept, hmetadata, hcheck, hreduced, hrow⟩ := write_spec h
  have hwritable := writable_debugInfo c (rowCorrelationId texts fresh c kept) (safeMetadata_writable hmetadata) (safeContext_writable hkept)
  unfold MarkersFit at hmarkers
  dsimp only at hmarkers
  have hrow' := hrow
  rw [hreduced] at hrow hmarkers
  rw [hrow, ← correlationId_iff hkept]
  have hshrunk := fit_shrunk limit hwritable
  constructor
  · intro hprovenance
    have hid := hprovenance.keys "correlation_id" (by decide) (by decide)
    rw [hshrunk.other _ (by decide) (by decide), get_correlationId, original, get_correlationId] at hid
    exact JsonValue.str.inj (Option.some.inj hid)
  · intro hid
    exact {
      fits := ⟨_, bytes_of_writable hshrunk.writable, fit_fits (by rw [get_metadata]; rfl) (by rw [get_context]; rfl) hmarkers⟩
      keys := by
        intro key hkeyMetadata hkeyContext
        rw [hshrunk.other key hkeyMetadata hkeyContext, original]
        by_cases hkey : key = "correlation_id"
        · rw [hkey, get_correlationId, get_correlationId, hid]
        · exact get_other c hkey hkeyMetadata hkeyContext ..
      core := by
        intro key value hget hvalue
        by_cases hsocket : ∃ kind refusal, writer = .tacticalWebsocket kind refusal
        · obtain ⟨kind, refusal, rfl⟩ := hsocket
          obtain ⟨hbytes, hsmall⟩ := socket_small kind (by cases kind <;> decide) refusal (by cases refusal <;> decide)
          have hgiven : given (Writer.tacticalWebsocket kind refusal).context = (Writer.tacticalWebsocket kind refusal).coreContext := rfl
          rcases safeContext_cases hkept with ⟨rfl, -⟩ | ⟨hreplaced, -⟩
          · rw [small_context_kept hwritable (get_metadata ..) (get_context ..) (safeMetadata_writable hmetadata) ⟨hbytes, hsmall⟩ hmarkers]
            exact hget
          · refine absurd ?_ hreplaced
            obtain ⟨n, hn⟩ := Option.isSome_iff_exists.1 hbytes
            refine ⟨n, hn, ?_⟩
            rw [debugInfoBytes, hn, Option.getD_some] at hsmall
            unfold budget
            omega
        · have hwriter : ∀ kind refusal, writer ≠ .tacticalWebsocket kind refusal := fun kind refusal heq => hsocket ⟨kind, refusal, heq⟩
          have hcarried := carried_of_coreContext hwriter hget hvalue
          rw [← given_coreContext (by rintro context rfl; cases hget)] at hcarried
          exact get_stored_of_carried hkept hmetadata hcarried
      untouched := fun n a b hn hfits ha hmetadataFits hb hcontextFits => by
        rw [← hreduced, ← hrow']
        exact stored_eq_original h hn hfits ha hmetadataFits hb hcontextFits
      foreign := fun context hwriter key hkey => get_stored_of_record hwriter hcheck hkept hmetadata hkey }

namespace ProvenanceAux

def sampleTexts : Texts where
  str v :=
    match v with
    | .str s => s
    | _ => ""
  lower s := s

/-- A call of a module for a person. -/
def reportCall (metadata : JsonValue) : RowCall where
  moduleId := "reports"
  moduleVersion := "1.0.0"
  actor := .human "ada" none none
  action := "run"
  objectType := "report"
  objectId := some "17"
  message := none
  before := .null
  after := .null
  metadata := metadata
  correlationId := .null

/-- Two hundred values of four bytes each. -/
def longList : JsonValue := .list (List.replicate 200 .null)

def longContext : List (String × JsonValue) := [("correlation_id", .str "run-1"), ("items", longList)]

theorem exists_of_isOk {α : Type} {x : Except ContractError α} (h : x.toOption.isSome = true) : ∃ a, x = .ok a := by
  obtain ⟨a, ha⟩ := Option.isSome_iff_exists.1 h
  exact ⟨a, ok_of_toOption ha⟩

end ProvenanceAux

theorem large_metadata_keeps_provenance :
    ∃ row, Writer.browserDeclared.write 2048 sampleTexts "request-1" (reportCall (.dict [("items", longList)])) = .ok row ∧
      ProvenanceKept 2048 sampleTexts "request-1" .browserDeclared (reportCall (.dict [("items", longList)])) row.debugInfo := by
  obtain ⟨row, hrow⟩ := exists_of_isOk (x := Writer.browserDeclared.write 2048 sampleTexts "request-1" (reportCall (.dict [("items", longList)]))) (by decide +kernel)
  have hmarkers : MarkersFit 2048 sampleTexts "request-1" .browserDeclared (reportCall (.dict [("items", longList)])) := by
    unfold MarkersFit
    decide +kernel
  exact ⟨row, hrow, (provenance_kept_iff _ _ _ _ _ row hrow hmarkers).2 (.inr (.inl ⟨47, by decide_cbv, by decide_cbv⟩))⟩

/-- An operation context that is too large takes the correlation id of its run with it. -/
theorem included_id_is_lost :
    ¬ ∀ (limit : Int) (texts : Texts) (fresh : String) (writer : Writer) (c : RowCall) (row : StoredRow), writer.write limit texts fresh c = .ok row →
      MarkersFit limit texts fresh writer c → ProvenanceKept limit texts fresh writer c row.debugInfo := by
  intro hclaim
  obtain ⟨row, hrow⟩ := exists_of_isOk (x := (Writer.record (.dict longContext)).write 2048 sampleTexts "request-1" (reportCall .null)) (by decide +kernel)
  have hmarkers : MarkersFit 2048 sampleTexts "request-1" (.record (.dict longContext)) (reportCall .null) := by
    unfold MarkersFit
    decide +kernel
  obtain ⟨kept, metadata, hkept, hmetadata, -, hreduced, hfit⟩ := write_spec hrow
  have hid := (hclaim _ _ _ _ _ row hrow hmarkers).keys "correlation_id" (by decide) (by decide)
  have hwritable := writable_debugInfo (reportCall .null) (rowCorrelationId sampleTexts "request-1" (reportCall .null) kept) (safeMetadata_writable hmetadata)
    (safeContext_writable hkept)
  rw [hfit, hreduced, (fit_shrunk 2048 hwritable).other _ (by decide) (by decide), get_correlationId, original, get_correlationId] at hid
  rcases (correlationId_iff hkept).1 (JsonValue.str.inj (Option.some.inj hid)) with h | ⟨n, hn, hle⟩ | h | h
  · cases h
  · have hbytes : bytes (.dict longContext) = some 1238 := by decide +kernel
    obtain rfl := Option.some.inj (hbytes.symm.trans hn)
    exact absurd hle (by decide_cbv)
  · exact absurd h (by decide_cbv)
  · exact absurd h (by decide_cbv)

end Audit

end TecTac
