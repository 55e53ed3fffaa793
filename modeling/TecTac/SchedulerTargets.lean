import TecTac.Lib.JsonSize
import TecTac.Lib.Text

/-!
# The targets of a schedule

`scheduler_targets.py`: the references to a scope of Tactical in a filter, the aliases of the identifiers and the canonical form of targets. Only ASCII letters become a letter of one of the
words here in lower case, so `lower` is that of ASCII. Two identifiers of a kind have one marker exactly where they are equal.
-/

namespace TecTac

namespace SchedulerTargets

/-- What is raised: `SchedulerTargetShapeError`, or an exception of the language. -/
inductive Raised where
  | shape (message : String)
  | other (name : String)
  deriving DecidableEq

inductive Kind where
  | client
  | site
  | endpoint
  deriving DecidableEq

def Kind.text : Kind → String
  | .client => "client"
  | .site => "site"
  | .endpoint => "endpoint"

def kinds : List Kind := [.client, .site, .endpoint]

/-- `_NATIVE_KIND`. -/
def nativeKinds : List (String × Kind) :=
  [("client", .client), ("clients", .client), ("site", .site), ("sites", .site), ("endpoint", .endpoint), ("endpoints", .endpoint), ("agent", .endpoint), ("agents", .endpoint)]

/-- `_NATIVE_KIND.get`. -/
def nativeKind (text : String) : Option Kind := Dict.get text nativeKinds

/-- `_ALIASES`. -/
def aliases : Kind → List String
  | .client => ["client_id", "client_ids", "client", "clients"]
  | .site => ["site_id", "site_ids", "site", "sites"]
  | .endpoint => ["agent_id", "agent_ids", "endpoint_id", "endpoint_ids", "agent", "agents", "endpoint", "endpoints"]

/-- All of them. -/
def allAliases : List String := kinds.flatMap aliases

/-- `_RESERVED_FILTER_SCOPE_KEYS`. -/
def reservedFilterScopeKeys : List String := ["id", "ids"] ++ allAliases

/-! ## References to a scope -/

/-- An underscore between a small letter or a digit and a capital. -/
def camel : List Char → List Char
  | a :: b :: cs => if (a.isLower || a.isDigit) && b.isUpper then a :: '_' :: camel (b :: cs) else a :: camel (b :: cs)
  | cs => cs

/-- One underscore for each run of other characters than these. -/
def underscored (keep : Char → Bool) : List Char → List Char
  | [] => []
  | c :: cs =>
    if keep c then c :: underscored keep cs
    else
      match underscored keep cs with
      | '_' :: rest => '_' :: rest
      | rest => '_' :: rest

/-- `strip` and `rstrip` of one character. -/
def rstripChar (c : Char) (s : List Char) : List Char := (s.reverse.dropWhile (· == c)).reverse

def stripChar (c : Char) (s : List Char) : List Char := rstripChar c (s.dropWhile (· == c))

/-- `normalize` of `_scope_alias_token`. -/
def normalize (token : List Char) : List Char :=
  underscored (· != '_') ((stripChar '_' (underscored Char.isAlphanum (camel token))).map Char.toLower)

/-- The parts between two underscores or one of the other separators. -/
def cut : List Char → List Char → List (List Char)
  | part, '_' :: '_' :: cs => part.reverse :: cut [] cs
  | part, c :: cs => if c ∈ ['.', '/', ':', '[', ']'] then part.reverse :: cut [] cs else cut (c :: part) cs
  | part, [] => [part.reverse]

/-- `lookup_suffixes`. -/
def lookupSuffixes : List String :=
  ["exact", "iexact", "contains", "icontains", "in", "gt", "gte", "lt", "lte", "startswith", "istartswith", "endswith", "iendswith", "range", "date", "year", "iso_year", "month", "day", "week",
    "week_day", "iso_week_day", "quarter", "time", "hour", "minute", "second", "isnull", "regex", "iregex"]

/-- `scope_nouns`. -/
def scopeNouns : List String := ["client", "clients", "site", "sites", "agent", "agents", "endpoint", "endpoints"]

/-- `specific`. -/
def specific : List String := reservedFilterScopeKeys.filter fun key => !(["id", "ids"] ++ scopeNouns).contains key

/-- The alias that a noun and the word behind it name. -/
def pairAlias (pair : String × String) : Option String :=
  if pair.1 ∈ scopeNouns ∧ pair.2 ∈ ["id", "ids", "pk"] then
    let named := String.ofList (rstripChar 's' pair.1.toList) ++ "_" ++ (if pair.2 = "ids" then "ids" else "id")
    if named ∈ specific then some named else none
  else none

/-- `_scope_alias_token`. -/
def scopeAliasToken (value : String) : Option String :=
  let raw := strip value.toList
  if raw = [] then none
  else
    let whole := String.ofList (normalize raw)
    if whole ∈ reservedFilterScopeKeys then some whole
    else
      let parts := ((cut [] raw).filter (· ≠ [])).map fun part => String.ofList (normalize part)
      let parts := (parts.reverse.dropWhile lookupSuffixes.contains).reverse
      (parts.find? specific.contains).or ((parts.zip parts.tail).findSome? pairAlias)

mutual

/-- `_reserved_filter_value`. A token is never empty. -/
def reservedFilterValue : JsonValue → Option String
  | .str s => scopeAliasToken s
  | .list xs => reservedItem xs
  | .dict fields => reservedField fields
  | _ => none

def reservedItem : List JsonValue → Option String
  | [] => none
  | x :: xs => (reservedFilterValue x).or (reservedItem xs)

def reservedField : List (String × JsonValue) → Option String
  | [] => none
  | (_, x) :: fields => (reservedFilterValue x).or (reservedField fields)

end

/-! ## Identifiers -/

/-- The number of a client or a site, the text of an endpoint. -/
inductive Ident where
  | number (n : Int)
  | text (s : String)
  deriving DecidableEq

def Ident.value : Ident → JsonValue
  | .number n => .num n
  | .text s => .str s

/-- What the language makes of other values: the text of a list, a dictionary or another object, the number that a text is, the number that a float is cut to. -/
structure Language where
  repr : JsonValue → String
  intOfText : String → Option Int
  intOfFloat : String → Except Raised (Option Int)

abbrev Fields := List (String × JsonValue)

/-- `_dedupe`. -/
def dedupe (values : List Ident) : List Ident := values.foldl (fun out value => if value ∈ out then out else out ++ [value]) []

/-- `value in (None, "")`. -/
def blank : JsonValue → Bool
  | .null => true
  | .str s => s == ""
  | _ => false

/-- `_as_list`. -/
def asList : JsonValue → JsonValue
  | .list xs => .list xs
  | value => if blank value then .list [] else .list [value]

/-- `_reject_unknown_keys`. -/
def rejectUnknownKeys (fields : Fields) (allowed : List String) (label : String) : Except Raised Unit :=
  let extra := (fields.map Prod.fst).filter fun key => !allowed.contains key
  if extra = [] then .ok ()
  else .error (.shape (label ++ " contains unsupported key(s): " ++ ", ".intercalate (extra.mergeSort fun a b => decide (a ≤ b)) ++ "."))

/-- `str(value)`. -/
def Language.str (lang : Language) : JsonValue → String
  | .str s => s
  | .num n => toString n
  | .bool b => if b then "True" else "False"
  | .null => "None"
  | value => lang.repr value

/-- `text.strip().lower()`. -/
def lowered (text : String) : String := String.ofList ((strip text.toList).map Char.toLower)

/-- `str(fields.get(key) or default).strip().lower()`. -/
def Language.word (lang : Language) (fields : Fields) (key default : String) : String :=
  let value := (Dict.get key fields).getD .null
  lowered (if value.truthy then lang.str value else default)

section

variable (lang : Language)

/-- The label of a kind in a message. -/
def label : Kind → String
  | .client => "Client"
  | _ => "Site"

/-- `int(value)`, where `TypeError` and `ValueError` are nothing. -/
def toInt : JsonValue → Except Raised (Option Int)
  | .num n => .ok (some n)
  | .str s => .ok (lang.intOfText s)
  | .float _ digits => lang.intOfFloat digits
  | _ => .ok none

/-- `isinstance(value, bool)`. -/
def isBool : JsonValue → Bool
  | .bool _ => true
  | _ => false

/-- One identifier of a client or a site. -/
def numberIdent (kind : Kind) (value : JsonValue) : Except Raised Ident :=
  if isBool value then .error (.shape (label kind ++ " target identifiers must be integer IDs."))
  else do
    match ← toInt lang value with
    | none => throw (.shape (label kind ++ " target identifiers must be integer IDs."))
    | some ident => if ident ≤ 0 then throw (.shape (label kind ++ " target identifiers must be positive integers.")) else return .number ident

/-- One identifier of an endpoint. -/
def endpointIdent (value : JsonValue) : Except Raised Ident :=
  let text := stripText (lang.str value)
  if isBool value || blank value || text == "" then .error (.shape "Endpoint target identifiers must be non-empty agent IDs or positive database IDs.") else .ok (.text text)

def ident : Kind → JsonValue → Except Raised Ident
  | .endpoint, value => endpointIdent lang value
  | kind, value => numberIdent lang kind value

/-- `_canonical_ids`. -/
def canonicalIds (kind : Kind) : JsonValue → Except Raised (List Ident)
  | .list values => do return dedupe (← values.mapM (ident lang kind))
  | _ => .error (.shape "Tactical-native scheduler targets.ids must be an array.")

/-! ## The scope of dynamic targets -/

/-- `_legacy_scope_candidate`. -/
def legacyScopeCandidate (fields : Fields) (kind : Kind) : Except Raised (Option (List Ident)) := do
  let resolved ← ((aliases kind).filterMap fun key => Dict.get key fields).mapM fun value => canonicalIds lang kind (asList value)
  match resolved with
  | [] => return none
  | first :: others => if others.all (· == first) then return some first else throw (.shape ("Dynamic scope contains conflicting " ++ kind.text ++ " target aliases."))

/-- The identifiers that the aliases of each kind name. -/
def legacyCandidates (fields : Fields) : Except Raised (List (Kind × List Ident)) := do
  let found ← kinds.mapM fun kind => do return (kind, ← legacyScopeCandidate lang fields kind)
  return found.filterMap fun p => p.2.map fun values => (p.1, values)

/-- `explicit_kind`: nothing for a scope that gives no type. -/
def explicitKind (fields : Fields) : Except Raised (Option Kind) :=
  let explicitType := lang.word fields "type" ""
  if explicitType = "" then .ok none
  else
    match nativeKind explicitType with
    | some kind => .ok (some kind)
    | none => .error (.shape "Dynamic targets.scope.type must be client, site, endpoint, or agent.")

/-- The candidates with what `ids` names. -/
def withIds (fields : Fields) (explicit : Option Kind) (candidates : List (Kind × List Ident)) : Except Raised (List (Kind × List Ident)) :=
  match Dict.get "ids" fields with
  | none => .ok candidates
  | some ids =>
    match explicit with
    | none => .error (.shape "Dynamic targets.scope.ids requires an explicit scope type.")
    | some kind => do
      let values ← canonicalIds lang kind ids
      match Dict.get kind candidates with
      | some previous => if previous = values then return Dict.set kind values candidates else throw (.shape "Dynamic scope contains conflicting ids and legacy aliases.")
      | none => return Dict.set kind values candidates

/-- The one scope that is named. -/
def oneScope (explicit : Option Kind) (candidates : List (Kind × List Ident)) : Except Raised (Kind × List Ident) :=
  match explicit with
  | some kind =>
    if candidates.any fun c => c.1 != kind then .error (.shape "Dynamic scope contains identifiers for more than one Tactical scope type.")
    else
      match Dict.get kind candidates with
      | none => .error (.shape "Dynamic targets.scope requires target identifiers.")
      | some values => .ok (kind, values)
  | none =>
    match candidates with
    | [] => .error (.shape "Dynamic targets.scope requires client, site, or endpoint identifiers.")
    | [c] => .ok c
    | _ => .error (.shape "Dynamic targets.scope must identify exactly one Tactical scope type.")

/-- `_canonical_dynamic_scope`. -/
def canonicalDynamicScope : JsonValue → Except Raised (Kind × List Ident)
  | .dict scope => do
    rejectUnknownKeys scope (["type", "ids"] ++ allAliases) "Dynamic targets.scope"
    let explicit ← explicitKind lang scope
    oneScope explicit (← withIds lang scope explicit (← legacyCandidates lang scope))
  | _ => .error (.shape "Dynamic targets.scope must be an object.")

/-- `root_scope`. -/
def rootScope (targets : Fields) : Fields := allAliases.filterMap fun key => (Dict.get key targets).map fun value => (key, value)

/-- The canonical form of the scope, when there is one. -/
def scopeField (targets : Fields) : Except Raised (Option (Kind × List Ident)) :=
  match Dict.get "scope" targets with
  | none => .ok none
  | some scope => some <$> canonicalDynamicScope lang scope

/-- `_dynamic_root_scope`. -/
def dynamicRootScope (targets : Fields) : Except Raised (Kind × List Ident) := do
  rejectUnknownKeys targets (["type", "scope", "filter"] ++ allAliases) "Dynamic targets"
  let canonical ← scopeField lang targets
  if rootScope targets = [] then
    match canonical with
    | none => throw (.shape "Dynamic targets.scope must be an object with an explicit Tactical scope.")
    | some scope => return scope
  else
    let root ← canonicalDynamicScope lang (.dict (rootScope targets))
    match canonical with
    | none => return root
    | some scope => if root = scope then return root else throw (.shape "Dynamic targets contain conflicting scope and legacy root scope aliases.")

/-! ## Targets -/

def idList (ids : List Ident) : JsonValue := .list (ids.map Ident.value)

/-- A scope as it is stored. -/
def scopeValue (scope : Kind × List Ident) : JsonValue := .dict [("type", .str scope.1.text), ("ids", idList scope.2)]

/-- The key that is reserved, as it is told. -/
def reservedKey (filter : Fields) : Option String := ((filter.map Prod.fst).map lowered).find? reservedFilterScopeKeys.contains

/-- The targets of a dynamic type. -/
def dynamicTargets (targets : Fields) : Except Raised Fields := do
  let scope ← dynamicRootScope lang targets
  match (Dict.get "filter" targets).getD (.dict []) with
  | .dict filter =>
    match reservedKey filter with
    | some key => throw (.shape ("Dynamic targets.filter may not contain top-level Tactical target key '" ++ key ++ "'; put client/site/endpoint scope in targets.scope."))
    | none =>
      match reservedFilterValue (.dict filter) with
      | some value => throw (.shape ("Dynamic targets.filter may not use Tactical target alias '" ++ value ++ "' as a filter value; put client/site/endpoint scope in targets.scope."))
      | none => return [("type", .str "dynamic"), ("scope", scopeValue scope)] ++ (if filter = [] then [] else [("filter", .dict filter)])
  | _ => throw (.shape "Dynamic targets.filter must be an object.")

/-- `targets`, as an object. -/
def targetFields : JsonValue → Except Raised Fields
  | .null => .ok [("type", .str "none")]
  | .dict fields => .ok fields
  | _ => .error (.shape "targets must be an object.")

/-- `target_type`. -/
def targetType (fields : Fields) : String := lang.word fields "type" "none"

/-- The canonical form of an object. -/
def normalizeFields (fields : Fields) : Except Raised Fields :=
  if targetType lang fields = "" ∨ targetType lang fields = "none" then do
    rejectUnknownKeys fields ["type"] "targets"
    return [("type", .str "none")]
  else
    match nativeKind (targetType lang fields) with
    | some kind => do
      rejectUnknownKeys fields ["type", "ids"] "Tactical-native targets"
      match Dict.get "ids" fields with
      | none => throw (.shape "Tactical-native scheduler targets require an ids array.")
      | some ids => return [("type", .str (targetType lang fields)), ("ids", idList (← canonicalIds lang kind ids))]
    | none => if targetType lang fields = "dynamic" then dynamicTargets lang fields else .ok fields

/-- `normalize_scheduler_targets`. -/
def normalizeSchedulerTargets (targets : JsonValue) : Except Raised Fields := do normalizeFields lang (← targetFields targets)

/-- What `tactical_scope_ref` answers. -/
structure ScopeRef where
  kind : String
  values : List JsonValue

/-- `list(value)` of a list. -/
def listOf : Option JsonValue → Except Raised (List JsonValue)
  | some (.list xs) => .ok xs
  | _ => .error (.other "TypeError")

/-- `_NATIVE_KIND.get(value)` of any value: a list and a dictionary cannot be looked up. -/
def nativeKindOf : JsonValue → Except Raised (Option Kind)
  | .str s => .ok (nativeKind s)
  | .list _ | .dict _ => .error (.other "TypeError")
  | _ => .ok none

/-- `tactical_scope_ref`. -/
def tacticalScopeRef (targets : JsonValue) : Except Raised ScopeRef := do
  let canonical ← normalizeSchedulerTargets lang targets
  let type := (Dict.get "type" canonical).getD (.str "none")
  if let .str "none" := type then return ⟨"none", []⟩
  if let .str "dynamic" := type then
    match Dict.get "scope" canonical with
    | some (.dict scope) =>
      match ← nativeKindOf ((Dict.get "type" scope).getD .null) with
      | some kind => return ⟨kind.text, ← listOf (Dict.get "ids" scope)⟩
      | none => throw (.other "KeyError")
    | _ => throw (.other "KeyError")
  match ← nativeKindOf type with
  | none => return ⟨"module", []⟩
  | some kind => return ⟨kind.text, ← listOf (Dict.get "ids" canonical)⟩

end

end SchedulerTargets

end TecTac
