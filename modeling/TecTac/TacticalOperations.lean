import Mathlib
import TecTac.Lib.Json
import TecTac.Lib.LongestPrefix
import TecTac.Lib.Raise
import TecTac.Lib.Text

/-!
# Declared Tactical operations

The registry of `tactical_operations.py`: a module declares an operation on a route template that it owns, and Core runs it on the concrete path that the
parameters of a call give. Which modules are installed, enabled and honoured as replacements may change at any time, and the path is checked again when the
operation is run. The parts of a declaration that neither name a route nor a body condition are one value `rest`, checked as one step; so are the checks of a
call that do not read the path. `repr` is how the language shows a text.
-/

namespace TecTac

namespace TacticalOperations

open LongestPrefix

inductive Kind where
  | str
  | int
  | agent
  | service
deriving DecidableEq

/-! ## The expressions -/

def word (c : Char) : Bool := c.isAlphanum || decide (c = '_')

/-- `^[A-Za-z0-9_][A-Za-z0-9_.-]{low,high}$` of a text without a final line end. -/
def wordThen (more : List Char) (low high : Nat) (s : List Char) : Bool :=
  match s with
  | [] => false
  | c :: rest => word c && decide (low ≤ rest.length ∧ rest.length ≤ high) && rest.all fun c => word c || decide (c ∈ more)

/-- `$` also matches before a final line end. -/
def dollar (p : List Char → Bool) (s : List Char) : Bool := p s || decide (s.getLast? = some '\n') && p s.dropLast

/-- `_LITERAL_RE`. -/
def literalRe (s : List Char) : Bool := dollar (wordThen ['.', '-'] 0 99) s

/-- `_PARAM_VALUE_RE`. -/
def Kind.valueRe : Kind → List Char → Bool
  | .str => dollar (wordThen ['.', '-'] 0 254)
  | .agent => dollar (wordThen ['.', '-'] 20 254)
  | .int => dollar fun s => decide (1 ≤ s.length ∧ s.length ≤ 12) && s.all Char.isDigit
  | .service => dollar (wordThen [' ', '$', '#', '(', ')', '.', ',', '-'] 0 255)

def kindOf : List Char → Option Kind
  | ['s', 't', 'r'] => some .str
  | ['i', 'n', 't'] => some .int
  | ['a', 'g', 'e', 'n', 't'] => some .agent
  | ['s', 'e', 'r', 'v', 'i', 'c', 'e'] => some .service
  | _ => none

def paramName (s : List Char) : Bool :=
  match s with
  | [] => false
  | c :: rest => c.isLower && decide (rest.length ≤ 31) && rest.all fun c => c.isLower || c.isDigit || decide (c = '_')

/-- What `_PARAM_RE` reads between the braces. -/
def paramBody (s : List Char) : Option (String × Kind) :=
  match s.splitOn ':' with
  | [name] => if paramName name then some (String.ofList name, .str) else none
  | [name, kind] => if paramName name then (kindOf kind).map fun kind => (String.ofList name, kind) else none
  | _ => none

/-- `_PARAM_RE`. -/
def paramRe (s : List Char) : Option (String × Kind) :=
  let text := if s.getLast? = some '\n' then s.dropLast else s
  if text.head? = some '{' ∧ text.getLast? = some '}' then paramBody text.tail.dropLast else none

def dotted (s : List Char) : Bool := decide (['.', '.'] <:+: s)

/-- `str.lower` of the texts that the expressions let through. -/
def lower (s : String) : String := String.ofList (s.toList.map Char.toLower)

/-! ## Routes -/

inductive Segment where
  | lit (text : String) (ok : literalRe text.toList = true)
  | param (name : String) (kind : Kind)
deriving DecidableEq

structure Route where
  segments : List Segment
  trailing : Bool
deriving DecidableEq

/-- The part that stands for a segment of a template. -/
def Segment.shown : Segment → String
  | .lit text _ => text
  | .param _ _ => "{}"

/-- `_forbidden_route`. -/
def forbiddenRoute (parts : List String) : Bool :=
  match parts with
  | [] => true
  | first :: rest =>
    decide (lower first ∈ ["accounts", "_allauth", "v2"]) || "logout".toList.isPrefixOf (lower first).toList ||
      match rest with
      | [] => false
      | second :: _ => decide ((lower first, lower second) ∈ [("api", "tfd"), ("api", "v3"), ("api", "v4"), ("agents", "installer")])

variable (repr : String → String)

/-- One part of a route, after the names that the parts before it have. -/
def parsePart (first : String) (index : Nat) (seen : List String) (part : List Char) : Except String Segment :=
  let shown := repr (String.ofList part)
  if dotted part ∨ part.all (· = '.') then .error "route may not contain '..'."
  else if part.head? = some '{' ∨ part.getLast? = some '}' then
    match paramRe part with
    | none => .error ("route parameter " ++ shown ++ " must look like {name} or {name:str|int|agent|service}.")
    | some (name, kind) =>
      if name ∈ seen then .error ("route parameter " ++ repr name ++ " is repeated.")
      else if index = 0 ∨ index = 1 ∧ lower first = "api" then .error "a route may not start with a parameter."
      else .ok (.param name kind)
  else if h : literalRe (String.ofList part).toList = true then .ok (.lit (String.ofList part) h)
  else .error ("route segment " ++ shown ++ " is not allowed.")

def namesOf (segments : List Segment) : List (String × Kind) :=
  segments.filterMap fun segment =>
    match segment with
    | .lit _ _ => none
    | .param name kind => some (name, kind)

def parseParts (first : String) (parts : List (List Char)) : Except String (List Segment) :=
  parts.zipIdx.foldlM (fun segments part => do
    let segment ← parsePart repr first part.2 ((namesOf segments).map Prod.fst) part.1
    pure (segments ++ [segment])) []

def rstripSlash (s : List Char) : List Char := (s.reverse.dropWhile (· = '/')).reverse

/-- `_parse_route`. -/
def parseRoute (route : String) : Except String Route := do
  let text := route.toList
  Raise.require (!(strip text).isEmpty) "route is required."
  Raise.require (decide (strip text = text ∧ text.length ≤ 200)) "route has stray space or is too long."
  Raise.require (decide (text.head? ≠ some '/' ∧ ¬['/', '/'] <:+: text) && !text.any fun c => decide (c ∈ ['\\', '?', '#', '%']))
    "route must be a relative Tactical route template such as agents/{agent_id:agent}/reboot/."
  let raw := (rstripSlash text).splitOn '/'
  Raise.require (decide (raw ≠ [] ∧ raw.length ≤ 12) && !raw.contains []) "route has an empty or too many segments."
  let segments ← parseParts repr (String.ofList (raw.headD [])) raw
  Raise.require (!forbiddenRoute (segments.map Segment.shown))
    "route is Core's own or agent-facing (accounts/, api/tfd/, api/v3/, api/v4/, _allauth/, logout, logoutall, v2/, agents/installer)."
  pure ⟨segments, decide (text.getLast? = some '/')⟩

/-- `_route_key`. -/
def routeKey (route : Route) : String := "/".intercalate (route.segments.map Segment.shown) ++ if route.trailing then "/" else ""

/-! ## Who owns a route -/

/-- A word of the table: a value of the `agent` or the `int` kind is none, and `*other*` is none. -/
def tableWord (w : String) : Bool := decide (w = "{}") || decide (w.length < 21 ∧ w ≠ "*other*") && w.toList.any fun c => !c.isDigit

/-- `_ROUTE_OWNER_RULES` as a table of the route prefixes, with the exact rules and the named exceptions. -/
structure OwnerTable where
  rules : List (List String × List String)
  exact : List (List String)
  exceptions : List (String × List String)
  nodup : (rules.map Prod.fst).Nodup
  words : ∀ rule ∈ rules, ∀ w ∈ rule.1, tableWord w = true
  exceptionsOwned : ∀ e ∈ exceptions, ∃ rule ∈ rules, rule.1 = e.2 ∧ e.1 ∈ rule.2

def routeOwnerRules : List (List String × List String) :=
  [(["clients"], []), (["clients", "deployments"], ["agent-management"]), (["clients", "{}", "deploy"], ["agent-management"]),
    (["core"], []), (["core", "codesign"], ["licensing"]), (["core", "schedules"], ["reportmanager"]), (["core", "serverscript"], ["scriptmanager"]),
    (["core", "openai"], []), (["core", "dashinfo"], [])] ++
  ["settings", "customfields", "keystore", "urlaction", "emailtest", "smstest", "clearcache", "servermaintenance", "version", "webtermperms"].map
    (fun name => (["core", name], ["globalsettings"])) ++
  [(["agents"], ["agents"]), (["agents", "{}", "cmd"], ["remote-background"]), (["agents", "{}", "{}", "webvnc"], ["take-control"]),
    (["agents", "{}", "runscript"], ["scriptexecution"]), (["agents", "{}", "meshcentral"], ["take-control"]),
    (["agents", "{}", "processes"], ["remote-background"]), (["agents", "{}", "registry"], ["remote-background"]),
    (["agents", "{}", "eventlog"], ["remote-background"]), (["agents", "{}", "terminal-defaults"], ["remote-background"]),
    (["agents", "update"], ["agent-management"]), (["agents", "versions"], ["agent-management"]), (["agents", "bulkrecovery"], ["agent-management"]),
    (["agents", "{}", "recover"], ["agent-management"]), (["agents", "{}", "tasks"], ["tasks"]), (["agents", "{}", "checks"], ["checks"]),
    (["logs"], []), (["logs", "pendingactions"], ["agents"]), (["logs", "audit"], ["audit"]), (["logs", "debug"], ["debug"]),
    (["automation"], ["automation"]), (["automation", "patchpolicy"], ["patching"]), (["reporting"], ["reportmanager"]), (["alerts"], ["alerts"]),
    (["scripts"], ["scriptmanager"]), (["checks"], ["checks"]), (["software"], ["software"]), (["tasks"], ["tasks"]),
    (["services"], ["remote-background"]), (["winupdate"], ["patching"])]

/-- `ROUTE_OWNERS`, `EXACT_RULES` and `CATEGORY_EXCEPTIONS`. -/
def routeOwners : OwnerTable where
  rules := routeOwnerRules
  exact := [["agents", "{}", "{}", "webvnc"]]
  exceptions := [("licensing", ["core", "codesign"])]
  nodup := by decide
  words := by decide
  exceptionsOwned := by decide

variable (table : OwnerTable)

def OwnerTable.prefixes : List (List String) := table.rules.map Prod.fst

/-- `ROUTE_OWNERS[rule]`. -/
def OwnerTable.owners (rule : List String) : List String := (Dict.get rule table.rules).getD []

/-- `_honoured_pairs`: a replacement that is honoured now, and the core module it replaces. -/
abbrev Pairs := String → Option String

def joins (pairs : Pairs) (owners : List String) (module : String) : Bool :=
  match pairs module with
  | none => false
  | some replaced => decide (replaced ∈ owners)

/-- `_owners_for_rule`. -/
def ownsRule (pairs : Pairs) (module : String) (rule : List String) : Bool :=
  decide (module ∈ table.owners rule) || joins pairs (table.owners rule) module

def allowsLength (rule : List String) (length : Nat) : Bool := !(decide (rule ∈ table.exact) && decide (rule.length ≠ length))

/-- `_matching_rule`. -/
def matchingRule (literal : List String) : Option (List String) :=
  longest (fun rule => allowsLength table rule literal.length && fits "{}" rule literal) table.prefixes

/-- The literals that a rule has at one place, sorted. -/
def namesAt (index : Nat) : List String :=
  (((table.prefixes.filterMap fun rule => rule[index]?).filter fun w => decide (w ≠ "{}")).eraseDups).mergeSort fun a b => decide (a ≤ b)

/-- What a segment may be as far as the table tells. -/
def options (index : Nat) : Segment → List String
  | .lit text _ => [lower text]
  | .param _ .agent | .param _ .int => ["*other*"]
  | .param _ .str | .param _ .service => namesAt table index ++ ["*other*"]

/-- `_expansion_rules`. -/
def expansionRules (segments : List Segment) : List (Option (List String)) :=
  ((product (segments.zipIdx.map fun s => options table s.2 s.1)).map (matchingRule table)).eraseDups

/-- `effective_category`. -/
def effectiveCategory (declared : String) : String :=
  let value := (stripText declared).toLower
  if value = "" then "test" else value

structure Module where
  id : String
  legacy : Bool
  category : String

def isCore (module : Module) : Bool := decide (effectiveCategory module.category = "core")

/-- One rule that a path can land on. -/
def checkRule (pairs : Pairs) (module : Module) (shown : String) (rule : Option (List String)) : Except String Unit :=
  match rule with
  | none => .error ("route " ++ repr shown ++ " is in no Tactical group that a core module owns. Core's owner table refuses it until a Core release adds it.")
  | some rule =>
    let text := "/".intercalate rule ++ "/"
    if table.owners rule ≠ [] ∧ joins pairs (table.owners rule) module.id then .ok ()
    else if table.owners rule = [] then
      .error ("route " ++ repr shown ++ " is Core's own or no core module owns it yet (rule " ++ text ++ "). No module may declare it.")
    else if module.id ∈ table.owners rule then .ok ()
    else
      .error ("module " ++ repr module.id ++ " does not own route " ++ repr shown ++ " (rule " ++ text ++ ", owner: " ++
        ", ".intercalate ((table.owners rule).mergeSort fun a b => decide (a ≤ b)) ++ "). Declare the operation in the core module that does.")

def excepted (module : String) (rule : Option (List String)) : Bool :=
  match rule with
  | none => false
  | some rule => decide ((module, rule) ∈ table.exceptions)

/-- `_check_route_owner`. -/
def checkRouteOwner (pairs : Pairs) (module : Module) (segments : List Segment) (shown : String) : Except String Unit := do
  let rules := expansionRules table segments
  Raise.require (isCore module || (pairs module.id).isSome || rules.all (excepted table module.id))
    ("module " ++ repr module.id ++ " is not a core module (its category is " ++ effectiveCategory module.category ++
      "). Only the core module that owns a Tactical route can declare its operations.")
  rules.forM (checkRule repr table pairs module shown)

/-! ## Body selectors -/

/-- The values that `equals` may name. -/
inductive Expected where
  | str (s : String)
  | int (n : Int)
  | bool (b : Bool)
deriving DecidableEq

inductive Condition where
  | present (b : Bool)
  | equals (v : Expected)
deriving DecidableEq

theorem nodup_snoc {conditions : List (String × Condition)} {c : String × Condition} (h : (conditions.map Prod.fst).Nodup)
    (hc : c.1 ∉ conditions.map Prod.fst) : ((conditions ++ [c]).map Prod.fst).Nodup := by
  rw [List.map_append, List.nodup_append]
  refine ⟨h, List.nodup_singleton c.1, fun a ha b hb => ?_⟩
  rw [List.map_cons, List.map_nil, List.mem_singleton] at hb
  subst hb
  rintro rfl
  exact hc ha

/-- A selector: a condition on each of some different fields. -/
structure Selector where
  conditions : List (String × Condition)
  nodup : (conditions.map Prod.fst).Nodup
deriving DecidableEq

/-- One condition of `_parse_body_selector`. -/
def addCondition (fields : List String) (s : Selector) (c : String × Condition) : Except String Selector :=
  if c.1 ∉ fields then .error ("body_selector field " ++ repr c.1 ++ " is not one of body_fields.")
  else if h : c.1 ∈ s.conditions.map Prod.fst then .error ("body_selector names field " ++ repr c.1 ++ " twice.")
  else .ok ⟨s.conditions ++ [c], nodup_snoc s.nodup h⟩

/-- `_parse_body_selector`, for conditions of the right shape. -/
def parseBodySelector (fields : List String) (value : List (String × Condition)) : Except String Selector := do
  let selector ← value.foldlM (addCondition repr fields) ⟨[], List.nodup_nil⟩
  Raise.require (decide (selector.conditions.length ≤ 3)) "body_selector has more than 3 conditions."
  pure selector

/-- `_same_value` of a value of the body: `None` is no value. -/
def sameValue (value : Option Json) (expected : Expected) : Bool :=
  match value, expected with
  | some (.str s), .str t => decide (s = t)
  | some (.num n), .int m => decide (n = m)
  | some (.bool b), .bool c => decide (b = c)
  | _, _ => false

/-- `_selectors_exclusive`, for the two conditions on one field. -/
def contradict : Condition → Condition → Bool
  | .present a, .present b => decide (a ≠ b)
  | .equals a, .equals b => decide (a ≠ b)
  | .present b, .equals _ | .equals _, .present b => !b

/-- `_selectors_exclusive`. -/
def selectorsExclusive (first second : Selector) : Bool :=
  second.conditions.any fun c =>
    match Dict.get c.1 first.conditions with
    | none => false
    | some mine => contradict c.2 mine

/-- `body.get(name)`: a null is read as no value. -/
def bodyValue (body : List (String × Json)) (name : String) : Option Json :=
  match Dict.get name body with
  | some .null => none
  | value => value

def conditionHolds (body : List (String × Json)) (c : String × Condition) : Bool :=
  match c.2 with
  | .present b => decide ((bodyValue body c.1).isSome = b)
  | .equals v => sameValue (bodyValue body c.1) v

/-- `_selector_holds`. -/
def selectorHolds (selector : Selector) (body : List (String × Json)) : Bool := selector.conditions.all (conditionHolds body)

/-! ## Registration -/

section

variable {D : Type} [DecidableEq D]

/-- An operation; `before` is the route that `audit.before` reads, as text and parsed, and `rest` has the other fields. -/
structure Operation (D : Type) where
  id : String
  moduleId : String
  method : String
  text : String
  route : Route
  before : Option (String × Route)
  bodyFields : List String
  selector : Selector
  rest : D
deriving DecidableEq

/-- A condition as `==` sees it: a truth value is its number. -/
def Condition.loose : Condition → Condition
  | .equals (.bool b) => .equals (.int (Json.boolNum b))
  | c => c

/-- `existing == operation`. -/
def sameOperation (a b : Operation D) : Bool :=
  decide (a.id = b.id ∧ a.moduleId = b.moduleId ∧ a.method = b.method ∧ a.text = b.text ∧ a.route = b.route ∧ a.before = b.before ∧
    a.bodyFields = b.bodyFields ∧ a.rest = b.rest) &&
    decide (a.selector.conditions.map (fun c => (c.1, c.2.loose)) = b.selector.conditions.map fun c => (c.1, c.2.loose))

/-- `_OPERATIONS` and `_ROUTES`, by the pair of the module and the operation and by the pair of the method and the route key. -/
structure Registry (D : Type) where
  operations : String × String → Option (Operation D)
  routes : String × String → List (String × String)

def Registry.empty : Registry D := ⟨fun _ => none, fun _ => []⟩

/-- What a module passes to `register_tactical_operation`. -/
structure Declaration (D : Type) where
  id : String
  moduleId : String
  method : String
  route : String
  before : Option String
  bodyFields : List String
  selector : List (String × Condition)
  rest : Except String D

/-- The modules as they are now: which resolve, and which replacements are honoured. -/
structure Modules where
  resolve : String → Option Module
  pairs : Pairs

def Operation.key (operation : Operation D) : String × String := (operation.moduleId, operation.id)

def Operation.routeKey (operation : Operation D) : String × String := (operation.method, TacticalOperations.routeKey operation.route)

/-- `_check_module`. -/
def checkModule (modules : Modules) (moduleId : String) : Except String Module :=
  let name := stripText moduleId
  if name = "" ∨ name = "core" then .error "module_id must name the owning core module."
  else
    match modules.resolve name with
    | none => .error ("module " ++ repr name ++ " cannot declare operations")
    | some module => if module.legacy then .error ("module " ++ repr name ++ " is a legacy module and cannot declare operations.") else .ok module

/-- `_ID_RE`. -/
def idRe (s : List Char) : Bool :=
  dollar (fun s =>
    match s with
    | [] => false
    | c :: rest => c.isLower && decide (rest.length ≤ 63) && rest.all fun c => c.isLower || c.isDigit || decide (c ∈ ['_', '-'])) s

/-- `_parse_before`, as far as its route: a parameter is one of the operation's own, of the same kind. -/
def parseBefore (modules : Modules) (module : Module) (verb : String) (route : Route) : Option String → Except String (Option (String × Route))
  | none => .ok none
  | some text => do
    Raise.require (decide (verb ≠ "GET")) "a GET operation changes nothing, so it has no audit.before."
    let before ← parseRoute repr text
    checkRouteOwner repr table modules.pairs module before.segments text
    Raise.require ((namesOf before.segments).all fun p => decide (p ∈ namesOf route.segments))
      "an audit.before route parameter must be a parameter of the operation's own route, with the same kind."
    pure (some (text, before))

/-- What a declaration is read as, before the registry is asked. -/
def readDeclaration (modules : Modules) (d : Declaration D) : Except String (Operation D) := do
  let opId := stripText d.id
  Raise.require (idRe opId.toList) "id must be a lowercase slug such as reboot or wake-on-lan."
  let module ← checkModule repr modules d.moduleId
  let verb := (stripText d.method).toUpper
  Raise.require (decide (verb ∈ ["GET", "POST", "PUT", "PATCH", "DELETE"])) "method must be one of GET, POST, PUT, PATCH, DELETE."
  let route ← parseRoute repr d.route
  checkRouteOwner repr table modules.pairs module route.segments d.route
  Raise.require (decide (d.bodyFields = [] ∨ verb ≠ "GET")) "a GET operation takes no body_fields."
  let before ← parseBefore repr table modules module verb route d.before
  let rest ← d.rest
  let selector ← parseBodySelector repr d.bodyFields d.selector
  pure ⟨opId, module.id, verb, d.route, route, before, d.bodyFields, selector, rest⟩

/-- `_check_route_sharing`. A holder that is not registered would be a `KeyError`. -/
def checkRouteSharing (registry : Registry D) (operation : Operation D) (holders : List (String × String)) : Except String Unit := do
  let others ← (holders.mapM registry.operations).elim (.error "KeyError") Except.ok
  Raise.require (decide (operation.selector.conditions ≠ []) && others.all fun other =>
      decide (other.selector.conditions ≠ [] ∧ other.moduleId = operation.moduleId))
    (operation.method ++ " " ++ operation.text ++ " is already declared by " ++ "/".intercalate (holders.head?.elim [] fun h => [h.1, h.2]) ++
      ". One caller per Tactical route (AD-6).")
  others.forM fun other =>
    Raise.require (selectorsExclusive other.selector operation.selector)
      (operation.method ++ " " ++ operation.text ++ " is already declared by " ++ other.moduleId ++ "/" ++ other.id ++
        ", and the body selectors of the two are not provably exclusive. Give each operation a condition on a field that the other contradicts " ++
        "(present true against present false, or two different equals values).")

def Registry.add (registry : Registry D) (operation : Operation D) : Registry D where
  operations := Function.update registry.operations operation.key (some operation)
  routes := Function.update registry.routes operation.routeKey (registry.routes operation.routeKey ++ [operation.key])

/-- What the registry does with an operation, under its lock. -/
def enter (registry : Registry D) (operation : Operation D) : Except String (Registry D) :=
  match registry.operations operation.key with
  | some existing =>
    if sameOperation existing operation then .ok registry
    else .error ("operation " ++ operation.moduleId ++ "/" ++ operation.id ++ " is already registered with a different definition.")
  | none =>
    if registry.routes operation.routeKey = [] then .ok (registry.add operation)
    else do
      checkRouteSharing registry operation (registry.routes operation.routeKey)
      pure (registry.add operation)

/-- `register_tactical_operation`. -/
def register (modules : Modules) (registry : Registry D) (d : Declaration D) : Except String (Registry D) := do
  let operation ← readDeclaration repr table modules d
  enter registry operation

/-! ## Running an operation -/

/-- A call of `run_tactical_operation`. `cleared` says that every check that reads neither the path nor the body selector passed, and `resolves` that
Tactical still serves the path. -/
structure Call where
  moduleId : String
  operationId : String
  params : List (String × Json)
  body : List (String × Json)
  cleared : Bool
  resolves : Bool

/-- `_lookup`. -/
def lookup (modules : Modules) (registry : Registry D) (call : Call) : Except String (Operation D) :=
  match registry.operations (call.moduleId, call.operationId) with
  | none => .error "tactical_operation_not_found"
  | some operation =>
    match modules.resolve operation.moduleId with
    | none => .error "tactical_operation_not_found"
    | some module =>
      if module.legacy then .error "tactical_operation_not_found"
      else if isCore module || (table.exceptions.map Prod.fst).contains operation.moduleId || (modules.pairs operation.moduleId).isSome then .ok operation
      else .error "tactical_operation_not_found"

/-- The text of a parameter value. -/
def paramText (value : Option Json) : Option String :=
  match value with
  | some (.str s) => some (stripText s)
  | some (.num n) => some (stripText (toString n))
  | _ => none

/-- One parameter of `_clean_params`. -/
def cleanParam (params : List (String × Json)) (p : String × Kind) : Except String (String × String) :=
  match paramText (Dict.get p.1 params) with
  | none => .error "invalid_params"
  | some text => if p.2.valueRe text.toList && !dotted text.toList then .ok (p.1, text) else .error "invalid_params"

/-- `_clean_params`. -/
def cleanParams (route : Route) (params : List (String × Json)) : Except String (List (String × String)) := do
  Raise.require ((params.map Prod.fst).all fun name => decide (name ∈ (namesOf route.segments).map Prod.fst)) "invalid_params"
  (namesOf route.segments).mapM (cleanParam params)

def instantiate (params : List (String × String)) : Segment → String
  | .lit text _ => text
  | .param name _ => (Dict.get name params).getD ""

def pathOf (route : Route) (parts : List String) : List Char :=
  '/' :: ['/'].intercalate (parts.map String.toList) ++ if route.trailing then ['/'] else []

/-- `_concrete_path`. -/
def concretePath (route : Route) (params : List (String × String)) : Except String (List Char) := do
  let parts := route.segments.map (instantiate params)
  Raise.require (!forbiddenRoute parts) "tactical_operation_not_found"
  pure (pathOf route parts)

/-- `path.strip("/").split("/")`. -/
def pathParts (path : List Char) : List String := ((rstripSlash (path.dropWhile (· = '/'))).splitOn '/').map String.ofList

/-- `_recheck_route_owner`. -/
def recheckRouteOwner (pairs : Pairs) (module : String) (path : List Char) : Except String Unit :=
  match matchingRule table ((pathParts path).map lower) with
  | none => .error "tactical_operation_not_found"
  | some rule =>
    Raise.require (excepted table module (some rule) || decide (module ∈ table.owners rule) || ownsRule table pairs module rule)
      "tactical_operation_not_found"

/-- What Core forwards to Tactical. -/
structure Dispatch (D : Type) where
  operation : Operation D
  path : List Char
  body : List (String × Json)

/-- `run_tactical_operation` up to the call of Tactical. -/
def run (modules : Modules) (registry : Registry D) (call : Call) : Except String (Dispatch D) := do
  let operation ← lookup table modules registry call
  Raise.require call.cleared "refused"
  let params ← cleanParams operation.route call.params
  Raise.require (selectorHolds operation.selector call.body) "body_selector_mismatch"
  Raise.require ((call.body.map Prod.fst).all fun name => decide (name ∈ operation.bodyFields)) "body_field_not_allowed"
  let path ← concretePath operation.route params
  recheckRouteOwner table modules.pairs operation.moduleId path
  Raise.require call.resolves "tactical_route_changed"
  pure ⟨operation, path, call.body⟩

/-! ## Runs -/

structure World (D : Type) where
  modules : Modules
  registry : Registry D

inductive Event (D : Type) where
  | declare (d : Declaration D)
  | changeModules (modules : Modules)
  | call (c : Call)
  | restart

/-- One event: the next state, and what is forwarded to Tactical. -/
def step (w : World D) : Event D → World D × Option (Dispatch D)
  | .declare d =>
    match register repr table w.modules w.registry d with
    | .error _ => (w, none)
    | .ok registry => ({ w with registry := registry }, none)
  | .changeModules modules => ({ w with modules := modules }, none)
  | .call c =>
    match run table w.modules w.registry c with
    | .error _ => (w, none)
    | .ok dispatch => (w, some dispatch)
  | .restart => ({ w with registry := .empty }, none)

/-- A run, with the state in which each call was forwarded. -/
def runs (w : World D) : List (Event D) → World D × List (World D × Dispatch D)
  | [] => (w, [])
  | e :: es =>
    let now := step repr table w e
    let later := runs now.1 es
    (later.1, now.2.toList.map (fun d => (w, d)) ++ later.2)

end

end TacticalOperations

end TecTac
