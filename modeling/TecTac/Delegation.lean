import TecTac.ScheduleEdit
import TecTac.SystemActions
import TecTac.RunSystem

/-!
# Delegation

`delegation.py`: a person confirms once what one module may later start for them through another. A grant keeps what was confirmed; a ticket is
signed for a live run of the owner module and bound to the grant as it is then; with a ticket the provider module starts a one-off run, which
carries a marker that Core signed for its schedule.

A token is what `_open` makes of a text: its payload and its signature. The HMAC of the server is a parameter, and it is taken of the prefix and
the payload: no prefix is the beginning of a message with another one. A digest is the sorted value that it is a digest of, since SHA-256 is taken
to have no collisions. Moments are in microseconds, as everywhere.
-/

namespace TecTac

namespace Delegation

def ticketTtlSeconds : Int := 24 * 3600

def confirmationTtlSeconds : Int := 600

def maxGrantsPerOwner : Nat := 20

def markerKey : String := "system_action_delegation"

/-- `PARAMETERS_KEY`. -/
def parametersKey : String := "system_action_parameters"

/-- The codes of `REASONS` that the modelled functions give. -/
inductive Reason where
  | callerUnverified | wrongModule | noPerson | badGrantKey | badModule | unknownAction | notDelegable | actionNotDeclared | moduleDisabled
  | replacementNotHonoured | grantLimit | confirmationRequired | confirmationInvalid | takeoverOutOfScope | contextInvalid | grantMissing
  | grantDisabled | grantChanged | ticketInvalid | ticketExpired | creationScopeUnavailable | targetsUnresolved | badAgents | agentCount
  | ticketUsed | outsideGrant
  deriving DecidableEq, Repr

/-- What a call raises: `DelegationRefused`, `SchedulerTransientError`, or what a function of another module raises. -/
inductive Error where
  | refused (reason : Reason)
  | transient (text : String)
  | raised (e : Raised)
  deriving DecidableEq

/-- The refusal of a check that fails. -/
def deny (c : Bool) (reason : Reason) : Except Error Unit := Raise.require c (.refused reason)

/-! ## Tokens -/

/-- What a token is signed for. -/
inductive Purpose where
  | confirmation | ticket | marker
  deriving DecidableEq, Repr

/-- `_CONFIRMATION_PREFIX`, `_TICKET_PREFIX` and `_MARKER_PREFIX`. -/
def Purpose.bytes : Purpose → String
  | .confirmation => "tec-tac-delegation-confirmation-v1|"
  | .ticket => "tec-tac-delegation-ticket-v1|"
  | .marker => "tec-tac-delegated-run-v1|"

theorem Purpose.bytes_injective {p p' : Purpose} (h : p.bytes = p'.bytes) : p = p' := by
  revert h
  cases p <;> cases p' <;> decide

/-- A token, split at its dot and decoded. -/
structure Token where
  payload : Json
  signature : String
  deriving DecidableEq

/-- What is given where a token is expected: nothing (`None` or blank), something that is not of the shape of a token, or a token. -/
inductive Presented where
  | missing
  | malformed
  | token (t : Token)
  deriving DecidableEq

/-- The HMAC of a prefix and a payload under the secret of the server. -/
abbrev Mac := String → Json → String

/-- `_sign`. -/
def sign (mac : Mac) (p : Purpose) (body : Json) : Token := ⟨body, mac p.bytes body⟩

/-- `_open`. -/
def openToken (mac : Mac) (p : Purpose) : Presented → Option (List (String × Json))
  | .token ⟨payload, signature⟩ =>
    if signature = mac p.bytes payload then
      match payload with
      | .obj body => some body
      | _ => none
    else none
  | _ => none

/-- The second of a moment: `int(_clock())`. -/
def second (clock : Int) : Int := clock / 1000000

/-- `int(body.get("x", 0))`. Core signs a number. -/
def expiry (body : List (String × Json)) : Option Int :=
  match Dict.get "x" body with
  | none => some 0
  | some (.num n) => some n
  | some (.bool b) => some (Json.boolNum b)
  | some _ => none

/-! ## Grants -/

/-- `TecTacDelegationGrant`. -/
structure Grant where
  pk : String
  ownerModule : String
  grantKey : String
  providerModule : String := ""
  actionId : String := ""
  targets : Json := .empty
  parameters : Json := .empty
  parametersDigest : Json := .null
  createdById : Option Nat
  createdByUsername : String
  confirmedByUsername : String := ""
  creationScope : Json := .empty
  enabled : Bool := true
  updatedAt : Int
  deriving DecidableEq

/-- `_digest`. -/
def digest (value : Json) : Json := value.canonical

/-- `str(value or "")` of the key of a person. -/
def personKey : Option Nat → String
  | some (n + 1) => toString (n + 1)
  | _ => ""

/-- `grant_digest`. The moment stands for its `isoformat`. -/
def grantDigest (g : Grant) : Json :=
  digest (.obj [
    ("g", .str g.pk), ("o", .str g.ownerModule), ("k", .str g.grantKey), ("p", .str g.providerModule), ("a", .str g.actionId), ("t", g.targets),
    ("q", g.parametersDigest), ("u", .str (personKey g.createdById)), ("n", .str g.createdByUsername), ("e", .bool g.enabled),
    ("w", .num g.updatedAt)])

/-- `_parameters_of`. -/
def parametersOf : Json → Json
  | .obj kvs => (Dict.get parametersKey kvs).getD .null
  | _ => .null

/-- `parameters if isinstance(parameters, dict) else {}`. -/
def dictOf : Json → List (String × Json)
  | .obj kvs => kvs
  | _ => []

def isLowerOrDigit (c : Char) : Bool := ('a' ≤ c && c ≤ 'z') || ('0' ≤ c && c ≤ '9')

/-- `_ID_RE.fullmatch`. -/
def isId (s : String) : Bool :=
  match s.toList with
  | [] => false
  | c :: cs => isLowerOrDigit c && decide (cs.length ≤ 63) && cs.all fun c => isLowerOrDigit c || c == '_' || c == '-'

/-- `_GRANT_KEY_RE.fullmatch`. -/
def isGrantKey (s : String) : Bool :=
  match s.toList with
  | [] => false
  | c :: cs =>
    isLowerOrDigit c && decide (cs.length ≤ 119) && cs.all fun c => isLowerOrDigit c || c == ':' || c == '_' || c == '.' || c == '-'

/-! ## The modules -/

/-- A registered system action, as far as delegation reads it. -/
structure Definition where
  moduleId : String
  delegableTo : List String
  function : String
  viaReplacement : Bool := false

/-- A row of `SYSTEM_FUNCTIONS`: whether it is a task, and the module whose function it is. -/
structure Function where
  task : Bool
  ownerModule : String

/-- What Core knows of the modules at a moment. A read that fails answers no. -/
structure Registry where
  definition : String → Option Definition
  scheduledAction : String → Option Action
  function : String → Option Function
  declaredNow : String → String → Bool
  enabledNow : String → Bool
  honoured : String → Option String

/-- `_provider_action`. -/
def Registry.providerAction (r : Registry) (ownerModule providerModule actionId : String) : Except Error Action := do
  match r.definition actionId, r.scheduledAction actionId with
  | some d, some action =>
    deny (d.moduleId == providerModule) .unknownAction
    deny (action.moduleId == providerModule) .unknownAction
    deny (d.delegableTo.contains ownerModule) .notDelegable
    match r.function d.function with
    | none => .error (.refused .unknownAction)
    | some entry =>
      deny entry.task .notDelegable
      deny (r.declaredNow providerModule actionId) .actionNotDeclared
      deny (r.enabledNow providerModule && r.enabledNow ownerModule) .moduleDisabled
      deny (!d.viaReplacement || r.honoured providerModule == some entry.ownerModule) .replacementNotHonoured
      return action
  | _, _ => .error (.refused .unknownAction)

/-- `_need_caller`. -/
def needCaller (caller expected : String) : Except Error Unit := do
  deny (caller != "") .callerUnverified
  deny (caller == expected) .wrongModule

/-- `_check_ids`. -/
def checkIds (ownerModule providerModule : String) : Except Error Unit := deny (isId ownerModule && isId providerModule) .badModule

/-! ## Endpoints and scopes -/

/-- An endpoint of Tactical, with the client and the site it is at. -/
structure Agent where
  pk : Int
  agentId : String
  clientId : Int
  siteId : Int
  deriving DecidableEq

/-- The clients, the sites with the client of each, and the endpoints of Tactical. -/
structure Directory where
  clients : List Int
  sites : List (Int × Int)
  agents : List Agent
  pks_nodup : (agents.map Agent.pk).Nodup
  site_of_agent : ∀ a ∈ agents, Dict.get a.siteId sites = some a.clientId

/-- The scope of a Tactical role, live or as a snapshot keeps it. -/
structure RoleScope where
  unrestricted : Bool
  wholeClientIds : List Int
  siteIds : List Int
  deriving DecidableEq

/-- `covers`, the rule of Tactical for a site and for the endpoints at it. -/
def RoleScope.covers (scope : RoleScope) (clientId siteId : Int) : Bool :=
  scope.unrestricted || scope.wholeClientIds.contains clientId || scope.siteIds.contains siteId

/-- An endpoint is inside a scope. -/
def RoleScope.reaches (scope : RoleScope) (a : Agent) : Bool := scope.covers a.clientId a.siteId

/-- A positive whole number of a scope. -/
def scopeId : Json → Option Int
  | .num n => if 0 < n then some n else none
  | _ => none

/-- `_ids` of `scheduler_creation_scope.py`; nothing where it raises. -/
def scopeIds : Json → Option (List Int)
  | .arr xs => (xs.mapM scopeId).map fun ids => ids.dedup.insertionSort (· ≤ ·)
  | v => if v.truthy then none else some []

/-- `_FLAG_RE.fullmatch`, of a value that has to be a text. -/
def isFlag : Json → Bool
  | .str s =>
    match s.toList with
    | 'c' :: 'a' :: 'n' :: '_' :: cs => decide (1 ≤ cs.length ∧ cs.length ≤ 80) && cs.all fun c => isLowerOrDigit c || c == '_'
    | _ => false
  | _ => false

/-- `snapshot_of`, as far as the scope goes: nothing for what is not a snapshot that Core wrote. -/
def snapshotOf (creationScope : Json) : Option RoleScope :=
  match creationScope with
  | .obj value =>
    match Dict.get "v" value, Dict.get "scope" value, Dict.get "flags" value with
    | some v, some (.obj scope), some (.arr flags) =>
      match Dict.get "unrestricted" scope with
      | some (.bool unrestricted) =>
        if v.same (.num 1) && flags.all isFlag then
          match scopeIds ((Dict.get "whole_client_ids" scope).getD .null), scopeIds ((Dict.get "site_ids" scope).getD .null) with
          | some clients, some sites => some ⟨unrestricted, clients, sites⟩
          | _, _ => none
        else none
      | _ => none
    | _, _, _ => none
  | _ => none

/-- What `tactical_scope_ref` answers. -/
inductive ScopeRef where
  | none
  | module
  | client (ids : List Int)
  | site (ids : List Int)
  | endpoint (ids : List String)
  deriving DecidableEq

/-- What a call reads of the rest of Core. `scopeRef` is `tactical_scope_ref`, nothing where it raises; `hasResolver` says whether a module has a
resolver for the type of the targets, which is then none of those that Core reads itself, and only such a resolver is asked; `scope` is the role scope
of a person and `captureScope` the snapshot of it; `controls` are the creation-time controls, and `agentRows` says whether the endpoints can be read. -/
structure Env where
  caller : String
  registry : Registry
  directory : Directory
  scopeRef : Json → Option ScopeRef
  hasResolver : String → Json → Bool
  resolveAgentPks : String → Json → Option (List Int)
  resolver_type : ∀ m targets, hasResolver m targets = true → scopeRef targets = some .module
  resolver_asked : ∀ m targets, hasResolver m targets = false → resolveAgentPks m targets = none
  scope : Person → RoleScope
  captureScope : Person → Json
  controls : Person → Action → Json → Json → String → Except Raised Unit
  normalizeTargets : Json → Except Raised Json
  canonicalForUser : Person → Json → Except Raised Json
  casefold : String → String
  agentRows : Bool := true
  audit : Bool := true

namespace Directory

/-- The endpoints that a role may see: `filter_by_role`. -/
def within (d : Directory) (scope : RoleScope) : List Agent := d.agents.filter scope.reaches

/-- The endpoints that a text names, by their id or by their number. -/
def named (token : String) (agents : List Agent) : List (Int × String) :=
  ((agents.filter fun a => a.agentId == token || toString a.pk == token).map fun a => (a.pk, a.agentId)).dedup

/-- `str(value).strip()`. -/
def stripped (s : String) : String := String.ofList (strip s.toList)

/-- The endpoint branch of `agent_pks_for_scheduler_targets`; a text that names two endpoints raises. -/
def endpointPks (d : Directory) (ids : List String) : Option (List Int) :=
  let tokens := (ids.map stripped).dedup
  if tokens.all fun token => (named token d.agents).length ≤ 1 then some (tokens.flatMap fun token => (named token d.agents).map Prod.fst) else none

/-- `agent_target_identifiers_in_scope`; a text that names two endpoints raises. -/
def identifiersInScope (d : Directory) (scope : RoleScope) (ids : List String) : Option (List String) :=
  let tokens := ids.map stripped
  if tokens.all fun token => (named token (d.within scope)).length ≤ 1 then some (tokens.filter fun token => !(named token (d.within scope)).isEmpty)
  else none

/-- `agent_rows_in_scope` for numbers and a snapshot. -/
def agentRowsInScope (d : Directory) (pks : List Int) (snapshot : RoleScope) : List Agent :=
  ((d.within snapshot).filter fun a => pks.contains a.pk).insertionSort fun a b => a.pk ≤ b.pk

end Directory

namespace Env

/-- `_target_pks`: the numbers of the endpoints that targets name, nothing when Core cannot read them. -/
def targetPks (env : Env) (targets : Json) (moduleId : String) : Option (List Int) :=
  match env.scopeRef targets with
  | none => none
  | some .none => some []
  | some .module => env.resolveAgentPks moduleId targets
  | some (.client ids) =>
    some ((env.directory.agents.filter fun a => ids.contains a.clientId && env.directory.clients.contains a.clientId).map Agent.pk)
  | some (.site ids) => some ((env.directory.agents.filter fun a => ids.contains a.siteId).map Agent.pk)
  | some (.endpoint ids) => env.directory.endpointPks ids

/-- `_resolver_scope_check` with `strict`. -/
def resolverScopeCheck (env : Env) (scope : RoleScope) (moduleId : String) (targets : Json) : Option Bool :=
  if !env.hasResolver moduleId targets then none
  else
    match env.resolveAgentPks moduleId targets with
    | none | some [] => some false
    | some pks => some (pks.all fun pk => (env.directory.within scope).any fun a => a.pk == pk)

/-- `_can_access_target_scope` with `strict`. -/
def canAccessTargetScope (env : Env) (scope : RoleScope) (targets : Json) : Bool :=
  match env.scopeRef targets with
  | none => false
  | some .none | some .module => scope.unrestricted
  | some (.client ids) =>
    !ids.isEmpty && ids.all fun id =>
      decide (0 < id) && if scope.unrestricted then env.directory.clients.contains id else scope.wholeClientIds.contains id
  | some (.site ids) =>
    !ids.isEmpty && ids.all fun id => decide (0 < id) && (Dict.get id env.directory.sites).any fun client => scope.covers client id
  | some (.endpoint ids) =>
    !ids.isEmpty && (env.directory.identifiersInScope scope ids).any fun allowed => ids.all fun id => allowed.contains id

/-- `_person_covers_targets`. -/
def personCoversTargets (env : Env) (scope : RoleScope) (action : Action) (targets : Json) : Bool :=
  (env.resolverScopeCheck scope action.moduleId targets).getD (env.canAccessTargetScope scope targets)

end Env

/-- What a person's request names, in `describe` and in `register`. -/
structure Asked where
  env : Env
  person : Option Person
  ownerModule : String
  providerModule : String
  actionId : String
  targets : Json
  parameters : Json

/-- What another module of Core raises. -/
def lift {α : Type} : Except Raised α → Except Error α
  | .ok a => .ok a
  | .error e => .error (.raised e)

namespace Asked

/-- `_confirmation_body`. -/
def confirmationBody (a : Asked) (person : Person) : Except Error (List (String × Json)) := do
  let normalized ← lift (a.env.normalizeTargets a.targets)
  return [("a", .str a.actionId), ("o", .str a.ownerModule), ("p", .str a.providerModule), ("q", digest (parametersOf a.parameters)),
    ("t", digest normalized), ("u", .str (toString person.id))]

/-- The checks that `describe` and `register` make of the request. `register` checks its grant key among them. -/
def check (a : Asked) (keyOk : Bool) : Except Error (Person × Action) := do
  checkIds a.ownerModule a.providerModule
  needCaller a.env.caller a.ownerModule
  deny keyOk .badGrantKey
  match a.person with
  | none => .error (.refused .noPerson)
  | some person =>
    let action ← a.env.registry.providerAction a.ownerModule a.providerModule a.actionId
    lift (a.env.controls person action a.targets a.parameters a.ownerModule)
    return (person, action)

/-- `describe`: the body of the confirmation id it signs. -/
def describe (a : Asked) (clock : Int) : Except Error (List (String × Json)) := do
  let (person, _) ← a.check true
  let body ← a.confirmationBody person
  return body ++ [("x", .num (second clock + confirmationTtlSeconds))]

/-- `_confirmation_ok`. -/
def confirmationOk (mac : Mac) (clock : Int) (a : Asked) (person : Person) (id : Presented) : Except Error Bool :=
  match openToken mac .confirmation id with
  | none => .ok false
  | some body => do
    let wanted ← a.confirmationBody person
    return wanted.all (fun kv => decide (Dict.get kv.1 body = some kv.2)) && (expiry body).any fun x => decide (second clock ≤ x)

end Asked

/-- `_owner_differs`. -/
def ownerDiffers (env : Env) (g : Grant) (person : Person) : Bool :=
  match g.createdById with
  | some owner => owner != person.id
  | none => env.casefold g.createdByUsername != env.casefold person.name

/-- The judgement of a takeover: the resolver of the owner module, and without one the person's own scope. -/
def takeoverCovered (env : Env) (person : Person) (ownerModule : String) (action : Action) (targets : Json) : Bool :=
  (env.resolverScopeCheck (env.scope person) ownerModule targets).getD (env.personCoversTargets (env.scope person) action targets)

/-- A call of `register`; `newPk` is the key that a new row gets. -/
structure RegisterCall extends Asked where
  grantKey : String
  confirmationId : Presented
  newPk : String

/-- `_grants().filter(owner_module=..., grant_key=...).first()`. -/
def findGrant (ownerModule grantKey : String) (grants : List Grant) : Option Grant :=
  grants.find? fun g => g.ownerModule == ownerModule && g.grantKey == grantKey

/-- A save of a grant, which writes `updated_at`. -/
def saveGrant (g : Grant) (grants : List Grant) : List Grant :=
  if grants.any (·.pk == g.pk) then grants.map fun old => if old.pk = g.pk then g else old else grants ++ [g]

namespace RegisterCall

/-- The grant before its fields are written: a new one, or the stored one, which a new owner takes over. -/
def claimed (c : RegisterCall) (person : Person) (action : Action) (canonical : Json) (grants : List Grant) : Except Error Grant :=
  match findGrant c.ownerModule c.grantKey grants with
  | none => do
    deny (decide ((grants.filter fun g => g.ownerModule == c.ownerModule).length < maxGrantsPerOwner)) .grantLimit
    return { pk := c.newPk, ownerModule := c.ownerModule, grantKey := c.grantKey, createdById := some person.id, createdByUsername := person.name,
             updatedAt := 0 }
  | some g =>
    if ownerDiffers c.env g person then do
      deny (takeoverCovered c.env person c.ownerModule action canonical) .takeoverOutOfScope
      return { g with createdById := some person.id, createdByUsername := person.name }
    else .ok g

/-- What `register` writes of a confirmed call. -/
def written (c : RegisterCall) (clock : Int) (person : Person) (canonical : Json) (g : Grant) : Grant :=
  { g with
    providerModule := c.providerModule
    actionId := c.actionId
    targets := canonical
    parameters := .obj (dictOf c.parameters)
    parametersDigest := digest (parametersOf c.parameters)
    confirmedByUsername := person.name
    creationScope := c.env.captureScope person
    enabled := true
    updatedAt := clock }

/-- `register`: the grant that it saves. -/
def register (mac : Mac) (clock : Int) (c : RegisterCall) (grants : List Grant) : Except Error Grant := do
  let (person, action) ← c.toAsked.check (isGrantKey c.grantKey)
  deny (decide (c.confirmationId ≠ .missing)) .confirmationRequired
  let ok ← c.toAsked.confirmationOk mac clock person c.confirmationId
  deny ok .confirmationInvalid
  let normalized ← lift (c.env.normalizeTargets c.targets)
  let canonical ← lift (c.env.canonicalForUser person normalized)
  let g ← c.claimed person action canonical grants
  Raise.require c.env.audit (.transient "The audit row of this delegation could not be written, so nothing was changed.")
  return c.written clock person canonical g

end RegisterCall

/-- `remove`: the grant that it deletes, if there is one. -/
def remove (env : Env) (ownerModule grantKey : String) (grants : List Grant) : Except Error (Option Grant) := do
  deny (isId ownerModule) .badModule
  needCaller env.caller ownerModule
  deny (isGrantKey grantKey) .badGrantKey
  match findGrant ownerModule grantKey grants with
  | none => return none
  | some g =>
    Raise.require env.audit (.transient "The audit row of this delegation could not be written, so nothing was changed.")
    return some g

/-! ## Tickets -/

/-- The body of a ticket. -/
def ticketBody (runId : String) (g : Grant) (ownerModule : String) (clock : Int) : List (String × Json) :=
  [("d", grantDigest g), ("g", .str g.pk), ("o", .str ownerModule), ("p", .str g.providerModule), ("r", .str runId),
    ("x", .num (second clock + ticketTtlSeconds))]

/-- `issue_ticket`: the grant and the body of the ticket that it signs. `run` is the run of the context and its module, when the context is one that
Core issued for a run that is still going. -/
def issueTicket (clock : Int) (env : Env) (run : Option (String × String)) (grantKey : String) (grants : List Grant) :
    Except Error (Grant × List (String × Json)) :=
  match run with
  | none => .error (.refused .contextInvalid)
  | some (runId, moduleId) => do
    needCaller env.caller moduleId
    deny (isGrantKey grantKey) .badGrantKey
    match findGrant moduleId grantKey grants with
    | none => .error (.refused .grantMissing)
    | some g =>
      deny g.enabled .grantDisabled
      return (g, ticketBody runId g moduleId clock)

/-- The grant that a body names: `_grants().filter(pk=body.get("g")).first()`. -/
def grantOf (body : List (String × Json)) (grants : List Grant) : Option Grant :=
  grants.find? fun g => decide (Dict.get "g" body = some (.str g.pk))

/-- `_checked_ticket`: the grant and the action. -/
def checkedTicket (clock : Int) (env : Env) (body : List (String × Json)) (actionId : String) (grants : List Grant) :
    Except Error (Grant × Action) := do
  match expiry body with
  | none => .error (.refused .ticketInvalid)
  | some x =>
    deny (decide (second clock ≤ x)) .ticketExpired
    match grantOf body grants with
    | none => .error (.refused .grantMissing)
    | some g =>
      deny g.enabled .grantDisabled
      deny (decide (Dict.get "d" body = some (grantDigest g) ∧ Dict.get "o" body = some (.str g.ownerModule) ∧
        Dict.get "p" body = some (.str g.providerModule))) .grantChanged
      deny (g.providerModule == env.caller) .wrongModule
      deny (g.actionId == actionId) .unknownAction
      let action ← env.registry.providerAction g.ownerModule env.caller actionId
      return (g, action)

/-! ## Starting a run -/

/-- A call of `start`. -/
structure StartCall where
  env : Env
  ticket : Presented
  actionId : String
  agentIds : SystemActions.AgentIds
  name : Option String

/-- What `start` has read when it looks for an earlier run. -/
structure Order where
  caller : String
  body : List (String × Json)
  grant : Grant
  action : Action
  rows : List Agent
  name : Option String

/-- The reason codes of `_agent_ids`. -/
def agentIds (ids : SystemActions.AgentIds) : Except Error (List Int) :=
  match SystemActions.agentIds ids with
  | .ok ids => .ok ids
  | .error code => .error (.refused (if code = "agent_count" then .agentCount else .badAgents))

/-- `start`, up to the call key. -/
def StartCall.prepare (mac : Mac) (clock : Int) (c : StartCall) (grants : List Grant) : Except Error Order := do
  deny (c.env.caller != "") .callerUnverified
  match openToken mac .ticket c.ticket with
  | none => .error (.refused .ticketInvalid)
  | some body =>
    let (g, action) ← checkedTicket clock c.env body c.actionId grants
    let ids ← Delegation.agentIds c.agentIds
    match snapshotOf g.creationScope with
    | none => .error (.refused .creationScopeUnavailable)
    | some snapshot =>
      match c.env.targetPks g.targets g.ownerModule with
      | none => .error (.refused .targetsUnresolved)
      | some resolved =>
        deny (ids.all fun pk => resolved.contains pk) .outsideGrant
        Raise.require c.env.agentRows (.transient "Core could not read the endpoints just now. Try again.")
        let rows := c.env.directory.agentRowsInScope ids snapshot
        deny (ids.all fun pk => rows.any fun row => row.pk == pk) .outsideGrant
        return ⟨c.env.caller, body, g, action, rows, c.name⟩

namespace Order

/-- The text of a token, as it stands in a JSON column. -/
def tokenJson (t : Token) : Json := .arr [t.payload, .str t.signature]

/-- A value of a JSON column as a token. -/
def presented : Json → Presented
  | .arr [payload, .str signature] => .token ⟨payload, signature⟩
  | .null => .missing
  | _ => .malformed

/-- What `call_key` is made of. -/
def callKey (o : Order) : Json :=
  digest (.obj [("r", (Dict.get "r" o.body).getD .null), ("g", .str o.grant.pk), ("d", grantDigest o.grant), ("a", .str o.grant.actionId)])

/-- The owner key; `uuid` writes a digest as a UUID. -/
def ownerKey (uuid : Json → String) (o : Order) : String := "one-off:" ++ uuid o.callKey

/-- The targets of the run: exactly the endpoints of the call. -/
def targets (o : Order) : Json := .obj [("type", .str "endpoint"), ("ids", .arr (o.rows.map fun row => .str row.agentId))]

/-- The body of the marker. -/
def markerBody (scheduleId : String) (g : Grant) : List (String × Json) := [("d", grantDigest g), ("g", .str g.pk), ("s", .str scheduleId)]

/-- The parameters of the run: those of the grant, and the marker. -/
def parameters (mac : Mac) (scheduleId : String) (o : Order) : Json :=
  .obj (Dict.set markerKey (tokenJson (sign mac .marker (.obj (markerBody scheduleId o.grant)))) (dictOf o.grant.parameters))

/-- `str(name or f"{action.label} · delegated").strip()[:255]`. -/
def label (o : Order) : String :=
  let text := match o.name with
    | some name => if name = "" then o.action.label ++ " · delegated" else name
    | none => o.action.label ++ " · delegated"
  String.ofList ((strip text.toList).take 255)

/-- The one-off schedule that `start` creates. -/
def schedule (mac : Mac) (uuid : Json → String) (id : String) (clock : Int) (o : Order) : ScheduleRow where
  id := id
  name := o.label
  moduleId := o.action.moduleId
  actionId := o.action.id
  targets := o.targets
  parameters := o.parameters mac id
  scheduleType := .once
  runAt := some clock
  ownerType := .module
  ownerModule := o.caller
  ownerKey := o.ownerKey uuid
  enabled := false
  createdBy := o.grant.createdByUsername
  updatedAt := clock
  createdById := o.grant.createdById
  updatedById := o.grant.createdById
  confirmedBy := o.grant.confirmedByUsername
  creationScope := o.grant.creationScope

/-- The run that `start` creates. -/
def run (mac : Mac) (uuid : Json → String) (id runId : String) (clock : Int) (o : Order) : RunRow :=
  { runKwargs (o.schedule mac uuid id clock).toSchedule runId clock clock with manual := true, targetsSnapshot := o.targets }

/-- The endpoints of the targets of a schedule that `start` created. -/
def endpointsOf : Json → Option (List String)
  | .obj kvs =>
    match Dict.get "ids" kvs with
    | some (.arr ids) => ids.mapM fun id =>
      match id with
      | .str s => some s
      | _ => none
    | _ => none
  | _ => none

/-- Whether an earlier schedule is for the endpoints of the call. -/
def sameEndpoints (o : Order) (existing : ScheduleRow) : Bool :=
  match endpointsOf existing.targets with
  | none => false
  | some earlier => (earlier.all fun id => o.rows.any fun row => row.agentId == id) && o.rows.all fun row => earlier.contains row.agentId

end Order

/-- A run row with `schedule_snapshot_id`. -/
structure DelegatedRun where
  snapshotId : String
  sys : RunSys

/-- `is_one_off_key`. -/
def isOneOffKey (key : String) : Bool := key.startsWith "one-off:"

/-- `run_is_validly_delegated`, with `DECISION_RECORDED`. -/
def runIsValidlyDelegated (mac : Mac) (grants : List Grant) (r : DelegatedRun) : Bool :=
  match openToken mac .marker (Order.presented ((Dict.get markerKey (dictOf r.sys.row.parametersSnapshot)).getD .null)) with
  | none => false
  | some body =>
    r.snapshotId != "" && decide (Dict.get "s" body = some (.str r.snapshotId)) && r.sys.row.ownerType == .module && isOneOffKey r.sys.row.ownerKey &&
    match grantOf body grants with
    | none => false
    | some g => g.enabled && g.providerModule == r.sys.row.ownerModule && decide (Dict.get "d" body = some (grantDigest g))

end Delegation

end TecTac
