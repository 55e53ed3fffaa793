import TecTac.Delegation

/-!
# What a ticket covers

`resolve_targets` of `delegation.py`: a provider module asks which endpoints the grant behind its ticket covers, before it starts anything. The checks of the ticket
are those of `start`, with one refusal for all of them; the endpoints of the grant are read as a whole, and the references of the call are looked up among them.
-/

namespace TecTac

namespace Delegation

/-- A reference to an endpoint: its number or its agent id. -/
inductive EndpointRef where
  | number (n : Int)
  | text (s : String)
  deriving DecidableEq

/-- `MAX_REF_CHARS`. -/
def maxRefChars : Nat := 100

/-- What one reference has to be; `printable` is `str.isprintable`. -/
def EndpointRef.wellFormed (printable : String → Bool) : EndpointRef → Bool
  | .number n => decide (0 < n ∧ n < 2 ^ 63)
  | .text s => decide (0 < s.length ∧ s.length ≤ maxRefChars) && printable s

/-- The order of the references: numbers before texts. -/
def EndpointRef.le : EndpointRef → EndpointRef → Bool
  | .number m, .number n => decide (m ≤ n)
  | .number _, .text _ => true
  | .text _, .number _ => false
  | .text s, .text t => decide (s ≤ t)

/-- The `endpoint_ids` of a call: something that is no list, tuple or set, or the items of one, of which some are neither numbers nor texts. -/
inductive EndpointIds where
  | other
  | items (values : List (Option EndpointRef))
  deriving DecidableEq

/-- `_endpoint_refs`. -/
def endpointRefs (printable : String → Bool) : EndpointIds → Except Error (List EndpointRef)
  | .other => .error (.refused .badAgents)
  | .items values =>
    if values.length = 0 ∨ SystemActions.maxAgents < values.length then .error (.refused .agentCount)
    else if values.all fun value => value.any (EndpointRef.wellFormed printable) then
      .ok ((values.filterMap id).dedup.insertionSort fun a b => a.le b)
    else .error (.refused .badAgents)

/-- What `resolve_targets` answers. -/
structure Coverage where
  agents : List (String × Int)
  covered : Nat
  notCovered : Nat
  deriving DecidableEq

/-- `by_pk.get(ref)` or `by_id.get(ref)`: of rows with one key the last counts. -/
def lookUp (rows : List Agent) : EndpointRef → Option Agent
  | .number n => rows.reverse.find? fun row => row.pk == n
  | .text s => rows.reverse.find? fun row => row.agentId == s

/-- The references that name a row. -/
def coverage (rows : List Agent) (refs : List EndpointRef) : Coverage :=
  let found := refs.filterMap (lookUp rows)
  let covered := found.foldl (fun covered row => Dict.set row.pk row covered) []
  let agents := (covered.insertionSort fun a b => a.1 ≤ b.1).map fun p => (p.2.agentId, p.1)
  ⟨agents, agents.length, refs.length - found.length⟩

/-- A call of `resolve_targets`. -/
structure ResolveCall where
  env : Env
  ticket : Presented
  actionId : String
  endpointIds : EndpointIds
  printable : String → Bool

/-- `generic`: every problem of a ticket is the same refusal. -/
def generic {α : Type} (x : Except Error α) : Except Error α := x.mapError fun _ => .refused .ticketInvalid

/-- `resolve_targets`. -/
def ResolveCall.resolveTargets (mac : Mac) (clock : Int) (c : ResolveCall) (grants : List Grant) : Except Error Coverage := do
  deny (c.env.caller != "") .callerUnverified
  match openToken mac .ticket c.ticket with
  | none => .error (.refused .ticketInvalid)
  | some body =>
    let (g, _) ← generic (checkedTicket clock c.env body c.actionId grants)
    let refs ← endpointRefs c.printable c.endpointIds
    match snapshotOf g.creationScope with
    | none => .error (.refused .ticketInvalid)
    | some snapshot =>
      match c.env.targetPks g.targets g.ownerModule with
      | none => .error (.refused .ticketInvalid)
      | some resolved =>
        Raise.require c.env.agentRows (.transient "Core could not read the endpoints just now. Try again.")
        -- the reader stops one row after the limit, so that more rows than the limit are seen as such
        let rows := (c.env.directory.agentRowsInScope resolved snapshot).take (SystemActions.maxAgents + 1)
        deny (decide (rows.length ≤ SystemActions.maxAgents)) .ticketInvalid
        return coverage rows refs

/-- The call of `start` with the same ticket and some endpoint numbers. -/
def ResolveCall.startWith (c : ResolveCall) (ids : List Int) (name : Option String) : StartCall :=
  ⟨c.env, c.ticket, c.actionId, .items (ids.map some), name⟩

end Delegation

end TecTac
