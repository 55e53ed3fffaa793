import Mathlib
import TecTac.Lib.Machine

/-!
# Terminal tickets

The tickets of `tactical_websocket.py` and the two sockets that take them. Any number of calls of `issue_ticket` and any number of sockets take their steps
in any order, and a step is one access of the cache, one read of what Core and Tactical hold, or one audit row. The cache may lose an entry at any time,
which is also how an entry ends after its thirty seconds. The random ticket, the random session id and the answer of a step that can fail come with the
step. Times are microseconds.
-/

namespace TecTac

namespace TerminalTickets

def ticketTtl : Int := 30 * 1000000

/-- The keys of `KINDS`. -/
inductive Kind where
  | agentTerminal
  | serverTerminal
  deriving DecidableEq

/-! ## The ticket -/

def isTicketChar (c : Char) : Bool := c.isAlphanum || c == '_' || c == '-'

/-- `TICKET_PATTERN.fullmatch`. -/
def ticketPattern (ticket : String) : Bool := ticket.toList.length == 43 && ticket.toList.all isTicketChar

def isAgentIdChar (c : Char) : Bool := c.isAlphanum || c == '.' || c == '_' || c == ':' || c == '-'

/-- `AGENT_ID_PATTERN.fullmatch`. -/
def agentIdPattern (agentId : String) : Bool :=
  decide (1 ≤ agentId.toList.length ∧ agentId.toList.length ≤ 128) && agentId.toList.all isAgentIdChar

/-- `cache_key`, given the hex digest of SHA-256. -/
def cacheKey (sha256 : String → String) (ticket : String) : String := "tec-tac:wsticket:v1:" ++ sha256 ticket

/-- What the cache keeps of a ticket. -/
structure Value where
  userId : Nat
  trustId : String
  knoxDigest : String
  moduleId : String
  kind : Kind
  sessionId : String
  correlationId : String
  expiresAt : Int
  agentId : Option String
  deriving DecidableEq

/-- The agent id of a request. -/
inductive AgentArg where
  | absent
  | text (agentId : String)
  | other
  deriving DecidableEq

/-- A call of `issue_ticket`. `user` is nothing without a user who is signed in and a Tec-Tac session, and `kind` is nothing for a name outside `KINDS`. -/
structure Request where
  user : Option Nat
  trustId : String
  knoxDigest : String
  moduleId : String
  kind : Option Kind
  agentId : AgentArg
  correlationId : String

/-- A `TicketRefusal`. -/
structure Refusal where
  status : Nat
  code : String
  deriving DecidableEq

/-- What the checks read. `inScope` is nothing where the read raises; `refused` says that `session_refusal` gives a reason, or that it raised. -/
structure World where
  ownerRefusal : String → Kind → Bool
  effectiveSuperuser : Nat → Bool
  serverTerminalEnabled : Bool
  permission : Nat → Kind → Bool
  inScope : Nat → String → Option Bool
  refused : Value → Bool
  userPresent : Nat → Bool

/-- `server_terminal_available`. -/
def World.serverTerminalAvailable (w : World) (user : Nat) : Bool := w.serverTerminalEnabled && w.permission user .serverTerminal

/-- The checks of `issue_ticket` on the agent id, before the owner is asked. -/
def checkAgentArg : Kind → AgentArg → Except Refusal (Option String)
  | .serverTerminal, .absent => .ok none
  | .serverTerminal, _ => .error ⟨400, "invalid_ticket_request"⟩
  | .agentTerminal, .text agentId => if agentIdPattern agentId then .ok (some agentId) else .error ⟨400, "invalid_agent_id"⟩
  | .agentTerminal, _ => .error ⟨400, "invalid_agent_id"⟩

/-- The checks of `issue_ticket` on the person. -/
def checkPerson (w : World) (user : Nat) : Kind → Option String → Except Refusal Unit
  | .serverTerminal, _ =>
    if !w.effectiveSuperuser user then .error ⟨403, "superuser_required"⟩
    else if !w.serverTerminalAvailable user then .error ⟨403, "server_terminal_disabled"⟩
    else .ok ()
  | .agentTerminal, agentId =>
    if !w.permission user .agentTerminal then .error ⟨403, "tactical_permission_denied"⟩
    else if (agentId.bind (w.inScope user)).getD false then .ok ()
    else .error ⟨404, "object_not_found"⟩

/-- `issue_ticket` up to the cache. -/
def mint (w : World) (now : Int) (sessionId : String) (r : Request) : Except Refusal Value := do
  match r.user with
  | none => .error ⟨401, "authenticated_request_required"⟩
  | some user =>
    match r.kind with
    | none => .error ⟨404, "websocket_kind_not_found"⟩
    | some kind => do
      let agentId ← checkAgentArg kind r.agentId
      if w.ownerRefusal r.moduleId kind then .error ⟨403, "websocket_owner_required"⟩
      else do
        checkPerson w user kind agentId
        if r.knoxDigest = "" then .error ⟨401, "tactical_session_required"⟩
        else return ⟨user, r.trustId, r.knoxDigest, r.moduleId, kind, sessionId, r.correlationId, now + ticketTtl, agentId⟩

/-- `recheck` of the two consumers: a close code, or nothing. -/
def recheck (w : World) (v : Value) : Option Nat :=
  if w.refused v then some 4401
  else if !w.userPresent v.userId then some 4401
  else match v.kind with
    | .agentTerminal =>
      if !w.permission v.userId .agentTerminal then some 4003
      else match v.agentId.bind (w.inScope v.userId) with
        | none => some 4401
        | some inside => if inside then none else some 4003
    | .serverTerminal =>
      if !w.effectiveSuperuser v.userId then some 4003
      else if !w.serverTerminalEnabled || !w.permission v.userId .serverTerminal then some 4003
      else none

/-! ## The steps -/

/-- An entry of the cache; `issuer` is the call that stored it. -/
structure Entry where
  issuer : Nat
  value : Value
  deriving DecidableEq

/-- A ticket that was minted: for which request, when, and what the checks read. -/
structure Minted where
  request : Request
  ticket : String
  value : Value
  seen : World
  time : Int

/-- Where a call of `issue_ticket` stands. -/
inductive Issue where
  | idle
  | minted (m : Minted)
  | stored (m : Minted)
  | unwanted (m : Minted)
  | issued (m : Minted)
  | unavailable (m : Minted)
  | refused (r : Refusal)

/-- The ticket a call minted. -/
def Issue.mint? : Issue → Option Minted
  | .idle => none
  | .minted m => some m
  | .stored m => some m
  | .unwanted m => some m
  | .issued m => some m
  | .unavailable m => some m
  | .refused _ => none

/-- What a socket took out of the cache, and when. -/
structure Taken where
  ticket : String
  entry : Entry
  time : Int

/-- Where a socket stands. `admitted` is after every check, `recorded` after the audit row, and `running` when Tactical has started the shell; the last
part is what the recheck read. -/
inductive Socket where
  | idle
  | opened (path : Kind) (origin : Bool) (ticket : String)
  | read (path : Kind) (origin : Bool) (ticket : String) (entry : Entry)
  | took (path : Kind) (origin : Bool) (ticket : String) (entry : Entry)
  | valid (path : Kind) (t : Taken)
  | admitted (path : Kind) (t : Taken) (seen : World)
  | recorded (path : Kind) (t : Taken) (seen : World)
  | running (path : Kind) (t : Taken) (seen : World)
  | closed (code : Nat)

/-- A check at connect and at a tick of the watcher. -/
def watched (w : World) (t : Taken) (stays : Socket) : Socket :=
  match recheck w t.entry.value with
  | some code => .closed code
  | none => stays

/-- The start row of a terminal. -/
structure StartRow where
  socket : Nat
  actor : Nat
  moduleId : String
  kind : Kind
  objectId : Option String
  sessionId : String
  correlationId : String
  deriving DecidableEq

/-- `uses` has the socket that took an entry out of the cache and the call that had stored it, the newest first. -/
structure State where
  now : Int
  world : World
  cache : String → Option Entry
  issues : Nat → Issue
  sockets : Nat → Socket
  rows : List StartRow
  uses : List (Nat × Nat)

inductive Event where
  | clock (now : Int)
  | world (w : World)
  | lost (key : String)
  | issue (i : Nat) (request : Request) (ticket sessionId : String)
  | add (i : Nat) (fails : Bool)
  | confirm (i : Nat) (fails : Bool)
  | discard (i : Nat)
  | connect (s : Nat) (path : Kind) (origin : Bool) (ticket : String)
  | read (s : Nat) (fails : Bool)
  | take (s : Nat) (fails : Bool)
  | expiry (s : Nat)
  | recheck (s : Nat)
  | startRow (s : Nat) (recorded : Bool)
  | start (s : Nat) (refusal : Option Nat)
  | close (s : Nat) (code : Nat)

def startState (w : World) : State := ⟨0, w, fun _ => none, fun _ => .idle, fun _ => .idle, [], []⟩

def State.setIssue (st : State) (i : Nat) (stage : Issue) : State := { st with issues := Function.update st.issues i stage }

def State.setSocket (st : State) (s : Nat) (stage : Socket) : State := { st with sockets := Function.update st.sockets s stage }

def State.setCache (st : State) (key : String) (entry : Option Entry) : State := { st with cache := Function.update st.cache key entry }

/-- The row of `_write_start_row`. -/
def startRow (s : Nat) (v : Value) : StartRow := ⟨s, v.userId, v.moduleId, v.kind, v.agentId, v.sessionId, v.correlationId⟩

section

variable (sha256 : String → String)

/-- The steps of `issue_ticket`: the checks, `cache.add`, `cache.get` with the comparison, and the `cache.delete` of an entry that is not the value. -/
def issueStep (st : State) (i : Nat) : Event → State
  | .issue _ request ticket sessionId =>
    match st.issues i with
    | .idle =>
      match mint st.world st.now sessionId request with
      | .error r => st.setIssue i (.refused r)
      | .ok value => st.setIssue i (.minted ⟨request, ticket, value, st.world, st.now⟩)
    | _ => st
  | .add _ fails =>
    match st.issues i with
    | .minted m =>
      if fails then st.setIssue i (.unavailable m)
      else match st.cache (cacheKey sha256 m.ticket) with
        | some _ => st.setIssue i (.unavailable m)
        | none => (st.setCache (cacheKey sha256 m.ticket) (some ⟨i, m.value⟩)).setIssue i (.stored m)
    | _ => st
  | .confirm _ fails =>
    match st.issues i with
    | .stored m =>
      if fails then st.setIssue i (.unavailable m)
      else if (st.cache (cacheKey sha256 m.ticket)).map Entry.value = some m.value then st.setIssue i (.issued m)
      else st.setIssue i (.unwanted m)
    | _ => st
  | .discard _ =>
    match st.issues i with
    | .unwanted m => (st.setCache (cacheKey sha256 m.ticket) none).setIssue i (.unavailable m)
    | _ => st
  | _ => st

/-- The steps of a socket: `consume_ticket` is a look at the ticket, `cache.get`, `cache.delete` and the comparison of the times; then the kind and the
origin, the recheck, the start row and the start. -/
def socketStep (st : State) (s : Nat) : Event → State
  | .connect _ path origin ticket =>
    match st.sockets s with
    | .idle => if ticketPattern ticket then st.setSocket s (.opened path origin ticket) else st.setSocket s (.closed 4401)
    | _ => st
  | .read _ fails =>
    match st.sockets s with
    | .opened path origin ticket =>
      if fails then st.setSocket s (.closed 4401)
      else match st.cache (cacheKey sha256 ticket) with
        | none => st.setSocket s (.closed 4401)
        | some entry => st.setSocket s (.read path origin ticket entry)
    | _ => st
  | .take _ fails =>
    match st.sockets s with
    | .read path origin ticket entry =>
      if fails then st.setSocket s (.closed 4401)
      else match st.cache (cacheKey sha256 ticket) with
        | none => st.setSocket s (.closed 4401)
        | some _ =>
          { st.setCache (cacheKey sha256 ticket) none with uses := (s, entry.issuer) :: st.uses }.setSocket s (.took path origin ticket entry)
    | _ => st
  | .expiry _ =>
    match st.sockets s with
    | .took path origin ticket entry =>
      if entry.value.expiresAt ≤ st.now then st.setSocket s (.closed 4401)
      else if entry.value.kind ≠ path then st.setSocket s (.closed 4401)
      else if !origin then st.setSocket s (.closed 4003)
      else st.setSocket s (.valid path ⟨ticket, entry, st.now⟩)
    | _ => st
  | .recheck _ =>
    match st.sockets s with
    | .valid path t => st.setSocket s (watched st.world t (.admitted path t st.world))
    | .admitted .agentTerminal t _ => st.setSocket s (watched st.world t (.admitted .agentTerminal t st.world))
    | .recorded .agentTerminal t _ => st.setSocket s (watched st.world t (.recorded .agentTerminal t st.world))
    | .running path t _ => st.setSocket s (watched st.world t (.running path t st.world))
    | _ => st
  | .startRow _ recorded =>
    match st.sockets s with
    | .admitted path t seen =>
      if recorded then { st with rows := startRow s t.entry.value :: st.rows }.setSocket s (.recorded path t seen)
      else match path with
        | .agentTerminal => st
        | .serverTerminal => st.setSocket s (.closed 4502)
    | _ => st
  | .start _ refusal =>
    match st.sockets s with
    | .recorded path t seen =>
      match refusal, path with
      | none, _ => st.setSocket s (.running path t seen)
      | some _, .agentTerminal => st.setSocket s (.admitted path t seen)
      | some code, .serverTerminal => st.setSocket s (.closed code)
    | _ => st
  | .close _ code => st.setSocket s (.closed code)
  | _ => st

def step (st : State) (e : Event) : State :=
  match e with
  | .clock now => { st with now := now }
  | .world w => { st with world := w }
  | .lost key => st.setCache key none
  | .issue i _ _ _ => issueStep sha256 st i e
  | .add i _ => issueStep sha256 st i e
  | .confirm i _ => issueStep sha256 st i e
  | .discard i => issueStep sha256 st i e
  | .connect s _ _ _ => socketStep sha256 st s e
  | .read s _ => socketStep sha256 st s e
  | .take s _ => socketStep sha256 st s e
  | .expiry s => socketStep sha256 st s e
  | .recheck s => socketStep sha256 st s e
  | .startRow s _ => socketStep sha256 st s e
  | .start s _ => socketStep sha256 st s e
  | .close s _ => socketStep sha256 st s e

/-- A new ticket has a key that no ticket before it has: it is 32 random bytes, and the key is its digest. -/
def FreshTicket (st : State) : Event → Prop
  | .issue _ _ ticket _ => ∀ j m, (st.issues j).mint? = some m → cacheKey sha256 m.ticket ≠ cacheKey sha256 ticket
  | _ => True

end

end TerminalTickets

end TecTac
