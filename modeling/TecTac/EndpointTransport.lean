import Mathlib
import TecTac.Lib.Machine

/-!
# The endpoint agent socket

The connections of one agent, in any number of processes: `endpoint_transport_consumer.py` and the presence functions of `endpoint_transport.py`. A
connection joins the group of the agent, marks its presence and announces itself to the group; a takeover message from another connection closes it. A
closed connection leaves the group and, unless it was superseded, reads the presence and deletes it when it is its own. The watcher of a connection
renews its membership and refreshes its presence until the connection begins to leave. Every call of the channel layer and of the cache is one step, and
the steps of all connections come in any order. The connections are numbered as they start; a number stands for the channel name and for the owner id.
-/

namespace TecTac

namespace EndpointTransport

/-- Where a connection stands: in `connect` (after `group_add`, after `set_presence`), open, closed, in `disconnect` (after `group_discard`, with its own
presence read), or gone. -/
inductive Stage where
  | joined | marked | opened | closed | left | clearing | gone
  deriving DecidableEq, Repr

/-- One connection: its stage, `_superseded`, whether it is in the group, the takeover messages that were sent to it and not yet handled, and whether its
last refresh found no presence and goes on to add it. -/
structure Connection where
  stage : Stage
  superseded : Bool := false
  member : Bool := false
  inbox : List Nat := []
  adding : Bool := false
  deriving DecidableEq

/-- The connections that have started, and the owner in the presence key. -/
structure Hub where
  started : Nat
  connection : Nat → Connection
  presence : Option Nat

/-- One step. `close` closes an open socket for any reason but a takeover; `deliver` handles one message of the inbox. -/
inductive Step where
  | join
  | mark (c : Nat)
  | announce (c : Nat)
  | deliver (c k : Nat)
  | close (c : Nat)
  | leave (c : Nat)
  | read (c : Nat)
  | delete (c : Nat)
  | rejoin (c : Nat)
  | refresh (c : Nat)
  | add (c : Nat)
  deriving DecidableEq, Repr

namespace Hub

def empty : Hub := ⟨0, fun _ => ⟨.gone, false, false, [], false⟩, none⟩

def set (s : Hub) (c : Nat) (f : Connection → Connection) : Hub := { s with connection := Function.update s.connection c (f (s.connection c)) }

/-- A connection in the given stage takes a step. -/
def when (s : Hub) (c : Nat) (stages : List Stage) (next : Hub) : Hub := if c < s.started ∧ (s.connection c).stage ∈ stages then next else s

/-- `group_add`, the first step of a new connection. -/
def join (s : Hub) : Hub := { s with started := s.started + 1, connection := Function.update s.connection s.started ⟨.joined, false, true, [], false⟩ }

/-- `set_presence`. -/
def mark (s : Hub) (c : Nat) : Hub := s.when c [.joined] { s.set c fun x => { x with stage := .marked } with presence := some c }

/-- `group_send` of the takeover message: every member gets it, the sender too. -/
def announce (s : Hub) (c : Nat) : Hub :=
  s.when c [.marked] ({ s with
    connection := fun m => if (s.connection m).member then { s.connection m with inbox := (s.connection m).inbox ++ [c] } else s.connection m }.set c
      fun x => { x with stage := .opened })

/-- `endpoint_takeover`. A message waits until `connect` has ended, and none is handled once `disconnect` began. -/
def deliver (s : Hub) (c k : Nat) : Hub :=
  s.when c [.opened, .closed]
    (match (s.connection c).inbox[k]? with
    | none => s
    | some sender =>
      s.set c fun x =>
        let x := { x with inbox := x.inbox.eraseIdx k }
        if sender = c then x else { x with superseded := true, stage := .closed })

def close (s : Hub) (c : Nat) : Hub := s.when c [.opened] (s.set c fun x => { x with stage := .closed })

/-- `disconnect`, up to `group_discard`. -/
def leave (s : Hub) (c : Nat) : Hub := s.when c [.closed] (s.set c fun x => { x with stage := .left, member := false })

/-- The `get` of `clear_presence`, which a superseded connection does not call. -/
def read (s : Hub) (c : Nat) : Hub :=
  s.when c [.left] (s.set c fun x => { x with stage := if !x.superseded && s.presence == some c then .clearing else .gone })

/-- The `delete` of `clear_presence`. -/
def delete (s : Hub) (c : Nat) : Hub := s.when c [.clearing] { s.set c fun x => { x with stage := .gone } with presence := none }

/-- `_rejoin_group`. -/
def rejoin (s : Hub) (c : Nat) : Hub := s.when c [.opened, .closed] (s.set c fun x => { x with member := true })

/-- The `get` of `refresh_presence`; where the owner is this connection, the key is only touched. -/
def refresh (s : Hub) (c : Nat) : Hub :=
  s.when c [.opened, .closed] (if (s.connection c).superseded then s else s.set c fun x => { x with adding := s.presence.isNone })

/-- The `add` of `refresh_presence`, which may come late: the call runs in a pool. -/
def add (s : Hub) (c : Nat) : Hub :=
  if (s.connection c).adding then { s.set c fun x => { x with adding := false } with presence := some (s.presence.getD c) } else s

def step (s : Hub) : Step → Hub
  | .join => s.join
  | .mark c => s.mark c
  | .announce c => s.announce c
  | .deliver c k => s.deliver c k
  | .close c => s.close c
  | .leave c => s.leave c
  | .read c => s.read c
  | .delete c => s.delete c
  | .rejoin c => s.rejoin c
  | .refresh c => s.refresh c
  | .add c => s.add c

end Hub

end EndpointTransport

end TecTac
