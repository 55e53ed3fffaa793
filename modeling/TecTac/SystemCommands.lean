import Mathlib

/-!
# System commands

The claim of a command in `system_commands.py`. Each call of `run_one` claims the pair of its endpoint and its `command_id` in the cache that all
workers share, looks for an earlier audit row of the pair, writes the strict audit row and invokes Tactical's send view. The calls of all worker
processes take these steps in any order, and the cache may lose any claim between two of them. The audit rows are those of the last seven days.
The looked-up rows are remembered by each process, once for each run, for the last eight runs.

The refusals before the claim (the service user, the route, the count of the run) touch nothing of this, so a call starts at its claim.
-/

namespace TecTac

namespace SystemCommands

/-- An endpoint and a `command_id`. -/
abbrev Pair := Nat × String

/-- How a call ends. -/
inductive Ending where
  | duplicate
  | unavailable
  | transient
  | sent
  | refused
  deriving DecidableEq

/-- Where a call stands: before `cache.add`, before the lookup, after its query, before the audit row, before the send, or at its end. -/
inductive Stage where
  | claiming
  | lookup
  | reading (rows : List Pair)
  | recording
  | sending
  | ended (ending : Ending)
  deriving DecidableEq

structure Call where
  process : Nat
  run : Nat
  pair : Pair
  stage : Stage
  deriving DecidableEq

/-- The shared cache and the audit rows, what each process remembers of the rows for each run (`_RECORDED`, in the order of insertion), the
calls, and the pairs that Tactical's send view was invoked with. -/
structure State where
  cache : List Pair
  rows : List Pair
  memory : Nat → List (Nat × List Pair)
  calls : Nat → Option Call
  started : Nat
  sends : List Pair

/-- How a step ends: it works, or it fails, after which the row may be committed and the release of the claim may work or not. -/
inductive Fate where
  | works
  | fails (committed released : Bool)
  deriving DecidableEq

/-- `CLAIM_PREFETCH_MAX`. -/
def claimPrefetchMax : Nat := 100000

/-- What is kept of the runs in `_RECORDED`. -/
def maxRemembered : Nat := 8

/-! ## The memory of a process -/

/-- `_RECORDED.get(run_id)`. -/
def remembered (run : Nat) (memory : List (Nat × List Pair)) : Option (List Pair) := (memory.find? fun entry => entry.1 == run).map Prod.snd

/-- `_RECORDED[run_id] = ...`, and the oldest runs are dropped. -/
def remember (run : Nat) (pairs : List Pair) (memory : List (Nat × List Pair)) : List (Nat × List Pair) :=
  let memory := if (remembered run memory).isSome then memory.map fun entry => if entry.1 = run then (run, pairs) else entry else memory ++ [(run, pairs)]
  memory.drop (memory.length - maxRemembered)

/-- `_RECORDED.get(run_id, set()).add(...)`. -/
def addPair (run : Nat) (pair : Pair) (memory : List (Nat × List Pair)) : List (Nat × List Pair) :=
  memory.map fun entry => if entry.1 = run then (run, pair :: entry.2) else entry

/-! ## Steps -/

namespace State

/-- A call moves on. -/
def move (s : State) (i : Nat) (call : Call) (stage : Stage) : State :=
  { s with calls := fun j => if j = i then some { call with stage := stage } else s.calls j }

def setMemory (s : State) (process : Nat) (memory : List (Nat × List Pair)) : State :=
  { s with memory := fun other => if other = process then memory else s.memory other }

/-- `release`; a release that fails is only logged. -/
def release (s : State) (pair : Pair) (released : Bool) : State := if released then { s with cache := s.cache.filter (· ≠ pair) } else s

end State

/-- `cache.add`. -/
def addClaim (s : State) (i : Nat) (call : Call) : Fate → State
  | .fails _ _ => s.move i call (.ended .unavailable)
  | .works => if call.pair ∈ s.cache then s.move i call (.ended .duplicate) else { s with cache := call.pair :: s.cache }.move i call .lookup

/-- The end of `claim`, with the rows that are consulted: an earlier row keeps the claim; a pair without one is remembered. -/
def settle (s : State) (i : Nat) (call : Call) (recorded : List Pair) : State :=
  if call.pair ∈ recorded then s.move i call (.ended .duplicate)
  else (s.setMemory call.process (addPair call.run call.pair (s.memory call.process))).move i call .recording

/-- `_already_recorded`, up to its query. -/
def lookup (s : State) (i : Nat) (call : Call) (fate : Fate) : State :=
  match remembered call.run (s.memory call.process) with
  | some pairs => settle s i call pairs
  | none =>
    match fate with
    | .fails _ released => (s.release call.pair released).move i call (.ended .unavailable)
    | .works =>
      if claimPrefetchMax < s.rows.length then (s.release call.pair true).move i call (.ended .unavailable) else s.move i call (.reading s.rows)

/-- The strict audit row. -/
def record (s : State) (i : Nat) (call : Call) : Fate → State
  | .works => { s with rows := s.rows ++ [call.pair] }.move i call .sending
  | .fails committed released =>
    ({ s with rows := if committed then s.rows ++ [call.pair] else s.rows }.release call.pair released).move i call (.ended .transient)

/-- `_send`: Tactical's view is invoked, or Core refuses the route before that. -/
def send (s : State) (i : Nat) (call : Call) : Fate → State
  | .works => { s with sends := s.sends ++ [call.pair] }.move i call (.ended .sent)
  | .fails _ _ => s.move i call (.ended .refused)

/-- One step of `run_one`. -/
def advance (s : State) (i : Nat) (call : Call) (fate : Fate) : State :=
  match call.stage with
  | .claiming => addClaim s i call fate
  | .lookup => lookup s i call fate
  | .reading rows => settle (s.setMemory call.process (remember call.run rows (s.memory call.process))) i call rows
  | .recording => record s i call fate
  | .sending => send s i call fate
  | .ended _ => s

/-- What happens: a call starts, a call takes a step, or the cache loses claims. -/
inductive Event where
  | start (process run : Nat) (pair : Pair)
  | advance (i : Nat) (fate : Fate)
  | lose (pairs : List Pair)

def step (s : State) : Event → State
  | .start process run pair =>
    { s with calls := fun j => if j = s.started then some ⟨process, run, pair, .claiming⟩ else s.calls j, started := s.started + 1 }
  | .advance i fate =>
    match s.calls i with
    | some call => advance s i call fate
    | none => s
  | .lose pairs => { s with cache := s.cache.filter (· ∉ pairs) }

def run (s : State) (events : List Event) : State := events.foldl step s

/-- Nothing was claimed yet. -/
def fresh : State := ⟨[], [], fun _ => [], fun _ => none, 0, []⟩

end SystemCommands

end TecTac
