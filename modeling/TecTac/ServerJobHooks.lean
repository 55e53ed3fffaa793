import Mathlib
import TecTac.Lib.Machine

/-!
# The hooks of finished server jobs

The tick step `deliver_finished_server_jobs` of `server_job_hooks.py`, in any number of processes. Each query of the table of hook rows is one step, and
the steps of all processes come in any order. What a process reads elsewhere comes with the event: the listing of the job folder, the job file, its own
registry of event jobs, the state of the module, the answer of `publish_for_core`. A job that is waiting, unfinished, unreadable or beyond the budgets of
the tick is passed over. Times are in seconds.
-/

namespace TecTac

namespace ServerJobHooks

/-- `STATE_CLAIMING` and the others. -/
inductive State where
  | claiming | retry | queued | skipped | ignored | abandoned
  deriving DecidableEq, Repr

namespace State

/-- `SETTLED_STATES`: all but `retry`. -/
def settled (s : State) : Bool := s != .retry

end State

def lookupChunk : Nat := 500
def maxAttempts : Nat := 3
def claimStale : Nat := 15 * 60
def retention : Nat := 30 * 24 * 60 * 60

/-- The columns that a row is created with and that no update touches. -/
structure Common where
  moduleId : String
  actionId : String
  jobStatus : String
  deriving DecidableEq

/-- A row of `TecTacServerJobHook`. Only `create` sets `updatedAt`: a queryset update does not touch it. -/
structure Row where
  pk : Nat
  common : Common
  state : State
  reason : String
  attempts : Nat
  createdAt : Nat
  updatedAt : Nat
  deriving DecidableEq

/-! ## What the tick reads of a finished job -/

/-- `module_status_for_core`. -/
inductive ModuleState where
  | runnable | unavailable | unknown
  deriving DecidableEq, Repr

/-- The job file, and what the process finds of its owner: whether its hook is registered in this process, the state of the module, and
`_replacement_blocked`. `owner` is `none` where it is no text. -/
structure Reading where
  action : String
  owner : Option String
  status : String
  registered : Bool
  moduleState : ModuleState
  blocked : Option Bool

/-- `OWNER_RE` and `ACTION_RE`: a letter or digit, then at most `limit` letters, digits and other allowed characters. -/
def nameOk (others : List Char) (limit : Nat) (text : String) : Bool :=
  match text.toList with
  | [] => false
  | first :: rest => first.isAlphanum && rest.length ≤ limit && rest.all fun c => c.isAlphanum || others.contains c

def ownerOk (text : String) : Bool := nameOk ['_', '-'] 63 text

def actionOk (text : String) : Bool := nameOk ['_', '.', '-'] 127 text

namespace Reading

def ownerId (r : Reading) : String :=
  match r.owner with
  | some text => if ownerOk text then text else ""
  | none => ""

def common (r : Reading) : Common := ⟨r.ownerId, if actionOk r.action then r.action else "", r.status⟩

end Reading

/-- Why a claim is taken: to mark the job skipped, or to store the event. -/
inductive Purpose where
  | skip (reason : String)
  | store
  deriving DecidableEq

/-- What `_hand_over` does with the job. -/
inductive Decision where
  | ignore (reason : String)
  | leave
  | claim (purpose : Purpose)
  deriving DecidableEq

/-- `_hand_over`, up to the first query. -/
def Reading.decide (r : Reading) : Decision :=
  if r.ownerId = "" then .ignore "no_owner"
  else if !r.registered then .ignore "no_hook"
  else
    match r.moduleState with
    | .unknown => .leave
    | .unavailable => .claim (.skip "module_unavailable")
    | .runnable =>
      match r.blocked with
      | none => .leave
      | some true => .claim (.skip "not_honoured")
      | some false => .claim .store

/-- The answer of `publish_for_core`; an event was stored exactly for `queued`. -/
inductive Outcome where
  | queued
  | duplicate
  | disabled
  | other (reason : String)
  deriving DecidableEq

/-! ## The processes -/

/-- The queries of `_set_state`: the update, the create when it found no row, the update again when another process created one. -/
inductive Phase where
  | update | create | again
  deriving DecidableEq, Repr

/-- The next query of a process. -/
inductive Task where
  | idle
  | listing (rest : List Nat)
  | next
  | find (job : Nat) (common : Common) (purpose : Purpose)
  | insert (job : Nat) (common : Common) (purpose : Purpose)
  | take (job : Nat) (common : Common) (purpose : Purpose) (pk : Nat)
  | publish (job : Nat) (common : Common)
  | count (job : Nat) (common : Common) (reason : String)
  | write (job : Nat) (common : Common) (state : State) (reason : String) (phase : Phase)
  | expire
  | prune
  deriving DecidableEq

/-- A process: the moment its tick began, the jobs that are left of it, its next query. -/
structure Process where
  moment : Nat
  todo : List Nat
  task : Task
  deriving DecidableEq

/-- The clock, the table, the next key, the processes. `claimedAt` (when a job was claimed last) and `stored` (the events that were stored, with the key
of the row that existed then) are history. -/
structure System where
  now : Nat
  rows : Nat → Option Row
  nextPk : Nat
  process : Nat → Process
  claimedAt : Nat → Nat
  stored : List (Nat × Option Nat)

/-- The process leaves the job at hand at any exception (`drop`), or dies. -/
inductive Event where
  | wait (seconds : Nat)
  | tick (p : Nat) (recent : List Nat)
  | pass (p : Nat)
  | finish (p : Nat)
  | read (p : Nat) (reading : Reading)
  | work (p : Nat)
  | answer (p : Nat) (outcome : Outcome)
  | drop (p : Nat)
  | die (p : Nat)

namespace System

def empty : System := ⟨0, fun _ => none, 0, fun _ => ⟨0, [], .idle⟩, fun _ => 0, []⟩

def goTo (s : System) (p : Nat) (task : Task) : System :=
  { s with process := Function.update s.process p { s.process p with task := task } }

def setRow (s : System) (job : Nat) (row : Row) : System := { s with rows := Function.update s.rows job (some row) }

/-- `objects.create`. -/
def createRow (s : System) (job : Nat) (common : Common) (state : State) (reason : String) (attempts : Nat) : System :=
  { s.setRow job ⟨s.nextPk, common, state, reason, attempts, s.now, s.now⟩ with nextPk := s.nextPk + 1 }

/-- The claim was taken. -/
def claimed (s : System) (p job : Nat) (common : Common) : Purpose → System
  | .skip reason => { s with claimedAt := Function.update s.claimedAt job s.now }.goTo p (.write job common .skipped reason .update)
  | .store => { s with claimedAt := Function.update s.claimedAt job s.now }.goTo p (.publish job common)

/-- `_claim`: the row is looked up. -/
def find (s : System) (p job : Nat) (common : Common) (purpose : Purpose) : System :=
  match s.rows job with
  | none => s.goTo p (.insert job common purpose)
  | some row => s.goTo p (if row.state = .retry then .take job common purpose row.pk else .next)

/-- `_claim`: the row is created, or another process was first. -/
def insert (s : System) (p job : Nat) (common : Common) (purpose : Purpose) : System :=
  match s.rows job with
  | none => (s.createRow job common .claiming "" 1).claimed p job common purpose
  | some _ => s.goTo p .next

/-- `_claim`: the row is taken if it is still waiting to retry. -/
def take (s : System) (p job : Nat) (common : Common) (purpose : Purpose) (pk : Nat) : System :=
  match s.rows job with
  | none => s.goTo p .next
  | some row =>
    if row.pk = pk ∧ row.state = .retry then
      (s.setRow job { row with state := .claiming, attempts := row.attempts + 1 }).claimed p job common purpose
    else s.goTo p .next

/-- `_attempts`, and the end of a hand-over whose event was not stored. -/
def count (s : System) (p job : Nat) (common : Common) (reason : String) : System :=
  if maxAttempts ≤ ((s.rows job).map Row.attempts).getD 0 then s.goTo p (.write job common .abandoned "store_failed" .update)
  else s.goTo p (.write job common .retry (String.ofList ((if reason = "" then "not_stored" else reason).toList.take 40)) .update)

/-- `_set_state`, one query. -/
def write (s : System) (p job : Nat) (common : Common) (state : State) (reason : String) (phase : Phase) : System :=
  match phase, s.rows job with
  | .update, some row => (s.setRow job { row with state := state, reason := reason }).goTo p .next
  | .update, none => s.goTo p (.write job common state reason .create)
  | .create, none => (s.createRow job common state reason 0).goTo p .next
  | .create, some _ => s.goTo p (.write job common state reason .again)
  | .again, some row => (s.setRow job { row with state := state, reason := reason }).goTo p .next
  | .again, none => s.goTo p .next

/-- The rows that `_expire_stale_claims` abandons. -/
def stale (moment : Nat) (row : Row) : Bool := row.state == .claiming && row.updatedAt + claimStale < moment

/-- The rows that `_prune` deletes. -/
def old (moment : Nat) (row : Row) : Bool := row.createdAt + retention < moment && row.state != .claiming && row.state != .retry

/-- `_expire_stale_claims`. -/
def expire (s : System) (p : Nat) : System :=
  { s with
    rows := fun job => (s.rows job).map fun row =>
      if stale (s.process p).moment row then { row with state := .abandoned, reason := "claim_stale" } else row }.goTo p .prune

/-- `_prune`. -/
def prune (s : System) (p : Nat) : System :=
  { s with rows := fun job => (s.rows job).filter fun row => !old (s.process p).moment row }.goTo p .idle

/-- `_settled_ids`, one chunk. -/
def lookup (s : System) (p : Nat) (rest : List Nat) : System :=
  let unsettled := (rest.take lookupChunk).filter fun job => !((s.rows job).map (·.state.settled)).getD false
  let todo := (s.process p).todo ++ unsettled
  let task := if rest.length ≤ lookupChunk then Task.next else .listing (rest.drop lookupChunk)
  { s with process := Function.update s.process p { s.process p with todo := todo, task := task } }

/-- The next query of a process. -/
def work (s : System) (p : Nat) : System :=
  match (s.process p).task with
  | .listing rest => s.lookup p rest
  | .find job common purpose => s.find p job common purpose
  | .insert job common purpose => s.insert p job common purpose
  | .take job common purpose pk => s.take p job common purpose pk
  | .count job common reason => s.count p job common reason
  | .write job common state reason phase => s.write p job common state reason phase
  | .expire => s.expire p
  | .prune => s.prune p
  | .idle | .next | .publish .. => s

/-- The tick begins: `recent` are the jobs of the folder that changed inside the window. -/
def tick (s : System) (p : Nat) (recent : List Nat) : System :=
  match (s.process p).task with
  | .idle => { s with process := Function.update s.process p ⟨s.now, [], .listing recent⟩ }
  | _ => s

/-- The first job that is left is passed over. -/
def pass (s : System) (p : Nat) : System :=
  match (s.process p).task with
  | .next => { s with process := Function.update s.process p { s.process p with todo := (s.process p).todo.tail } }
  | _ => s

/-- The loop over the jobs ends. -/
def finish (s : System) (p : Nat) : System :=
  match (s.process p).task with
  | .next => s.goTo p .expire
  | _ => s

/-- The first job that is left was read as finished. -/
def read (s : System) (p : Nat) (reading : Reading) : System :=
  match (s.process p).task, (s.process p).todo with
  | .next, job :: rest =>
    let task := match reading.decide with
      | .ignore reason => Task.write job reading.common .ignored reason .update
      | .leave => .next
      | .claim purpose => .find job reading.common purpose
    { s with process := Function.update s.process p { s.process p with todo := rest, task := task } }
  | _, _ => s

/-- `publish_for_core` answers. -/
def answer (s : System) (p : Nat) (outcome : Outcome) : System :=
  match (s.process p).task with
  | .publish job common =>
    match outcome with
    | .queued => { s with stored := (job, (s.rows job).map Row.pk) :: s.stored }.goTo p (.write job common .queued "" .update)
    | .duplicate => s.goTo p (.write job common .queued "" .update)
    | .disabled => s.goTo p (.write job common .skipped "module_unavailable" .update)
    | .other reason => s.goTo p (.count job common reason)
  | _ => s

/-- An exception in the loop leaves the job; one before or after it ends the tick. -/
def drop (s : System) (p : Nat) : System :=
  match (s.process p).task with
  | .idle | .listing _ | .expire | .prune => s.goTo p .idle
  | _ => s.goTo p .next

def step (s : System) : Event → System
  | .wait seconds => { s with now := s.now + seconds }
  | .tick p recent => s.tick p recent
  | .pass p => s.pass p
  | .finish p => s.finish p
  | .read p reading => s.read p reading
  | .work p => s.work p
  | .answer p outcome => s.answer p outcome
  | .drop p => s.drop p
  | .die p => s.goTo p .idle

end System

end ServerJobHooks

end TecTac
