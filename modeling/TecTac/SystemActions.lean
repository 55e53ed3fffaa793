import Mathlib
import TecTac.Run
import TecTac.Lib.Ranges

/-!
# System actions

The sends of `system_actions.py`: a call of `run_system_action` cuts its endpoints into groups, fixes them in a plan on the run, and then,
group by group, commits a mark, writes the strict audit row, hands the group to the Tactical task and moves the mark on. Every step that
reaches the database, the audit log or the broker has a fate: it may fail before or after it was written, and the worker may die there.
Before each of them another process may have changed the status of the run.

A digest stands for the text it is the digest of: the run and the action, whether it is the digest of a plan, and the endpoints. There is
one run, so its number is left out. The log holds what was committed, in order.
-/

namespace TecTac

namespace SystemActions

/-- `MAX_AGENTS_PER_GROUP`, `MAX_AGENTS` and `MAX_MARKS_PER_RUN`. -/
def maxAgentsPerGroup : Nat := 2000
def maxAgents : Nat := 40000
def maxMarksPerRun : Nat := 105

/-! ## Marks -/

/-- `_digest` and `_plan_digest`. -/
structure Digest where
  actionId : String
  isPlan : Bool
  ids : List Int
  deriving DecidableEq

def groupDigest (actionId : String) (ids : List Int) : Digest := ⟨actionId, false, ids⟩

def planDigest (actionId : String) (ids : List Int) : Digest := ⟨actionId, true, ids⟩

inductive MarkState where
  | claiming
  | sent
  | aborted
  | plan
  deriving DecidableEq

/-- What a mark of the kind `plan` holds. -/
structure Plan where
  ids : List (Int × Int)
  groupDigests : List Digest
  groupSize : Nat
  deriving DecidableEq

/-- A mark of `system_action_marks`; a mark without a plan is the mark of a group. -/
structure Mark where
  actionId : String
  targetsDigest : Digest
  state : MarkState
  plan : Option Plan
  agents : Nat
  taskId : String
  deriving DecidableEq

/-- The audit row of a group that is about to be sent. -/
structure AuditRow where
  actionId : String
  agentCount : Nat
  totalAgents : Nat
  group : Nat
  groups : Nat
  targetsDigest : Digest
  deriving DecidableEq

/-- What was committed. -/
inductive Act where
  | claimed (digest : Digest)
  | audited (row : AuditRow)
  | handed (actionId : String) (group : List Int)
  deriving DecidableEq

/-- The row of the run, and what was committed so far. -/
structure RunState where
  status : RunStatus
  marks : List Mark
  log : List Act

/-! ## Steps that can fail -/

/-- How a step ends: it is done, it raises, or the worker dies; in the last two, what it writes may be committed or not. -/
inductive Fate where
  | done
  | failed (written : Bool)
  | died (written : Bool)
  deriving DecidableEq

/-- A step: what another process sets the status of the run to just before it, and how it ends. -/
structure Step where
  status : Option RunStatus
  fate : Fate

/-- Why a step does not answer. -/
inductive Halt where
  | raised
  | died
  deriving DecidableEq

/-- A step that answers and writes. -/
def Step.take {α : Type} (step : Step) (f : RunState → α × RunState) (s : RunState) : Except Halt α × RunState :=
  let s := { s with status := step.status.getD s.status }
  match step.fate with
  | .done => (.ok (f s).1, (f s).2)
  | .failed written => (.error .raised, if written then (f s).2 else s)
  | .died written => (.error .died, if written then (f s).2 else s)

/-! ## Plans -/

/-- `_ranges_of`. -/
def rangesOf (ids : List Int) : List (Int × Int) := Ranges.ofSorted ids

/-- `_ranges_overlap`. -/
def rangesOverlap (a b : List (Int × Int)) : Bool := Ranges.overlap a b

/-- `_groups_of`. -/
def groupsOf (ids : List Int) : List (List Int) := Ranges.cut maxAgentsPerGroup ids

/-- What `_claim_plan` answers. -/
inductive PlanClaim where
  | new (plan : Plan)
  | same (plan : Plan)
  | changed
  | gone
  | full
  deriving DecidableEq

/-- A plan of the action, with the digest of its call. -/
def Mark.planOf (actionId : String) (mark : Mark) : Option (Digest × Plan) :=
  if mark.actionId = actionId then mark.plan.map fun plan => (mark.targetsDigest, plan) else none

/-- The mark of a group of the plan that was claimed, sent or left unknown. -/
def Mark.isStarted (actionId : String) (plan : Plan) (mark : Mark) : Bool :=
  mark.plan.isNone && decide (mark.actionId = actionId) && decide (mark.targetsDigest ∈ plan.groupDigests) && decide (mark.state ≠ .aborted)

/-- `_claim_plan`. -/
def claimPlan (actionId : String) (ids : List Int) (groupDigests : List Digest) (s : RunState) : PlanClaim × RunState :=
  if s.status ≠ .running then (.gone, s)
  else
    let plans := s.marks.filterMap (Mark.planOf actionId)
    match plans.find? fun plan => decide (plan.1 = planDigest actionId ids) with
    | some plan => (.same plan.2, s)
    | none =>
      let overlapping := plans.filter fun plan => rangesOverlap (rangesOf ids) plan.2.ids
      if overlapping.any fun plan => s.marks.any (Mark.isStarted actionId plan.2) then (.changed, s)
      else
        -- nothing of the plans was sent: they are replaced, and their aborted group marks go with them
        let goneDigests : List Digest := overlapping.flatMap fun plan => plan.1 :: plan.2.groupDigests
        let marks := s.marks.filter fun mark => !(decide (mark.actionId = actionId) && decide (mark.targetsDigest ∈ goneDigests))
        if maxMarksPerRun ≤ marks.length then (.full, s)
        else
          let plan : Plan := ⟨rangesOf ids, groupDigests, maxAgentsPerGroup⟩
          (.new plan, { s with marks := marks ++ [⟨actionId, planDigest actionId ids, .plan, some plan, 0, ""⟩] })

/-! ## Marks of groups -/

/-- The mark of a digest. -/
def Mark.isFor (actionId : String) (digest : Digest) (mark : Mark) : Bool :=
  decide (mark.actionId = actionId) && decide (mark.targetsDigest = digest)

/-- The first mark of a digest is changed. -/
def changeFirst (actionId : String) (digest : Digest) (f : Mark → Mark) : List Mark → List Mark
  | [] => []
  | mark :: marks => if mark.isFor actionId digest then f mark :: marks else mark :: changeFirst actionId digest f marks

/-- What `_claim_mark` answers. -/
inductive MarkClaim where
  | claimed
  | sent
  | unknown
  | gone
  | full
  deriving DecidableEq

/-- `_claim_mark`. -/
def claimMark (actionId : String) (digest : Digest) (agents : Nat) (s : RunState) : MarkClaim × RunState :=
  if s.status ≠ .running then (.gone, s)
  else
    match s.marks.find? (Mark.isFor actionId digest) with
    | some mark =>
      match mark.state with
      | .sent => (.sent, s)
      | .aborted =>
        -- an earlier attempt aborted before anything was sent: claim again
        (.claimed, { s with
          marks := changeFirst actionId digest (fun mark => { mark with state := .claiming }) s.marks
          log := s.log ++ [.claimed digest] })
      | _ => (.unknown, s)
    | none =>
      if maxMarksPerRun ≤ s.marks.length then (.full, s)
      else (.claimed, { s with marks := s.marks ++ [⟨actionId, digest, .claiming, none, agents, ""⟩], log := s.log ++ [.claimed digest] })

/-- The write of `_set_mark`. -/
def moveMark (actionId : String) (digest : Digest) (state : MarkState) (taskId : String) (s : RunState) : Bool × RunState :=
  (s.marks.any (Mark.isFor actionId digest),
    { s with marks := changeFirst actionId digest (fun mark => { mark with state := state, taskId := if taskId = "" then mark.taskId else taskId }) s.marks })

/-- `_set_mark`, which never raises: only death stops it. -/
def setMark (step : Step) (actionId : String) (digest : Digest) (state : MarkState) (taskId : String) (s : RunState) : Option Bool × RunState :=
  match step.take (moveMark actionId digest state taskId) s with
  | (.ok written, s) => (some written, s)
  | (.error .raised, s) => (some false, s)
  | (.error .died, s) => (none, s)

/-! ## How a call ends -/

/-- How a call ends without an answer. -/
inductive Stop where
  | refused (reason : String)
  | outcomeUnknown (summary : String)
  | gone
  | auditFailed
  | raised
  | died
  deriving DecidableEq

/-- `_group_counts`. -/
structure GroupCounts where
  total : Nat
  sent : Nat
  failed : Nat
  notStarted : Nat
  deriving DecidableEq

def groupCounts (total sent failed : Nat) : GroupCounts := ⟨total, sent, failed, total - sent - failed⟩

/-- `_summary`. -/
def summary (agents : Nat) (counts : GroupCounts) : String :=
  toString agents ++ " endpoint(s) in " ++ toString counts.total ++ " group(s): " ++ toString counts.sent ++ " sent, " ++
    toString counts.failed ++ " failed, " ++ toString counts.notStarted ++ " not started."

/-- `_queued_result`. -/
structure Queued where
  agents : Nat
  groups : GroupCounts
  duplicate : Bool
  deriving DecidableEq

/-- What `_end_run` writes. -/
def closeRun (status : RunStatus) (s : RunState) : Unit × RunState := ((), if s.status = .running then { s with status := status } else s)

/-- The run ends, and then the call ends with `stop`; a failure to end the run is only logged. -/
def endRun {α : Type} (step : Step) (status : RunStatus) (stop : Stop) (s : RunState) : Except Stop α × RunState :=
  match step.take (closeRun status) s with
  | (.error .died, s) => (.error .died, s)
  | (_, s) => (.error stop, s)

/-- `_unknown`. -/
def unknown {α : Type} (step : Step) (text : String) : RunState → Except Stop α × RunState := endRun step .failed (.outcomeUnknown text)

/-- `_KEEP_RUN_REASONS`. -/
def keepRunReasons : List String := ["caller_unverified", "wrong_module"]

/-- `_refuse`; a refusal without a run ends none. -/
def refuse {α : Type} (step : Step) (runFound : Bool) (reason : String) (s : RunState) : Except Stop α × RunState :=
  if runFound && !keepRunReasons.contains reason then endRun step .skipped (.refused reason) s else (.error (.refused reason), s)

/-! ## Calls -/

/-- The `agent_ids` of a call: something that is no list, tuple or set, or the items of one, of which some are no integers. -/
inductive AgentIds where
  | other
  | items (values : List (Option Int))
  deriving DecidableEq

/-- `_agent_ids`. -/
def agentIds : AgentIds → Except String (List Int)
  | .other => .error "bad_agents"
  | .items values =>
    if values.length = 0 ∨ maxAgents < values.length then .error "agent_count"
    else if values.all fun value => value.any fun n => decide (0 < n ∧ n < 2 ^ 63) then
      .ok ((values.filterMap id).dedup.insertionSort (· ≤ ·))
    else .error "bad_agents"

/-- The fates of the steps for one group, and the id of its task. -/
structure GroupFates where
  claim : Step
  audit : Step
  send : Step
  mark : Step
  ending : Step
  taskId : String

/-- A call of `run_system_action`. The checks on the run, its caller, its action, its owner and its parameters come before the count of the
endpoints, and those on their scope, the targets of the run and the function come after it: each is the reason of the first that fails. -/
structure Call where
  actionId : String
  runFound : Bool
  before : Option String
  agentIds : AgentIds
  after : Option String
  plan : Step
  group : Nat → GroupFates
  ending : Step

/-- One group: whether it is sent now, or was sent before. -/
def sendGroup (actionId : String) (fates : GroupFates) (total groups index sent : Nat) (group : List Int) (digest : Digest) (s : RunState) :
    Except Stop Bool × RunState :=
  let text := summary total (groupCounts groups sent 1)
  match fates.claim.take (claimMark actionId digest group.length) s with
  | (.error .raised, s) => (.error .raised, s)
  | (.error .died, s) => (.error .died, s)
  | (.ok .gone, s) => (.error .gone, s)
  | (.ok .full, s) => unknown fates.ending text s
  | (.ok .unknown, s) => unknown fates.ending text s
  | (.ok .sent, s) => (.ok false, s)
  | (.ok .claimed, s) =>
    let row : AuditRow := ⟨actionId, group.length, total, index, groups, digest⟩
    match fates.audit.take (fun s => ((), { s with log := s.log ++ [.audited row] })) s with
    | (.error .died, s) => (.error .died, s)
    | (.error .raised, s) =>
      match setMark fates.mark actionId digest .aborted "" s with
      | (none, s) => (.error .died, s)
      | (some _, s) => (.error .auditFailed, s)
    | (.ok (), s) =>
      match fates.send.take (fun s => ((), { s with log := s.log ++ [.handed actionId group] })) s with
      | (.error .died, s) => (.error .died, s)
      | (.error .raised, s) => unknown fates.ending text s
      | (.ok (), s) =>
        match setMark fates.mark actionId digest .sent (String.ofList (fates.taskId.toList.take 80)) s with
        | (none, s) => (.error .died, s)
        | (some _, s) => (.ok true, s)

/-- The groups of a call, one after the other; `sent` counts those that were sent, and `now` those of them that this call sent. -/
def sendGroups (actionId : String) (fates : Nat → GroupFates) (total groups : Nat) :
    List (List Int × Digest) → Nat → Nat → Nat → RunState → Except Stop (Nat × Nat) × RunState
  | [], _, sent, now, s => (.ok (sent, now), s)
  | (group, digest) :: rest, index, sent, now, s =>
    match sendGroup actionId (fates index) total groups index sent group digest s with
    | (.error stop, s) => (.error stop, s)
    | (.ok isNow, s) => sendGroups actionId fates total groups rest (index + 1) (sent + 1) (if isNow then now + 1 else now) s

/-- The groups that the stored plan fixes, and what the call answers. -/
def sendPlan (call : Call) (ids : List Int) (plan : Plan) (s : RunState) : Except Stop Queued × RunState :=
  let groups := Ranges.cut (if plan.groupSize = 0 then maxAgentsPerGroup else plan.groupSize) ids
  let digests := if plan.groupDigests = [] then (groupsOf ids).map (groupDigest call.actionId) else plan.groupDigests
  if digests.length ≠ groups.length then
    unknown call.ending "The stored plan of this run does not fit the endpoints, so Core did not send again. Check the endpoints." s
  else
    match sendGroups call.actionId call.group ids.length groups.length (groups.zip digests) 1 0 0 s with
    | (.error stop, s) => (.error stop, s)
    | (.ok (sent, now), s) => (.ok ⟨ids.length, groupCounts groups.length sent 0, now = 0⟩, s)

/-- The call, once its endpoints are judged. -/
def sendAll (call : Call) (ids : List Int) (s : RunState) : Except Stop Queued × RunState :=
  let digests := (groupsOf ids).map (groupDigest call.actionId)
  let ours := s.marks.countP fun mark =>
    decide (mark.actionId = call.actionId) && decide (mark.targetsDigest ∈ planDigest call.actionId ids :: digests)
  if maxMarksPerRun < s.marks.length - ours + (groupsOf ids).length + 1 then refuse call.ending true "mark_limit" s
  else
    match call.plan.take (claimPlan call.actionId ids digests) s with
    | (.error .raised, s) => (.error .raised, s)
    | (.error .died, s) => (.error .died, s)
    | (.ok .gone, s) => (.error .gone, s)
    | (.ok .full, s) => refuse call.ending true "mark_limit" s
    | (.ok .changed, s) =>
      unknown call.ending "The endpoint list changed after part of this run was sent, so Core did not send again. Check the endpoints." s
    | (.ok (.new plan), s) => sendPlan call ids plan s
    | (.ok (.same plan), s) => sendPlan call ids plan s

/-- `run_system_action`. -/
def runSystemAction (call : Call) (s : RunState) : Except Stop Queued × RunState :=
  match call.before with
  | some reason => refuse call.ending call.runFound reason s
  | none =>
    match agentIds call.agentIds with
    | .error reason => refuse call.ending true reason s
    | .ok ids =>
      match call.after with
      | some reason => refuse call.ending true reason s
      | none => sendAll call ids s

/-! ## Runs -/

/-- What happens to a run: the status changes, as it does when an attempt starts or ends, or the handler makes a call. -/
inductive Event where
  | status (status : RunStatus)
  | call (call : Call)

def step (s : RunState) : Event → RunState
  | .status status => { s with status := status }
  | .call call => (runSystemAction call s).2

def run (s : RunState) (events : List Event) : RunState := events.foldl step s

/-- The groups of an action that a log hands to its task, in order. -/
def handedIn (actionId : String) (log : List Act) : List (List Int) :=
  log.filterMap fun
    | .handed other group => if other = actionId then some group else none
    | _ => none

def handed (actionId : String) (s : RunState) : List (List Int) := handedIn actionId s.log

/-- A run to which nothing was sent yet. -/
def fresh (status : RunStatus) : RunState := ⟨status, [], []⟩

end SystemActions

end TecTac
