import TecTac.EventJobSystem
import TecTac.Lib.Dict

/-!
# The publish path of one process

`_publish`, `publish_for_core`, `_persist_safely` and `_persist` of `event_jobs.py`, with the in-process memory of
`event_jobs_policy.py` they decide from: the recent keys, the rate window and the backlog gauge. A process publishes
inside atomic blocks, which may be nested, or outside any. What it publishes inside a block is stored by a hook that
runs once the outermost block has committed; a block that is rolled back takes its hooks with it. The table is shared
with every other process, so any step of the table may come between two steps of this one. The monotonic clock of the
process and the clock of the table are one clock here, in microseconds.
-/

namespace TecTac

/-! ## The in-process memory -/

/-- `IN_PROCESS_DEDUPE_SECONDS`. -/
def inProcessDedupeSeconds : Nat := 3

/-- `RATE_PER_MINUTE`. -/
def ratePerMinute : Nat := 600

/-- `BACKLOG_GAUGE_SECONDS`. -/
def backlogGaugeSeconds : Nat := 120

/-- `BACKLOG_REFRESH_SECONDS`. -/
def backlogRefreshSeconds : Nat := 30

/-- `RecentKeys`: the pairs of a job and a key, each with the moment it was seen. -/
structure RecentKeys where
  stamps : List ((String × String) × Int) := []
  deriving DecidableEq

namespace RecentKeys

/-- The `maximum` of `RecentKeys`. -/
def maximum : Nat := 4096

/-- `now - stamp < self.seconds`. -/
def young (now stamp : Int) : Bool := decide (now - stamp < seconds inProcessDedupeSeconds)

/-- The first test of `seen`: the pair was seen inside the window. -/
def fresh (now : Int) (name : String × String) (r : RecentKeys) : Bool := (Dict.get name r.stamps).any (young now)

/-- What `seen` keeps before it adds a pair: all while there is room, else the young ones, and none when there is still
no room. -/
def makeRoom (now : Int) (r : RecentKeys) : List ((String × String) × Int) :=
  if maximum ≤ r.stamps.length then
    let kept := r.stamps.filter fun e => young now e.2
    if maximum ≤ kept.length then [] else kept
  else r.stamps

/-- `seen`, after its first test: the pair is remembered. -/
def remember (now : Int) (name : String × String) (r : RecentKeys) : RecentKeys := ⟨Dict.set name now (r.makeRoom now)⟩

end RecentKeys

/-- `RateWindow`: for each job the clock minute and how many publishes it accepted in it. -/
structure RateWindow where
  windows : List (String × (Int × Nat)) := []
  deriving DecidableEq

/-- `RateWindow.allow`. -/
def RateWindow.allow (now : Int) (name : String) (r : RateWindow) : Bool × RateWindow :=
  let minute := now / seconds 60
  let window :=
    match Dict.get name r.windows with
    | some w => if w.1 = minute then w else (minute, 0)
    | none => (minute, 0)
  if ratePerMinute ≤ window.2 then (false, ⟨Dict.set name window r.windows⟩)
  else (true, ⟨Dict.set name (window.1, window.2 + 1) r.windows⟩)

/-- `TimedValue`, as `_GAUGES` uses it: for each job when its backlog was counted, and the count. -/
structure Gauges where
  items : List (String × (Int × Nat)) := []
  deriving DecidableEq

namespace Gauges

/-- `TimedValue.get`. -/
def get (now : Int) (name : String) (g : Gauges) : Option Nat :=
  match Dict.get name g.items with
  | some (at', n) => if seconds backlogGaugeSeconds ≤ now - at' then none else some n
  | none => none

/-- `TimedValue.set`. -/
def set (now : Int) (name : String) (n : Nat) (g : Gauges) : Gauges := ⟨Dict.set name (now, n) g.items⟩

/-- `TimedValue.adjust`, by one. -/
def adjust (now : Int) (name : String) (g : Gauges) : Gauges :=
  match Dict.get name g.items with
  | some (at', n) => if now - at' < seconds backlogGaugeSeconds then ⟨Dict.set name (at', n + 1) g.items⟩ else g
  | none => g

/-- The test of `_persist_safely`: the gauge is absent or due to be counted again. -/
def stale (now : Int) (name : String) (g : Gauges) : Bool :=
  match Dict.get name g.items with
  | some (at', _) => decide (seconds backlogRefreshSeconds < now - at')
  | none => true

end Gauges

/-- `backlog_full`. -/
def backlogFull (pending : Option Nat) (maxBacklog : Nat) : Bool := pending.any (maxBacklog ≤ ·)

/-! ## What a publish is asked and answered -/

/-- `PublishResult`: the outcome, and the reason where one is given. -/
inductive PublishResult where
  | queued | duplicate | disabled
  | dropped (reason : String)
  | error (reason : String)
  deriving DecidableEq, Repr

/-- What `_verified_caller_ok` answers. -/
inductive CallerDecision where
  | ok | foreign | unverifiable
  deriving DecidableEq, Repr

/-- What the storage does with one row: it works, and the backlog can or cannot be counted afterwards; it fails before
the row is stored; or the row is stored and the answer is lost. -/
inductive Storage where
  | works (counted : Bool)
  | fails
  | answerLost
  deriving DecidableEq, Repr

/-- The jobs registered in the process (`_JOBS`): one definition for each id. -/
structure Jobs where
  find : String → Option EventJobSpec
  find_id : ∀ id spec, find id = some spec → spec.id = id

/-- A character `KEY_RE` allows. -/
def keyChar (c : Char) : Bool := c.isAlphanum || c ∈ ['.', '_', ':', '@', '/', '-']

/-- `KEY_RE.match`: 1 to 128 characters. `$` also matches before a line feed at the end. -/
def keyMatches (key : String) : Bool :=
  let body := if key.toList.getLast? = some '\n' then key.toList.dropLast else key.toList
  decide (1 ≤ body.length ∧ body.length ≤ 128) && body.all keyChar

/-- `clean_key` and then `clean_payload`, whose answer is given. -/
def cleanArguments (key : String) (payload : Except String Json) : Except String Json :=
  if keyMatches key then payload
  else .error "key must be 1 to 128 characters of letters, digits and . _ : @ / -."

/-! ## The table, as a publish sees it -/

/-- The row stands for the key: it is pending or running, or succeeded inside the dedupe window. -/
def JobSys.covers (clock : Int) (spec : EventJobSpec) (key : String) (j : JobSys) : Bool :=
  j.live && j.row.identity == (spec.moduleId, spec.id, key) &&
    (j.row.status.active ||
      decide (0 < spec.dedupeSeconds) && j.row.status == .succeeded &&
        j.row.finishedAt.any (clock - seconds spec.dedupeSeconds ≤ ·))

/-- `_persist` answers that the publish is a duplicate. -/
def EventJobs.isDuplicate (clock : Int) (spec : EventJobSpec) (key : String) (w : EventJobs) : Bool :=
  w.jobs.any (JobSys.covers clock spec key)

/-- The number of pending rows of a job, as `_refresh_gauge` counts it. -/
def EventJobs.pendingCount (spec : EventJobSpec) (w : EventJobs) : Nat :=
  w.jobs.countP fun j => j.live && j.row.moduleId == spec.moduleId && j.row.jobId == spec.id && j.row.status == .pending

/-! ## The process -/

/-- What an `on_commit` hook stores. `remembered` tells a hook of `publish`, which has put its pair into the memory, from
one of `publish_for_core`, which has not. -/
structure Hook where
  spec : EventJobSpec
  key : String
  payload : Json
  remembered : Bool

/-- The pair a hook is for. -/
def Hook.name (h : Hook) : String × String := (h.spec.id, h.key)

/-- What became of the publish that put a pair into the memory: it waits for its transaction, it stored or found the row
at a place of the table, or it was lost. -/
inductive Fate where
  | waiting
  | row (i : Nat)
  | dropped | failed | rolledBack
  deriving DecidableEq, Repr

/-- A process that publishes. `blocks` are its open atomic blocks, the innermost first, each with the hooks registered in
it; `commits` are the hooks of a committed transaction that are still to run. The last field is history. -/
structure Publisher where
  table : EventJobs := {}
  recent : RecentKeys := {}
  rate : RateWindow := {}
  gauges : Gauges := {}
  blocks : List (List Hook) := []
  commits : List Hook := []
  fates : List ((String × String) × Fate) := []

namespace Publisher

/-- Record what became of a hook's publish, when it is the one the memory holds. -/
def settle (h : Hook) (fate : Fate) (p : Publisher) : Publisher :=
  if h.remembered then { p with fates := Dict.set h.name fate p.fates } else p

/-- Record the row that stands for a hook's pair. -/
def settleRow (clock : Int) (h : Hook) (p : Publisher) : Publisher :=
  p.settle h ((p.table.jobs.findIdx? (JobSys.covers clock h.spec h.key)).elim .failed .row)

/-- `_persist_safely`. The message is sent by a later step of the table. -/
def persistSafely (clock : Int) (h : Hook) (storage : Storage) (p : Publisher) : PublishResult × Publisher :=
  let stored := { p with table := p.table.persist clock h.spec h.key h.payload }
  match storage with
  | .fails => (.error "", p.settle h .failed)
  | .answerLost => (.error "", stored.settleRow clock h)
  | .works counted =>
    if p.table.isDuplicate clock h.spec h.key then (.duplicate, p.settleRow clock h)
    else
      let adjusted := p.gauges.adjust clock h.spec.id
      let gauges :=
        if adjusted.stale clock h.spec.id && counted then
          adjusted.set clock h.spec.id (stored.table.pendingCount h.spec)
        else adjusted
      (.queued, { stored with gauges := gauges }.settleRow clock h)

/-- The last part of `_publish` and `publish_for_core`: the rate, the backlog, and the store, at once or on commit. -/
def admitEvent (clock : Int) (h : Hook) (storage : Storage) (p : Publisher) : PublishResult × Publisher :=
  let allowed := p.rate.allow clock h.spec.id
  let p := { p with rate := allowed.2 }
  if !allowed.1 then (.dropped "rate", p.settle h .dropped)
  else if backlogFull (p.gauges.get clock h.spec.id) h.spec.maxBacklog then (.dropped "backlog", p.settle h .dropped)
  else
    match p.blocks with
    | block :: outer => (.queued, { p with blocks := (block ++ [h]) :: outer }.settle h .waiting)
    | [] => p.persistSafely clock h storage

/-- `_publish`. `enabled` is what `_module_enabled_cached` answers. -/
def publish (jobs : Jobs) (clock : Int) (jobId key : String) (payload : Except String Json) (enabled : Bool)
    (caller : CallerDecision) (storage : Storage) (p : Publisher) : PublishResult × Publisher :=
  match jobs.find jobId with
  | none => (.error "not a registered publisher", p)
  | some spec =>
    if !enabled then (.disabled, p)
    else
      match caller with
      | .unverifiable => (.error "the caller could not be verified", p)
      | .foreign => (.error "the caller is not the module that owns this job", p)
      | .ok =>
        match cleanArguments key payload with
        | .error reason => (.error reason, p)
        | .ok payload =>
          if p.recent.fresh clock (spec.id, key) then (.duplicate, p)
          else { p with recent := p.recent.remember clock (spec.id, key) }.admitEvent clock ⟨spec, key, payload, true⟩ storage

/-- `publish_for_core`. `core` is what `_core_caller_ok` answers. -/
def publishForCore (jobs : Jobs) (clock : Int) (jobId moduleId key : String) (payload : Except String Json) (core : Bool)
    (status : ModuleStatus) (storage : Storage) (p : Publisher) : PublishResult × Publisher :=
  if !core then (.error "not Core's own caller", p)
  else
    match jobs.find jobId with
    | none => (.error "not a registered event job of this module", p)
    | some spec =>
      if spec.moduleId ≠ moduleId then (.error "not a registered event job of this module", p)
      else
        match status with
        | .unknown => (.error "the module state could not be read", p)
        | .unavailable => (.disabled, p)
        | .runnable =>
          match cleanArguments key payload with
          | .error reason => (.error reason, p)
          | .ok payload => p.admitEvent clock ⟨spec, key, payload, false⟩ storage

end Publisher

/-! ## Runs -/

/-- One step: a publish, entering and leaving an atomic block, a hook, or a step of the table by another process. -/
inductive PubAct where
  | publish (jobId key : String) (payload : Except String Json) (enabled : Bool) (caller : CallerDecision)
      (storage : Storage)
  | publishForCore (jobId moduleId key : String) (payload : Except String Json) (core : Bool) (status : ModuleStatus)
      (storage : Storage)
  | enterBlock
  | leaveBlock
  | rollbackBlock
  | runHook (storage : Storage)
  | elsewhere (a : EventAct)

namespace Publisher

/-- The history of a hook that is rolled back: its pair still waits when another hook of it is in an outer block. -/
def settleRolledBack (outer : List Hook) (p : Publisher) (h : Hook) : Publisher :=
  if outer.any fun h' => h'.remembered && h'.name == h.name then p else p.settle h .rolledBack

/-- The innermost block is rolled back: its hooks are gone. -/
def rollback (block : List Hook) (outer : List (List Hook)) (p : Publisher) : Publisher :=
  block.foldl (settleRolledBack outer.flatten) { p with blocks := outer }

/-- What a publish answers in a state. While the hooks of a transaction run, the process publishes nothing. -/
def answer (jobs : Jobs) (clock : Int) (a : PubAct) (p : Publisher) : Option PublishResult :=
  match p.commits, a with
  | [], .publish jobId key payload enabled caller storage =>
    some (p.publish jobs clock jobId key payload enabled caller storage).1
  | [], .publishForCore jobId moduleId key payload core status storage =>
    some (p.publishForCore jobs clock jobId moduleId key payload core status storage).1
  | _, _ => none

/-- What a step does. -/
def step (jobs : Jobs) (clock : Int) (a : PubAct) (p : Publisher) : Publisher :=
  match a, p.commits with
  | .publish jobId key payload enabled caller storage, [] =>
    (p.publish jobs clock jobId key payload enabled caller storage).2
  | .publishForCore jobId moduleId key payload core status storage, [] =>
    (p.publishForCore jobs clock jobId moduleId key payload core status storage).2
  | .enterBlock, [] => { p with blocks := [] :: p.blocks }
  | .leaveBlock, [] =>
    match p.blocks with
    | [] => p
    | [block] => { p with blocks := [], commits := block }
    | block :: next :: outer => { p with blocks := (next ++ block) :: outer }
  | .rollbackBlock, [] =>
    match p.blocks with
    | [] => p
    | block :: outer => p.rollback block outer
  | .runHook storage, h :: rest => ({ p with commits := rest }.persistSafely clock h storage).2
  | .elsewhere a, _ => { p with table := p.table.step clock a }
  | _, _ => p

end Publisher

end TecTac
