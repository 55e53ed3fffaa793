import TecTac.RunSystem

/-!
# A schedule and its runs

One schedule row, every run of it with the processes around it, and the tick that holds the row lock. A tick is two
steps: it takes the lock, reads the row and asks whether a run is active; then it writes and lets the lock go. Between
the two, workers and recoveries go on with the runs, and everything that saves the schedule row waits for the lock.
-/

namespace TecTac

/-- A tick between its read and its write: what it reads from outside, and the answer of the query for active runs. -/
structure TickHold where
  env : TickEnv
  active : Bool

/-- The record of a tick that was written: its moment, the run it created, the occurrence it consumed without a run, and
the moment of the create or edit the schedule then stood at. -/
structure TickEntry where
  now : Int
  created : Option RunRow
  baseline : Option Int
  revisedAt : Int
  deriving DecidableEq

/-- A schedule, its runs and the tick. `schedule` is `none` once it was deleted. The last two fields are history: when
the schedule was created or last edited, and the ticks so far. -/
structure World where
  schedule : Option Schedule
  runs : List RunSys := []
  tick : Option TickHold := none
  revisedAt : Int
  ticks : List TickEntry := []

/-- What `SchedulerRunNowView` reads besides the row: the permission and ownership checks, the scope check, and the
canonicalised targets. -/
structure RunNowEnv where
  runId : String
  visibility : ScheduleVisibility := {}
  permitted : Bool := true
  inScope : Bool := true
  canonicalTargets : Json → Except String Json := .ok

/-- `is_one_off_schedule`. -/
def isOneOffSchedule (s : Schedule) : Bool := s.ownerType == .module && s.ownerKey.startsWith "one-off:"

/-- `SchedulerRunNowView.post` and `queue_manual_run`: the row, and the manual run that is queued. -/
def runNow (clock : Int) (env : RunNowEnv) (s : Schedule) : Schedule × Option RunRow :=
  if env.visibility.kind s ≠ .ordinary ∨ s.pausedReason ∈ coreReasons ∨ isOneOffSchedule s ∨ !env.permitted then (s, none)
  else
    match env.canonicalTargets s.targets with
    | .error text => (invalidateTargets clock text s, none)
    | .ok canonical =>
      if !env.inScope then (s, none)
      else
        let s' := saveCanonicalTargets clock canonical s
        (s', some { runKwargs s' env.runId clock clock with manual := true })

/-- A call of `reconcile_schedule` that changes nothing. A schedule with a stored creator is returned as it is; any
other is saved, and the save writes `updated_at`. -/
def reconcileUnchanged (clock : Int) (s : Schedule) : Schedule :=
  if s.createdBy ≠ "" then s else { s with updatedAt := clock }

/-- `disable_owned_schedule`, and `reconcile_schedule` with `enabled=False` on a schedule a person created. -/
def switchOff (clock : Int) (s : Schedule) : Schedule :=
  if s.enabled then { s with enabled := false, updatedAt := clock } else s

/-- An edit: every column may change, and `updated_at` is written. A PATCH blanks `last_due_key`; a reconcile that
changes no timing column keeps it. -/
def edited (clock : Int) (new : Schedule) (keepKey : Bool) (s : Schedule) : Schedule :=
  { new with id := s.id, lastDueKey := if keepKey then s.lastDueKey else none, updatedAt := clock }

/-- What the end of a run saves on its schedule: `last_run_at`, and `updated_at` with it. -/
def touchLastRun (clock : Int) (s : Schedule) : Schedule := { s with lastRunAt := some clock, updatedAt := clock }

/-- One step. -/
inductive WorldAct where
  | tickRead (env : TickEnv)
  | tickWrite
  | syncModuleState (v : ScheduleVisibility)
  | runNow (env : RunNowEnv)
  | reconcileUnchanged
  | switchOff
  | edit (new : Schedule) (keepKey : Bool)
  | run (i : Nat) (a : RunAct)
  | forceDelete

namespace World

/-- A schedule just created. -/
def created (clock : Int) (s : Schedule) : World where
  schedule := some { s with lastDueKey := none, updatedAt := clock }
  revisedAt := clock

/-- The query `schedule.runs.filter(status__in=[queued, running]).exists()`. -/
def anyActive (w : World) : Bool := w.runs.any fun r => r.row.status.active

/-- A save of the schedule row, which waits while a tick holds the lock. -/
def save (f : Schedule → Schedule) (w : World) : World :=
  if w.tick.isSome then w else { w with schedule := w.schedule.map f }

/-- The write of a tick. -/
def write (clock : Int) (h : TickHold) (s : Schedule) (w : World) : World :=
  let r := dispatchSchedule clock h.env h.active s
  { w with
    schedule := some r.schedule
    runs := w.runs ++ (r.created.map RunSys.created).toList
    tick := none
    ticks := w.ticks ++ [⟨h.env.now, r.created, r.baseline, w.revisedAt⟩] }

/-- A step of one run. One that also saves the schedule waits while a tick holds the lock. -/
def runStep (timeouts : String → Option Nat) (clock : Int) (i : Nat) (a : RunAct) (w : World) : World :=
  match w.runs[i]? with
  | none => w
  | some r =>
    let f := r.act timeouts clock a
    if f.2 then
      if w.tick.isSome then w
      else { w with runs := w.runs.set i f.1, schedule := w.schedule.map (touchLastRun clock) }
    else { w with runs := w.runs.set i f.1 }

/-- What a step does. -/
def step (timeouts : String → Option Nat) (clock : Int) : WorldAct → World → World
  | .tickRead env, w =>
    if w.tick.isSome ∨ w.schedule.isNone then w else { w with tick := some ⟨env, w.anyActive⟩ }
  | .tickWrite, w =>
    match w.tick, w.schedule with
    | some h, some s => w.write clock h s
    | _, _ => w
  | .syncModuleState v, w => w.save (syncModuleScheduleState v)
  | .runNow env, w =>
    match w.tick, w.schedule with
    | none, some s =>
      let f := TecTac.runNow clock env s
      { w with schedule := some f.1, runs := w.runs ++ (f.2.map RunSys.created).toList }
    | _, _ => w
  | .reconcileUnchanged, w => w.save (TecTac.reconcileUnchanged clock)
  | .switchOff, w => w.save (TecTac.switchOff clock)
  | .edit new keepKey, w =>
    if w.tick.isSome ∨ w.schedule.isNone then w
    else { w.save (edited clock new keepKey) with revisedAt := clock }
  -- the forced delete of one run is only ever a part of the forced delete of the schedule
  | .run i a, w => match a with
    | .forceDelete => w
    | _ => w.runStep timeouts clock i a
  | .forceDelete, w =>
    if w.tick.isSome ∨ w.schedule.isNone then w
    else { w with schedule := none, runs := w.runs.map (RunSys.step timeouts clock .forceDelete) }

end World

end TecTac
