import TecTac.Lib.Machine
import TecTac.Lib.Tally

/-!
# The counters of the event jobs

`_count`, `flush_counters`, `_bump_stat` and `_tick_report_drops` of `event_jobs.py`. The threads of a process share its counters; each step that holds the lock, and each transaction on a
stat row, is one step here, and the steps of all threads come in any order. The stat rows are shared with the other processes.
-/

namespace TecTac

namespace EventCounters

/-- The module and the identifier of a job. -/
abbrev Job := String × String

/-- The counters of the hot path. -/
inductive Name where
  | published
  | duplicate
  | dropped
  deriving DecidableEq

abbrev Counts := List (Name × Nat)

/-- The columns of `TecTacEventJobStat` that the steps read or write. -/
structure StatRow where
  published : Nat := 0
  duplicate : Nat := 0
  dropped : Nat := 0
  droppedReported : Nat := 0
  droppedDay : Nat := 0
  droppedDayStarted : Option Int := none
  deriving DecidableEq

def StatRow.count (row : StatRow) : Name → Nat
  | .published => row.published
  | .duplicate => row.duplicate
  | .dropped => row.dropped

/-- `setattr(stat, name, getattr(stat, name) + amount)`. -/
def StatRow.add (row : StatRow) (name : Name) (amount : Nat) : StatRow :=
  match name with
  | .published => { row with published := row.published + amount }
  | .duplicate => { row with duplicate := row.duplicate + amount }
  | .dropped => { row with dropped := row.dropped + amount }

/-- A flush that is under way: the entries that it has still to write, and the one whose write failed and that it has still to put back. -/
structure Flight where
  entries : List (Job × Counts)
  failed : Option (Job × Counts)
  deriving DecidableEq

/-- How the write of an entry ends: stored, with an exception and everything rolled back, or without a stat row, where neither the query nor the insert gave one. -/
inductive Outcome where
  | stored
  | raised
  | noRow
  deriving DecidableEq

inductive Event where
  /-- `_count`. -/
  | count (job : Job) (name : Name) (amount : Nat)
  /-- A flush takes the counters. -/
  | take
  /-- A flush writes its next entry. -/
  | write (flight : Nat) (outcome : Outcome) (now : Int)
  /-- A flush puts back the entry that it could not write. -/
  | putBack (flight : Nat)
  /-- Another process, or the worker, adds to a stat row. -/
  | elsewhere (job : Job) (counts : Counts) (now : Int)
  /-- The tick marks the drops of a job as reported. -/
  | report (job : Job)
  /-- The tick writes an audit row that it owes, and the row is recorded or not. -/
  | audit (index : Nat) (recorded : Bool)
  deriving DecidableEq

structure State where
  counters : List (Job × Counts)
  flights : List Flight
  stats : List (Job × StatRow)
  /-- What was marked as reported and has no audit row yet. -/
  owed : List (Job × Nat)
  /-- The counts of the audit rows. -/
  audited : List (Job × Nat)
  history : List Event

/-- A process that starts, before any stat row. -/
def State.start : State := ⟨[], [], [], [], [], []⟩

/-- `row[name] = row.get(name, 0) + amount`. -/
def addCount (counts : Counts) (name : Name) (amount : Nat) : Counts := Dict.set name ((Dict.get name counts).getD 0 + amount) counts

/-- What is added to the entry of a job, which is made where there is none. -/
def addTo (counters : List (Job × Counts)) (job : Job) (more : Counts) : List (Job × Counts) :=
  Dict.set job (more.foldl (fun counts e => addCount counts e.1 e.2) ((Dict.get job counters).getD [])) counters

/-- `any(value.values())`. -/
def anyCount (counts : Counts) : Bool := counts.any fun e => e.2 != 0

/-- The 24 hours of the day's drops, in microseconds. -/
def day : Int := 24 * 3600 * 1000000

/-- What `_bump_stat` makes of a row. -/
def bump (row : StatRow) (now : Int) (counts : Counts) : StatRow :=
  let row := counts.foldl (fun row e => row.add e.1 e.2) row
  let dropped := (Dict.get .dropped counts).getD 0
  if dropped = 0 then row
  else if (row.droppedDayStarted.all fun started => decide (day < now - started)) then { row with droppedDay := dropped, droppedDayStarted := some now }
  else { row with droppedDay := row.droppedDay + dropped }

/-- The row of a job, made where there is none, with the counts added. -/
def bumpStat (stats : List (Job × StatRow)) (job : Job) (now : Int) (counts : Counts) : List (Job × StatRow) :=
  Dict.set job (bump ((Dict.get job stats).getD {}) now counts) stats

/-- The writes of a flush, from its next entry on. -/
def writeNext (s : State) (index : Nat) (flight : Flight) (outcome : Outcome) (now : Int) : State :=
  match flight.failed, flight.entries with
  | none, (job, counts) :: rest =>
    match outcome with
    | .stored => { s with flights := s.flights.set index ⟨rest, none⟩, stats := bumpStat s.stats job now counts }
    | .raised => { s with flights := s.flights.set index ⟨rest, some (job, counts)⟩ }
    | .noRow => { s with flights := s.flights.set index ⟨rest, none⟩ }
  | _, _ => s

def act (s : State) : Event → State
  | .count job name amount => { s with counters := addTo s.counters job [(name, amount)] }
  | .take => { s with counters := [], flights := s.flights ++ [⟨s.counters.filter fun e => anyCount e.2, none⟩] }
  | .write index outcome now =>
    match s.flights[index]? with
    | none => s
    | some flight => writeNext s index flight outcome now
  | .putBack index =>
    match s.flights[index]? with
    | some ⟨entries, some (job, counts)⟩ => { s with flights := s.flights.set index ⟨entries, none⟩, counters := addTo s.counters job counts }
    | _ => s
  | .elsewhere job counts now => { s with stats := bumpStat s.stats job now counts }
  | .report job =>
    match Dict.get job s.stats with
    | none => s
    | some row =>
      if row.dropped ≤ row.droppedReported then s
      else { s with stats := Dict.set job { row with droppedReported := row.dropped } s.stats, owed := s.owed ++ [(job, row.dropped - row.droppedReported)] }
  | .audit index recorded =>
    match s.owed[index]? with
    | none => s
    | some row => { s with owed := s.owed.eraseIdx index, audited := if recorded then s.audited ++ [row] else s.audited }

def step (s : State) (event : Event) : State := { act s event with history := s.history ++ [event] }

end EventCounters

end TecTac
