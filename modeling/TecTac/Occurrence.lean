import TecTac.Schedule
import TecTac.Lib.Calendar

/-!
# Which occurrence is due

`latest_occurrence`, `next_occurrence`, `due_key`, `_should_run_occurrence` and the revision baseline of `scheduler.py`. A wall time is
resolved with `Zone.ofWall`, as `datetime(..., tzinfo=tz).astimezone(utc)` does for `fold = 0`.
-/

namespace TecTac

open Calendar

/-- The local date at a moment. -/
def localDay (z : Zone) (now : Int) : Int := z.toWall now / dayMicros

/-- `_local_occurrence`: the moment of `run_time` on a local date. -/
def localOccurrence (z : Zone) (rt : RunTime) (day : Int) : Int := z.ofWall (rt.wall day)

/-- `uses_nth_weekday`. -/
def usesNthWeekday (t : Timing) : Bool := t.monthWeek.isSome && t.monthWeekday.isSome

/-- `nth_weekday_date`: the nth (1 to 4) or last (-1) weekday of a month. -/
def nthWeekdayDate (ym : YearMonth) (week wd : Int) : Int :=
  if week = -1 then
    let last := ym.start + ym.length - 1
    last - (weekday last - wd) % 7
  else ym.start + ((wd - weekday ym.start) % 7 + 7 * (week - 1))

/-- `_monthly_day`: the date a monthly schedule runs on in one month. -/
def monthlyDay (t : Timing) (ym : YearMonth) : Int :=
  if usesNthWeekday t then nthWeekdayDate ym (t.monthWeek.getD 0) (t.monthWeekday.getD 0)
  else ym.start + min (t.dayOfMonth.getD 0 : Int) ym.length - 1

/-- One turn of the weekly loop: the occurrence `offset` days before `day`, when that date is chosen and its time is
reached. -/
def weeklyCandidate (z : Zone) (rt : RunTime) (weekdays : List Int) (day : Int) (now : Int) (offset : Nat) : Option Int :=
  if weekday (day - offset) ∈ weekdays then
    let candidate := localOccurrence z rt (day - offset)
    if candidate ≤ now then some candidate else none
  else none

/-- The monthly loop, from a month backwards, for at most `fuel` months. -/
def monthlyCandidate (z : Zone) (rt : RunTime) (t : Timing) (now : Int) : Nat → YearMonth → Option Int
  | 0, _ => none
  | fuel + 1, ym =>
    let candidate := localOccurrence z rt (monthlyDay t ym)
    if candidate ≤ now then some candidate else monthlyCandidate z rt t now fuel ym.prev

/-- The interval branch of `latest_occurrence`. The source divides `total_seconds()` as floats; the quotient is exact
for every span below 2^53 microseconds, and here it is the exact one for all. -/
def intervalOccurrence (t : Timing) (now : Int) : Option Int :=
  match t.intervalAnchorAt, t.intervalSeconds with
  | some anchor, some secs =>
    if secs = 0 then none
    else if secs < minIntervalSeconds ∨ now < anchor then none
    else some (anchor + (now - anchor) / seconds secs * seconds secs)
  | _, _ => none

/-- `latest_occurrence`. -/
def latestOccurrence (z : Zone) (t : Timing) (now : Int) : Option Int :=
  match t.scheduleType with
  | .once => t.runAt
  | .interval => intervalOccurrence t now
  | .daily =>
    t.runTime.map fun rt =>
      let candidate := localOccurrence z rt (localDay z now)
      if now < candidate then candidate - dayMicros else candidate
  | .weekly =>
    t.runTime.bind fun rt =>
      if t.weekdays = [] then none
      else (List.range 8).findSome? (weeklyCandidate z rt t.weekdays (localDay z now) now)
  | .monthly =>
    t.runTime.bind fun rt =>
      if !usesNthWeekday t && t.dayOfMonth.getD 0 == 0 then none
      else monthlyCandidate z rt t now 14 (YearMonth.ofDay (localDay z now))

/-! ## The next occurrence -/

/-- The occurrence on a local date, unless it is before `now`. -/
def nextOnDay (z : Zone) (rt : RunTime) (now : Int) (day : Int) : Option Int :=
  let candidate := localOccurrence z rt day
  if now ≤ candidate then some candidate else none

/-- The monthly loop of `next_occurrence`, from a month onwards, for at most `fuel` months. -/
def nextMonthly (z : Zone) (rt : RunTime) (t : Timing) (now : Int) : Nat → YearMonth → Option Int
  | 0, _ => none
  | fuel + 1, ym =>
    match nextOnDay z rt now (monthlyDay t ym) with
    | some candidate => some candidate
    | none => nextMonthly z rt t now fuel ym.next

/-- The interval branch of `next_occurrence`, with the exact quotient as in `intervalOccurrence`. -/
def nextInterval (t : Timing) (now : Int) : Option Int :=
  match t.intervalAnchorAt, t.intervalSeconds with
  | some anchor, some secs =>
    if secs = 0 then none
    else if secs < minIntervalSeconds then none
    else if now ≤ anchor then some anchor
    else
      let candidate := anchor + (now - anchor) / seconds secs * seconds secs
      some (if candidate < now then candidate + seconds secs else candidate)
  | _, _ => none

/-- `next_occurrence`. -/
def nextOccurrence (z : Zone) (t : Timing) (now : Int) : Option Int :=
  match t.scheduleType with
  | .once => t.runAt.filter fun runAt => decide (now ≤ runAt)
  | .interval => nextInterval t now
  | .daily => t.runTime.bind fun rt => (List.range 2).findSome? fun offset => nextOnDay z rt now (localDay z now + offset)
  | .weekly =>
    t.runTime.bind fun rt => (List.range 8).findSome? fun offset =>
      let day := localDay z now + offset
      if weekday day ∈ t.weekdays then nextOnDay z rt now day else none
  | .monthly =>
    t.runTime.bind fun rt =>
      if usesNthWeekday t || t.dayOfMonth.getD 0 != 0 then nextMonthly z rt t now 14 (YearMonth.ofDay (localDay z now))
      else none

/-- `due_key`: the moment itself for an interval schedule, its minute for the others. -/
def dueKey (t : Timing) (when_ : Int) : Int := if t.scheduleType = .interval then when_ else floorMinute when_

/-- The grace test that ends both branches of `_should_run_occurrence`. -/
def withinRecovery (s : Schedule) (late : Int) : Bool :=
  s.missedPolicy == .runOnRecovery && (s.missedGraceMinutes == 0 || decide (late ≤ minutes s.missedGraceMinutes))

/-- `_should_run_occurrence`. -/
def shouldRunOccurrence (s : Schedule) (occurrence now : Int) : Bool :=
  if s.scheduleType = .interval then
    if now < occurrence then false
    else if now - occurrence ≤ missedLateTolerance then true
    else withinRecovery s (now - occurrence)
  else
    let occ := floorMinute occurrence
    let nowMin := floorMinute now
    if nowMin < occ then false
    else if occ = nowMin ∨ nowMin - occ ≤ missedLateTolerance then true
    else withinRecovery s (nowMin - occ)

/-- `_occurrence_predates_schedule_revision`. -/
def occurrencePredatesScheduleRevision (s : Schedule) (occurrence : Int) : Bool :=
  s.lastDueKey.isNone && decide (occurrence < s.updatedAt)

end TecTac
