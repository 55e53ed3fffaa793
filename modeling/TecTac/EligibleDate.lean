import TecTac.Occurrence

/-!
# The dates a calendar schedule runs on

What a daily, weekly or monthly schedule means, said without the searches of `latest_occurrence`: it runs on its
eligible local dates, each at the moment of `run_time` on that date. `ClockRegular` says of a moment that the local
clock has done nothing odd around it.
-/

namespace TecTac

open Calendar

/-- Daily, weekly or monthly. -/
def ScheduleType.isCalendar : ScheduleType → Bool
  | .daily | .weekly | .monthly => true
  | .once | .interval => false

/-- The local dates a calendar schedule runs on. -/
def Eligible (t : Timing) (day : Int) : Prop :=
  match t.scheduleType with
  | .daily => True
  | .weekly => weekday day ∈ t.weekdays
  | .monthly => day = monthlyDay t (YearMonth.ofDay day)
  | .once | .interval => False

instance (t : Timing) (day : Int) : Decidable (Eligible t day) := by
  unfold Eligible
  split <;> infer_instance

/-- The last eligible date whose time is reached at a moment. -/
structure IsLatest (z : Zone) (rt : RunTime) (t : Timing) (now day : Int) : Prop where
  eligible : Eligible t day
  reached : localOccurrence z rt day ≤ now
  last : ∀ d, Eligible t d → localOccurrence z rt d ≤ now → d ≤ day

/-- The nth-weekday pair of a monthly schedule, when it is used, names the first to fourth or the last week, as
`validate_schedule_payload` demands of every value it lets through. -/
def MonthWeekShape (t : Timing) : Prop := usesNthWeekday t = true → t.monthWeek.getD 0 ∈ [1, 2, 3, 4, -1]

/-- The local clock is regular at `now`, for the time `rt`: for a daily schedule, `run_time` of the current local date
is reached, or `run_time` of the date before was exactly 24 hours earlier and is reached; and no eligible date after the
current local date has had its `run_time` already (which only a clock set back over midnight can bring about). -/
def ClockRegularAt (z : Zone) (rt : RunTime) (t : Timing) (now : Int) : Prop :=
  (t.scheduleType = .daily → localOccurrence z rt (localDay z now) ≤ now ∨
    (localOccurrence z rt (localDay z now - 1) = localOccurrence z rt (localDay z now) - dayMicros ∧
      localOccurrence z rt (localDay z now - 1) ≤ now)) ∧
  ∀ day, Eligible t day → localDay z now < day → now < localOccurrence z rt day

/-- The local clock is regular at `now` for the schedule's `run_time`, if it has one. -/
def ClockRegular (z : Zone) (t : Timing) (now : Int) : Prop := ∀ rt, t.runTime = some rt → ClockRegularAt z rt t now

end TecTac
