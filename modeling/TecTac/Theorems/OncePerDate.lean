import TecTac.Lemmas.World
import TecTac.Lemmas.Occurrence

/-!
# One run for each date

A calendar schedule should get at most one run for each of its dates, for the moment of `run_time` on that date. The
tick remembers only the last key it consumed, so this rests on the latest occurrence being a true one and never going
back. The daily branch takes 24 hours off the current date's moment where it should take the moment of the date before:
on a date when the clock changes, every tick before `run_time` finds an occurrence that is none. In every run in which
the clock is regular at each tick that looks for an occurrence (`RegularTicks`), the schedule gets its runs for dates in
increasing order.
-/

namespace TecTac

open Timeline

/-- The rows the ticks created for occurrences. -/
def World.dispatchedRows (w : World) : List RunRow :=
  (w.ticks.filterMap (·.created)).filter fun row => row.errorType ≠ "InvalidTargetShape"

/-- The moment of `run_time` on a date. -/
def dateOccurrence (z : Zone) (t : Timing) (day : Int) : Option Int := t.runTime.map fun rt => localOccurrence z rt day

/-- Each row is for a date of its own: the dates are eligible and increasing, and the row of a date is scheduled for the
moment of `run_time` on it. -/
def OncePerDate (z : Zone) (t : Timing) (rows : List RunRow) : Prop :=
  ∃ days : List Int, days.Pairwise (· < ·) ∧ (∀ d ∈ days, Eligible t d) ∧
    rows.map (fun row => some row.scheduledFor) = days.map (dateOccurrence z t)

/-- The schedule is not edited, every tick reads the same time zone database, and the moments of the ticks do not go
back. -/
structure UneditedTicks (zoneinfo : String → Option Zone) (_ : Int) (a : WorldAct) (w : World) : Prop where
  unedited : ∀ new keepKey, a ≠ .edit new keepKey
  zones : ∀ h, a = .tickWrite → w.tick = some h → h.env.zoneinfo = zoneinfo
  ordered : ∀ h, a = .tickWrite → w.tick = some h → ∀ e ∈ w.ticks, e.now ≤ h.env.now

/-- The clock is regular at every tick that looks for an occurrence. -/
def RegularTicks (clock : Int) (a : WorldAct) (w : World) : Prop :=
  ∀ h s z s', a = .tickWrite → w.tick = some h → w.schedule = some s → Ready clock h.env s z s' →
    ClockRegular z s.toTiming h.env.now

/-! ## The invariant -/

/-- The runs so far are for the dates `days`, in order, and the last key is that of the last date reached at an earlier
tick, which is not before any of them. -/
structure InOrder (z : Zone) (t : Timing) (w : World) (days : List Int) : Prop where
  sorted : days.Pairwise (· < ·)
  eligible : ∀ d ∈ days, Eligible t d
  rows : w.dispatchedRows.map (fun row => some row.scheduledFor) = days.map (dateOccurrence z t)
  timing : ∀ s, w.schedule = some s → s.toTiming = t
  fresh : ∀ s, w.schedule = some s → s.lastDueKey = none → days = []
  consumed : ∀ s key, w.schedule = some s → s.lastDueKey = some key →
    ∃ rt last, ∃ e ∈ w.ticks, t.runTime = some rt ∧ IsLatest z rt t e.now last ∧
      key = floorMinute (localOccurrence z rt last) ∧ ∀ d ∈ days, d ≤ last

namespace OncePerDateAux

variable {z : Zone} {t : Timing} {w : World} {days : List Int}

theorem dueKey_calendar (hcal : t.scheduleType.isCalendar = true) (occurrence : Int) :
    dueKey t occurrence = floorMinute occurrence := by
  unfold dueKey
  rw [if_neg]
  intro ht
  rw [ht] at hcal
  cases hcal

/-- A step that keeps the ticks, the timing and the last key keeps the invariant. -/
theorem inOrder_of_saved {timeouts : String → Option Nat} {clock : Int} {a : WorldAct} {w' : World}
    (hsaved : Saved timeouts clock a w w') (hticks : w'.ticks = w.ticks) (h : InOrder z t w days) : InOrder z t w' days where
  sorted := h.sorted
  eligible := h.eligible
  rows := by
    unfold World.dispatchedRows
    rw [hticks]
    exact h.rows
  timing := fun s' hs' => by
    obtain ⟨s, hs, hkept⟩ := hsaved s' hs'
    exact hkept.timing.trans (h.timing s hs)
  fresh := fun s' hs' hnone => by
    obtain ⟨s, hs, hkept⟩ := hsaved s' hs'
    exact h.fresh s hs (hkept.lastDueKey ▸ hnone)
  consumed := fun s' key hs' hkey => by
    obtain ⟨s, hs, hkept⟩ := hsaved s' hs'
    rw [hticks]
    exact h.consumed s key hs (hkept.lastDueKey ▸ hkey)

/-- The rows after a tick. -/
theorem dispatchedRows_write (clock : Int) (hold : TickHold) (s : Schedule) (w : World) :
    (w.write clock hold s).dispatchedRows = w.dispatchedRows ++
      (dispatchSchedule clock hold.env hold.active s).created.toList.filter fun row =>
        row.errorType ≠ "InvalidTargetShape" := by
  unfold World.dispatchedRows World.write
  simp only [List.filterMap_append, List.filter_append]
  cases (dispatchSchedule clock hold.env hold.active s).created <;> rfl

/-- A tick that creates no run for an occurrence and keeps the last key keeps the invariant. -/
theorem inOrder_of_same {clock : Int} {hold : TickHold} {s : Schedule} (hs : w.schedule = some s)
    (htiming : (dispatchSchedule clock hold.env hold.active s).schedule.toTiming = s.toTiming)
    (hkey : (dispatchSchedule clock hold.env hold.active s).schedule.lastDueKey = s.lastDueKey)
    (hrows : ∀ row, (dispatchSchedule clock hold.env hold.active s).created = some row → row.errorType = "InvalidTargetShape")
    (h : InOrder z t w days) : InOrder z t (w.write clock hold s) days where
  sorted := h.sorted
  eligible := h.eligible
  rows := by
    rw [dispatchedRows_write]
    cases hrow : (dispatchSchedule clock hold.env hold.active s).created with
    | none =>
      rw [Option.toList_none, List.filter_nil, List.append_nil]
      exact h.rows
    | some row =>
      have hnil : [row].filter (fun row => decide (row.errorType ≠ "InvalidTargetShape")) = [] := by
        simp [hrows row hrow]
      rw [Option.toList_some, hnil, List.append_nil]
      exact h.rows
  timing := fun s' hs' => by
    obtain rfl := Option.some.inj hs'
    exact htiming.trans (h.timing s hs)
  fresh := fun s' hs' hnone => by
    obtain rfl := Option.some.inj hs'
    exact h.fresh s hs (hkey ▸ hnone)
  consumed := fun s' key hs' hkey' => by
    obtain rfl := Option.some.inj hs'
    obtain ⟨rt, last, e, he, hrest⟩ := h.consumed s key hs (hkey ▸ hkey')
    exact ⟨rt, last, e, List.mem_append_left _ he, hrest⟩

/-- A date that is reached for the first time comes after all the dates so far. -/
theorem lt_of_isLatest {s : Schedule} (hs : w.schedule = some s) {rt : RunTime} {now day : Int} (hrt : t.runTime = some rt)
    (hlatest : IsLatest z rt t now day) (hordered : ∀ e ∈ w.ticks, e.now ≤ now)
    (hnew : s.lastDueKey ≠ some (floorMinute (localOccurrence z rt day))) (h : InOrder z t w days) : ∀ d ∈ days, d < day := by
  intro d hd
  cases hkey : s.lastDueKey with
  | none =>
    rw [h.fresh s hs hkey] at hd
    cases hd
  | some key =>
    obtain ⟨rt', last, e, he, hrt', hlast, hkeq, hle⟩ := h.consumed s key hs hkey
    obtain rfl := Option.some.inj (hrt.symm.trans hrt')
    have h1 := hle d hd
    have h2 := hlatest.last last hlast.eligible (le_trans hlast.reached (hordered e he))
    have h3 : last ≠ day := by
      rintro rfl
      rw [hkey, hkeq] at hnew
      exact hnew rfl
    omega

/-- A tick that consumes the occurrence of a date leaves the key of that date, and the dates so far with or without it.
-/
theorem inOrder_of_consumed {clock : Int} {hold : TickHold} {s : Schedule} {rt : RunTime} {day : Int} {days' : List Int}
    (htiming : (dispatchSchedule clock hold.env hold.active s).schedule.toTiming = t)
    (hrt : t.runTime = some rt) (hlatest : IsLatest z rt t hold.env.now day)
    (hkey : (dispatchSchedule clock hold.env hold.active s).schedule.lastDueKey = some (floorMinute (localOccurrence z rt day)))
    (hsorted : days'.Pairwise (· < ·)) (helig : ∀ d ∈ days', Eligible t d)
    (hrows : (w.write clock hold s).dispatchedRows.map (fun row => some row.scheduledFor) = days'.map (dateOccurrence z t))
    (hle : ∀ d ∈ days', d ≤ day) : InOrder z t (w.write clock hold s) days' where
  sorted := hsorted
  eligible := helig
  rows := hrows
  timing := fun s' hs' => by
    obtain rfl := Option.some.inj hs'
    exact htiming
  fresh := fun s' hs' hnone => by
    obtain rfl := Option.some.inj hs'
    cases hkey.symm.trans hnone
  consumed := fun s' key hs' hkey' => by
    obtain rfl := Option.some.inj hs'
    obtain rfl := Option.some.inj (hkey.symm.trans hkey')
    exact ⟨rt, day, _, List.mem_append_right _ (List.mem_singleton.mpr rfl), hrt, hlatest, rfl, hle⟩

/-- The step lemma for the write of a tick. -/
theorem inOrder_write {clock : Int} {hold : TickHold} {s : Schedule} (hcal : t.scheduleType.isCalendar = true)
    (hshape : MonthWeekShape t) (hz : ∀ z', hold.env.zoneinfo s.timezone = some z' → z' = z) (hs : w.schedule = some s)
    (hordered : ∀ e ∈ w.ticks, e.now ≤ hold.env.now)
    (hreg : ∀ z' s', Ready clock hold.env s z' s' → ClockRegular z' s.toTiming hold.env.now) (h : InOrder z t w days) :
    ∃ days', InOrder z t (w.write clock hold s) days' := by
  have hdisp := dispatched clock hold.env hold.active s
  have hst := h.timing s hs
  -- the occurrence of a tick is the moment of the last date reached
  have hdate : ∀ z' s' occurrence, Ready clock hold.env s z' s' →
    latestOccurrence z' s.toTiming hold.env.now = some occurrence →
      ∃ rt day, t.runTime = some rt ∧ IsLatest z rt t hold.env.now day ∧ occurrence = localOccurrence z rt day := by
    intro z' s' occurrence hready hocc
    obtain rfl := hz z' hready.zone
    rw [hst] at hocc
    exact latestOccurrence_isLatest hcal hshape (hst ▸ hreg z' s' hready) hocc
  generalize hr : dispatchSchedule clock hold.env hold.active s = r at hdisp
  cases hdisp with
  | waits s' _ hsame =>
    refine ⟨days, inOrder_of_same hs ?_ ?_ ?_ h⟩ <;> rw [hr]
    · exact hsame.timing
    · exact hsame.lastDueKey
    · exact fun row hrow => by cases hrow
  | invalid s' text row _ _ _ _ htiming hkey _ _ _ _ _ htype =>
    refine ⟨days, inOrder_of_same hs ?_ ?_ ?_ h⟩ <;> rw [hr]
    · exact htiming
    · exact hkey
    · intro row' hrow
      obtain rfl := Option.some.inj hrow
      exact htype
  | nothingNew z' s' hready =>
    refine ⟨days, inOrder_of_same hs ?_ ?_ ?_ h⟩ <;> rw [hr]
    · exact hready.same.timing
    · exact hready.same.lastDueKey
    · exact fun row hrow => by cases hrow
  | baseline z' s' s'' occurrence hready hocc hnone _ hconsumed =>
    obtain ⟨rt, day, hrt, hlatest, rfl⟩ := hdate z' s' occurrence hready hocc
    rw [hst, dueKey_calendar hcal] at hconsumed
    have htiming := hconsumed.toTiming.trans hready.same.timing
    obtain rfl := h.fresh s hs hnone
    refine ⟨[], inOrder_of_consumed (by rw [hr]; exact htiming.trans hst) hrt hlatest
      (by rw [hr]; exact hconsumed.lastDueKey) List.Pairwise.nil (fun d hd => by cases hd) ?_ (fun d hd => by cases hd)⟩
    rw [dispatchedRows_write, hr]
    simp only [Option.toList_none, List.filter_nil, List.append_nil]
    exact h.rows
  | created z' s' s'' occurrence row hready hocc hnew hconsumed _ _ hfor htype =>
    obtain ⟨rt, day, hrt, hlatest, rfl⟩ := hdate z' s' occurrence hready hocc
    rw [hst, dueKey_calendar hcal] at hconsumed hnew
    have htiming := hconsumed.toTiming.trans hready.same.timing
    have hlt := lt_of_isLatest hs hrt hlatest hordered hnew h
    refine ⟨days ++ [day], inOrder_of_consumed (by rw [hr]; exact htiming.trans hst) hrt hlatest
      (by rw [hr]; exact hconsumed.lastDueKey) ?_ ?_ ?_ ?_⟩
    · refine List.pairwise_append.mpr ⟨h.sorted, List.pairwise_singleton _ _, ?_⟩
      intro d hd d' hd'
      rw [List.mem_singleton.mp hd']
      exact hlt d hd
    · intro d hd
      rcases List.mem_append.mp hd with hd | hd
      · exact h.eligible d hd
      · rw [List.mem_singleton.mp hd]
        exact hlatest.eligible
    · have hkeep : [row].filter (fun row => decide (row.errorType ≠ "InvalidTargetShape")) = [row] := by simp [htype]
      rw [dispatchedRows_write, hr, Option.toList_some, hkeep, List.map_append, List.map_append, h.rows]
      simp only [List.map_cons, List.map_nil, dateOccurrence, hrt, Option.map_some, hfor]
    · intro d hd
      rcases List.mem_append.mp hd with hd | hd
      · exact le_of_lt (hlt d hd)
      · exact le_of_eq (List.mem_singleton.mp hd)

/-- Every step keeps it. -/
theorem inOrder_of_move {timeouts : String → Option Nat} {zoneinfo : String → Option Zone} {clock : Int} {a : WorldAct}
    {w' : World}
    (hcal : t.scheduleType.isCalendar = true) (hshape : MonthWeekShape t) (hz : zoneinfo t.timezone = some z)
    (hmove : WorldMove timeouts clock a w w') (hunedited : UneditedTicks zoneinfo clock a w) (hreg : RegularTicks clock a w)
    (h : InOrder z t w days) : ∃ days', InOrder z t w' days' := by
  cases hmove with
  | read env =>
    exact ⟨days, h.sorted, h.eligible, h.rows, h.timing, h.fresh, h.consumed⟩
  | wrote hold s ha htick hs =>
    refine inOrder_write hcal hshape ?_ hs (hunedited.ordered hold ha htick)
      (fun z' s' hready => hreg hold s z' s' ha htick hs hready) h
    intro z' hz'
    rw [hunedited.zones hold ha htick, congrArg Timing.timezone (h.timing s hs), hz] at hz'
    exact (Option.some.inj hz').symm
  | saved _ hsaved _ _ _ hticks => exact ⟨days, inOrder_of_saved hsaved hticks h⟩
  | edited _ new s keepKey ha => exact absurd ha (hunedited.unedited new keepKey)
  | started _ row hsaved _ _ _ _ _ _ hticks => exact ⟨days, inOrder_of_saved hsaved hticks h⟩
  | ran _ i r b hsaved _ _ _ _ hticks => exact ⟨days, inOrder_of_saved hsaved hticks h⟩
  | deleted _ _ hnone _ _ _ hticks =>
    have hsaved : Saved timeouts clock a w w' := fun s' hs' => by cases hnone.symm.trans hs'
    exact ⟨days, inOrder_of_saved hsaved hticks h⟩

end OncePerDateAux

/-- Two ticks after the creation of a schedule, the second not before the first, are ticks in order. -/
theorem uneditedTicks_two (zoneinfo : String → Option Zone) (clock : Int) (s : Schedule) (wait wait' : Nat) {now now' : Int}
    (hle : now ≤ now') :
    Along (World.step fun _ => none) (UneditedTicks zoneinfo) ⟨clock, World.created clock s⟩
      (tickAfter zoneinfo wait now ++ tickAfter zoneinfo wait' now') := by
  simp only [tickAfter, List.cons_append, List.nil_append, along_cons, along_nil, and_true]
  refine ⟨⟨fun _ _ h => (by cases h), fun _ h => (by cases h), fun _ h => by cases h⟩, ⟨fun _ _ h => (by cases h), ?_, ?_⟩,
    ⟨fun _ _ h => (by cases h), fun _ h => (by cases h), fun _ h => by cases h⟩, ⟨fun _ _ h => (by cases h), ?_, ?_⟩⟩
  · rintro h - htick
    obtain rfl := Option.some.inj htick
    rfl
  · rintro h - - e he
    cases he
  · rintro h - htick
    obtain rfl := Option.some.inj htick
    rfl
  · rintro h - htick e he
    obtain rfl := Option.some.inj htick
    obtain rfl := List.mem_singleton.mp he
    simp only
    omega

/-- Ticks at noon of the first two days of 1970, in UTC. -/
def noonTicks : List (Event WorldAct) := tickAfter utcOnly 43200 43200 ++ tickAfter utcOnly 86400 129600

/-- Amsterdam around 29 March 2026: an hour ahead of UTC, and two hours from 01:00 UTC of that day on. -/
def amsterdam : Zone where
  initial := 3600000000
  transitions := [(1774746000000000, 7200000000)]
  sorted := by decide
  wallSorted := by decide
  bounded := by decide

/-- The schedule is created on 28 March. The first tick is at noon of that day, the second half an hour into 29 March.
-/
def springTicks : List (Event WorldAct) :=
  tickAfter (fun _ => some amsterdam) 39600 1774695600 ++ tickAfter (fun _ => some amsterdam) 45000 1774740600

end TecTac
