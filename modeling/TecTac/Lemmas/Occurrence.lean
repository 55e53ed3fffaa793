import TecTac.EligibleDate

/-!
# What `latestOccurrence` finds

The weekly, monthly and interval searches never return a moment after `now` (`latestOccurrence_le`). The calendar
searches return the moment of `run_time` on an eligible date, and under `ClockRegular` that date is the last eligible
one reached (`latestOccurrence_isLatest`).
-/

namespace TecTac

open Calendar

theorem floorMinute_mono {a b : Int} (h : a ≤ b) : floorMinute a ≤ floorMinute b := by
  unfold floorMinute
  omega

theorem floorMinute_idem (t : Int) : floorMinute (floorMinute t) = floorMinute t := by
  unfold floorMinute
  omega

/-! ## The searches -/

theorem weeklyCandidate_eq_some {z : Zone} {rt : RunTime} {ws : List Int} {day : Int} {now occ : Int} {k : Nat}
    (h : weeklyCandidate z rt ws day now k = some occ) :
    weekday (day - k) ∈ ws ∧ occ = localOccurrence z rt (day - k) ∧ occ ≤ now := by
  unfold weeklyCandidate at h
  split at h
  · rename_i hw
    simp only at h
    split at h
    · rename_i hle
      obtain rfl := Option.some.inj h
      exact ⟨hw, rfl, hle⟩
    · cases h
  · cases h

/-- A turn of the weekly loop that finds nothing: the date is not chosen, or its time is still to come. -/
theorem weeklyCandidate_eq_none {z : Zone} {rt : RunTime} {ws : List Int} {day : Int} {now : Int} {k : Nat}
    (h : weeklyCandidate z rt ws day now k = none) (hw : weekday (day - k) ∈ ws) : now < localOccurrence z rt (day - k) := by
  unfold weeklyCandidate at h
  rw [if_pos hw] at h
  simp only at h
  split at h
  · cases h
  · omega

/-- The monthly loop returns the occurrence of a month at or before the one it starts from; every month between is still
to come. -/
theorem monthlyCandidate_eq_some {z : Zone} {rt : RunTime} {t : Timing} {now occ : Int} {fuel : Nat} {ym : YearMonth}
    (h : monthlyCandidate z rt t now fuel ym = some occ) :
    ∃ ym' : YearMonth, ym'.index ≤ ym.index ∧ occ = localOccurrence z rt (monthlyDay t ym') ∧ occ ≤ now ∧
      ∀ m : YearMonth, ym'.index < m.index → m.index ≤ ym.index → now < localOccurrence z rt (monthlyDay t m) := by
  induction fuel generalizing ym with
  | zero => cases h
  | succ n ih =>
    simp only [monthlyCandidate] at h
    split at h
    · rename_i hle
      obtain rfl := Option.some.inj h
      exact ⟨ym, le_refl _, rfl, hle, fun m h1 h2 => absurd h1 (by omega)⟩
    · rename_i hgt
      obtain ⟨ym', hidx, hocc, hle, hbetween⟩ := ih h
      rw [YearMonth.index_prev] at hidx hbetween
      refine ⟨ym', by omega, hocc, hle, fun m h1 h2 => ?_⟩
      by_cases hm : m.index = ym.index
      · rw [YearMonth.index_inj hm]
        omega
      · exact hbetween m h1 (by omega)

theorem intervalOccurrence_le {t : Timing} {now occ : Int} (h : intervalOccurrence t now = some occ) : occ ≤ now := by
  unfold intervalOccurrence at h
  split at h
  · rename_i anchor secs _ _
    split at h
    · cases h
    · split at h
      · cases h
      · rename_i hs _
        obtain rfl := Option.some.inj h
        have hpos : 0 < seconds secs := by
          simp only [seconds]
          omega
        have := Int.ediv_mul_le (now - anchor) (ne_of_gt hpos)
        omega
  · cases h

/-- The weekly, monthly and interval searches never return a moment to come. -/
theorem latestOccurrence_le {z : Zone} {t : Timing} {now occ : Int} (honce : t.scheduleType ≠ .once)
    (hdaily : t.scheduleType ≠ .daily) (h : latestOccurrence z t now = some occ) : occ ≤ now := by
  unfold latestOccurrence at h
  split at h
  · rename_i ht
    exact absurd ht honce
  · exact intervalOccurrence_le h
  · rename_i ht
    exact absurd ht hdaily
  · obtain ⟨rt, -, h⟩ := Option.bind_eq_some_iff.mp h
    split at h
    · cases h
    · obtain ⟨k, -, hk⟩ := List.exists_of_findSome?_eq_some h
      exact (weeklyCandidate_eq_some hk).2.2
  · obtain ⟨rt, -, h⟩ := Option.bind_eq_some_iff.mp h
    split at h
    · cases h
    · obtain ⟨-, -, -, hle, -⟩ := monthlyCandidate_eq_some h
      exact hle

/-! ## Eligible dates -/

theorem nthWeekdayDate_mem (ym : YearMonth) (week wd : Int) (h : week ∈ [1, 2, 3, 4, -1]) :
    ym.start ≤ nthWeekdayDate ym week wd ∧ nthWeekdayDate ym week wd < ym.start + ym.length := by
  have hlen := ym.length_ge
  simp only [List.mem_cons, List.not_mem_nil, or_false] at h
  unfold nthWeekdayDate
  split
  · simp only
    omega
  · omega

/-- The date of a month falls in that month. -/
theorem monthlyDay_mem {t : Timing} (hshape : MonthWeekShape t) (hset : usesNthWeekday t = true ∨ t.dayOfMonth.getD 0 ≠ 0)
    (ym : YearMonth) : ym.start ≤ monthlyDay t ym ∧ monthlyDay t ym < ym.start + ym.length := by
  have hlen := ym.length_ge
  unfold monthlyDay
  split
  · rename_i hu
    exact nthWeekdayDate_mem ym _ _ (hshape hu)
  · rename_i hu
    have hdom : t.dayOfMonth.getD 0 ≠ 0 := hset.resolve_left hu
    omega

theorem ofDay_monthlyDay {t : Timing} (hshape : MonthWeekShape t) (hset : usesNthWeekday t = true ∨ t.dayOfMonth.getD 0 ≠ 0)
    (ym : YearMonth) : YearMonth.ofDay (monthlyDay t ym) = ym :=
  YearMonth.ofDay_eq (monthlyDay_mem hshape hset ym).1 (monthlyDay_mem hshape hset ym).2

/-- A search along `range n` returns what the first index that has something gives. -/
theorem findSome?_range {β : Type} {f : Nat → Option β} {b : β} {n : Nat} (h : (List.range n).findSome? f = some b) :
    ∃ k < n, f k = some b ∧ ∀ j < k, f j = none := by
  induction n with
  | zero => cases h
  | succ n ih =>
    rw [List.range_succ, List.findSome?_append] at h
    cases hn : (List.range n).findSome? f with
    | some c =>
      rw [hn] at h
      obtain rfl := Option.some.inj h
      obtain ⟨k, hk, hfk, hj⟩ := ih hn
      exact ⟨k, by omega, hfk, hj⟩
    | none =>
      rw [hn, Option.none_or, List.findSome?_singleton] at h
      exact ⟨n, by omega, h, fun j hj => List.findSome?_eq_none_iff.mp hn j (List.mem_range.mpr hj)⟩

/-- An eligible date whose time is reached is not after the current local date, when the clock is regular. -/
theorem ClockRegularAt.le_localDay {z : Zone} {rt : RunTime} {t : Timing} {now d : Int} (hreg : ClockRegularAt z rt t now)
    (hd : Eligible t d) (hle : localOccurrence z rt d ≤ now) : d ≤ localDay z now := by
  by_contra hgt
  have := hreg.2 d hd (by omega)
  omega

/-- The daily branch finds the last date reached. -/
theorem daily_isLatest {z : Zone} {t : Timing} {now : Int} (ht : t.scheduleType = .daily) {rt : RunTime}
    (hreg : ClockRegularAt z rt t now) :
    ∃ day, IsLatest z rt t now day ∧
      (if now < localOccurrence z rt (localDay z now) then localOccurrence z rt (localDay z now) - dayMicros
        else localOccurrence z rt (localDay z now)) = localOccurrence z rt day := by
  have hall : ∀ d, Eligible t d := fun d => by simp only [Eligible, ht]
  split
  · rename_i hlt
    obtain ⟨heq, hle⟩ := (hreg.1 ht).resolve_left (by omega)
    refine ⟨localDay z now - 1, ⟨hall _, hle, ?_⟩, heq.symm⟩
    intro d hd hdle
    have hday := hreg.le_localDay hd hdle
    by_contra hne
    obtain rfl : d = localDay z now := by omega
    omega
  · rename_i hge
    exact ⟨localDay z now, ⟨hall _, by omega, fun d hd hdle => hreg.le_localDay hd hdle⟩, rfl⟩

/-- The weekly search finds the last eligible date reached. -/
theorem weekly_isLatest {z : Zone} {t : Timing} {now occ : Int} (ht : t.scheduleType = .weekly) {rt : RunTime}
    (hreg : ClockRegularAt z rt t now)
    (h : (List.range 8).findSome? (weeklyCandidate z rt t.weekdays (localDay z now) now) = some occ) :
    ∃ day, IsLatest z rt t now day ∧ occ = localOccurrence z rt day := by
  obtain ⟨k, -, hk, hnone⟩ := findSome?_range h
  obtain ⟨hw, hocc, hle⟩ := weeklyCandidate_eq_some hk
  refine ⟨localDay z now - k, ⟨by simpa only [Eligible, ht] using hw, hocc ▸ hle, ?_⟩, hocc⟩
  intro d hd hdle
  have hday := hreg.le_localDay hd hdle
  by_contra hlt
  -- the offset of `d` comes before `k` in the loop, so the loop looked at `d` and passed on
  obtain ⟨j, rfl⟩ : ∃ j : Nat, d = localDay z now - j := ⟨(localDay z now - d).toNat, by omega⟩
  have := weeklyCandidate_eq_none (hnone j (by omega)) (by simpa only [Eligible, ht] using hd)
  omega

/-- The monthly search finds the last eligible date reached. -/
theorem monthly_isLatest {z : Zone} {t : Timing} {now occ : Int} (ht : t.scheduleType = .monthly) (hshape : MonthWeekShape t)
    (hset : usesNthWeekday t = true ∨ t.dayOfMonth.getD 0 ≠ 0) {rt : RunTime} (hreg : ClockRegularAt z rt t now)
    {fuel : Nat} (h : monthlyCandidate z rt t now fuel (YearMonth.ofDay (localDay z now)) = some occ) :
    ∃ day, IsLatest z rt t now day ∧ occ = localOccurrence z rt day := by
  obtain ⟨ym, -, hocc, hle, hbetween⟩ := monthlyCandidate_eq_some h
  have helig : Eligible t (monthlyDay t ym) := by
    simp only [Eligible, ht]
    rw [ofDay_monthlyDay hshape hset]
  refine ⟨monthlyDay t ym, ⟨helig, hocc ▸ hle, ?_⟩, hocc⟩
  intro d hd hdle
  have hmono := YearMonth.index_ofDay_mono (hreg.le_localDay hd hdle)
  have hd' : d = monthlyDay t (YearMonth.ofDay d) := by simpa only [Eligible, ht] using hd
  by_contra hlt
  -- the month of `d` lies after the month found and not after the current one, so the loop looked at it and passed on
  have hidx : ym.index < (YearMonth.ofDay d).index := by
    by_contra hge
    rcases lt_or_eq_of_le (not_lt.mp hge) with hlt' | heq
    · have h1 := YearMonth.start_next_le _ _ hlt'
      have h2 := YearMonth.lt_start_next_ofDay d
      have h3 := (monthlyDay_mem hshape hset ym).1
      omega
    · rw [YearMonth.index_inj heq] at hd'
      omega
  have := hbetween _ hidx hmono
  rw [← hd'] at this
  omega

/-- Under a regular clock, `latestOccurrence` of a calendar schedule is the moment of `run_time` on the last eligible
date reached. -/
theorem latestOccurrence_isLatest {z : Zone} {t : Timing} {now occ : Int} (hcal : t.scheduleType.isCalendar = true)
    (hshape : MonthWeekShape t) (hreg : ClockRegular z t now) (h : latestOccurrence z t now = some occ) :
    ∃ rt day, t.runTime = some rt ∧ IsLatest z rt t now day ∧ occ = localOccurrence z rt day := by
  unfold latestOccurrence at h
  split at h
  · rename_i ht
    simp [ht, ScheduleType.isCalendar] at hcal
  · rename_i ht
    simp [ht, ScheduleType.isCalendar] at hcal
  · rename_i ht
    obtain ⟨rt, hrt, hocc⟩ := Option.map_eq_some_iff.mp h
    obtain ⟨day, hday, heq⟩ := daily_isLatest ht (hreg rt hrt)
    exact ⟨rt, day, hrt, hday, by rw [← hocc, ← heq]⟩
  · rename_i ht
    obtain ⟨rt, hrt, h⟩ := Option.bind_eq_some_iff.mp h
    split at h
    · cases h
    · obtain ⟨day, hday, hocc⟩ := weekly_isLatest ht (hreg rt hrt) h
      exact ⟨rt, day, hrt, hday, hocc⟩
  · rename_i ht
    obtain ⟨rt, hrt, h⟩ := Option.bind_eq_some_iff.mp h
    split at h
    · cases h
    · rename_i hset
      have hset' : usesNthWeekday t = true ∨ t.dayOfMonth.getD 0 ≠ 0 := by
        by_contra hno
        simp_all
      obtain ⟨day, hday, hocc⟩ := monthly_isLatest ht hshape hset' (hreg rt hrt) h
      exact ⟨rt, day, hrt, hday, hocc⟩

/-- With one offset for ever the clock is regular at every moment. -/
theorem clockRegular_fixed (off : Int) (h : -dayMicros < off ∧ off < dayMicros) (t : Timing) (now : Int) :
    ClockRegular (Zone.fixed off h) t now := by
  intro rt _
  have hhour := rt.hour_lt
  have hminute := rt.minute_lt
  simp only [ClockRegularAt, localOccurrence, localDay, Zone.ofWall_fixed, Zone.toWall_fixed, RunTime.wall, dayMicros]
  refine ⟨?_, ?_⟩
  · intro _
    omega
  · intro day _ hday
    omega

/-! ## What the occurrences depend on -/

/-- The two fire at the same moments: both functions answer alike at every time, whatever the zones are. -/
def FiresAlike (t t' : Timing) : Prop :=
  ∀ (zones : String → Zone) (now : Int), latestOccurrence (zones t.timezone) t now = latestOccurrence (zones t'.timezone) t' now ∧
    nextOccurrence (zones t.timezone) t now = nextOccurrence (zones t'.timezone) t' now

/-- The fields that a schedule of the type reads are the same. -/
structure SameFiring (t t' : Timing) : Prop where
  scheduleType : t.scheduleType = t'.scheduleType
  timezone : t.timezone = t'.timezone
  runAt : t.runAt = t'.runAt
  runTime : t.runTime = t'.runTime
  weekdays : t.weekdays = t'.weekdays
  monthly : t.scheduleType = .monthly →
    t.dayOfMonth = t'.dayOfMonth ∧ t.monthWeek = t'.monthWeek ∧ t.monthWeekday = t'.monthWeekday
  interval : t.scheduleType = .interval →
    t.intervalSeconds = t'.intervalSeconds ∧ t.intervalAnchorAt = t'.intervalAnchorAt

namespace SameFiring

variable {t t' : Timing}

/-- The date in a month depends on the three monthly fields. -/
theorem monthlyDay_eq (hday : t.dayOfMonth = t'.dayOfMonth) (hweek : t.monthWeek = t'.monthWeek)
    (hweekday : t.monthWeekday = t'.monthWeekday) : monthlyDay t = monthlyDay t' := by
  funext ym
  unfold monthlyDay usesNthWeekday
  rw [hday, hweek, hweekday]

theorem monthlyCandidate_eq (z : Zone) (rt : RunTime) (now : Int) (h : monthlyDay t = monthlyDay t') (fuel : Nat) :
    ∀ ym, monthlyCandidate z rt t now fuel ym = monthlyCandidate z rt t' now fuel ym := by
  induction fuel with
  | zero =>
    intro ym
    rfl
  | succ fuel ih =>
    intro ym
    unfold monthlyCandidate
    rw [h, ih]

theorem nextMonthly_eq (z : Zone) (rt : RunTime) (now : Int) (h : monthlyDay t = monthlyDay t') (fuel : Nat) :
    ∀ ym, nextMonthly z rt t now fuel ym = nextMonthly z rt t' now fuel ym := by
  induction fuel with
  | zero =>
    intro ym
    rfl
  | succ fuel ih =>
    intro ym
    unfold nextMonthly
    rw [h, ih]

/-- Schedules with the same firing fields fire alike. -/
theorem firesAlike (h : SameFiring t t') : FiresAlike t t' := by
  intro zones now
  unfold latestOccurrence nextOccurrence
  rw [← h.timezone, ← h.scheduleType, ← h.runAt, ← h.runTime, ← h.weekdays]
  cases htype : t.scheduleType with
  | once => exact ⟨rfl, rfl⟩
  | daily => exact ⟨rfl, rfl⟩
  | weekly => exact ⟨rfl, rfl⟩
  | monthly =>
    obtain ⟨hday, hweek, hweekday⟩ := h.monthly htype
    have hmonth := monthlyDay_eq hday hweek hweekday
    unfold usesNthWeekday
    simp only [hday, hweek, hweekday, monthlyCandidate_eq _ _ now hmonth, nextMonthly_eq _ _ now hmonth, and_self]
  | interval =>
    obtain ⟨hsecs, hanchor⟩ := h.interval htype
    unfold intervalOccurrence nextInterval
    simp only [hsecs, hanchor, and_self]

end SameFiring

/-- An interval schedule has no occurrence before its anchor. -/
theorem intervalOccurrence_before {t : Timing} {anchor now : Int} (hanchor : t.intervalAnchorAt = some anchor)
    (hnow : now < anchor) : intervalOccurrence t now = none := by
  unfold intervalOccurrence
  rw [hanchor]
  cases t.intervalSeconds with
  | none => rfl
  | some secs =>
    dsimp only
    split
    · rfl
    · rw [if_pos (Or.inr hnow)]

/-- At its anchor an interval schedule fires. -/
theorem intervalOccurrence_anchor {t : Timing} {anchor : Int} {secs : Nat} (hanchor : t.intervalAnchorAt = some anchor)
    (hsecs : t.intervalSeconds = some secs) (hmin : 60 ≤ secs) : intervalOccurrence t anchor = some anchor := by
  have h0 : secs ≠ 0 := by omega
  have h1 : minIntervalSeconds ≤ secs := hmin
  simp [intervalOccurrence, hanchor, hsecs, h0, h1]

/-- Interval schedules of one length that fire alike have the same anchor. -/
theorem anchor_eq_of_firesAlike {t t' : Timing} {anchor : Int} {secs : Nat} (h : FiresAlike t t')
    (htype : t.scheduleType = .interval) (htype' : t'.scheduleType = .interval) (hanchor : t.intervalAnchorAt = some anchor)
    (hsecs : t.intervalSeconds = some secs) (hsecs' : t'.intervalSeconds = some secs) (hmin : 60 ≤ secs) :
    t'.intervalAnchorAt = some anchor := by
  have hlatest : ∀ now, intervalOccurrence t now = intervalOccurrence t' now := by
    intro now
    have hnow := (h (fun _ => Zone.fixed 0 (by decide)) now).1
    simpa only [latestOccurrence, htype, htype'] using hnow
  have hfires := intervalOccurrence_anchor hanchor hsecs hmin
  cases hother : t'.intervalAnchorAt with
  | none =>
    have hnone : intervalOccurrence t' anchor = none := by simp [intervalOccurrence, hother]
    rw [hlatest, hnone] at hfires
    cases hfires
  | some anchor' =>
    -- at the earlier of the two anchors one fires and the other has no occurrence yet
    have hfires' := intervalOccurrence_anchor hother hsecs' hmin
    rcases lt_trichotomy anchor anchor' with hlt | heq | hlt
    · rw [hlatest, intervalOccurrence_before hother hlt] at hfires
      cases hfires
    · rw [heq]
    · rw [← hlatest, intervalOccurrence_before hanchor hlt] at hfires'
      cases hfires'

end TecTac
