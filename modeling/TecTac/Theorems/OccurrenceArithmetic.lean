import Mathlib
import TecTac.ElapsedSeconds
import TecTac.Lemmas.Occurrence

/-!
# The occurrences are the nearest instants

A schedule has its instants: `run_time` on its dates, or its anchor and the multiples of its interval after it. With one offset for ever, the latest occurrence is the greatest instant that is
reached, and the next one the least that is not past. For an interval this is so exactly where the float of the elapsed seconds stays below the next multiple.
-/

namespace TecTac

namespace Elapsed

open Calendar

/-! ## The instants of a schedule -/

/-- The local dates that a schedule runs on: the chosen weekdays, the nth or the last such weekday of the month, or the day of the month, and its last day where the month is shorter. -/
def OnDate (t : Timing) (day : Int) : Prop :=
  match t.scheduleType with
  | .daily => True
  | .weekly => weekday day ∈ t.weekdays
  | .monthly =>
    let month := YearMonth.ofDay day
    if usesNthWeekday t then
      weekday day = t.monthWeekday.getD 0 ∧
        if t.monthWeek.getD 0 = -1 then month.start + month.length ≤ day + 7
        else month.start + 7 * (t.monthWeek.getD 0 - 1) ≤ day ∧ day < month.start + 7 * t.monthWeek.getD 0
    else day = month.start + min (t.dayOfMonth.getD 0 : Int) month.length - 1
  | .once | .interval => False

def Instants (z : Zone) (t : Timing) : Set Int :=
  if t.scheduleType = .interval then
    {x | ∃ anchor secs, t.intervalAnchorAt = some anchor ∧ t.intervalSeconds = some secs ∧ ∃ k : Nat, x = anchor + k * seconds secs}
  else {x | ∃ rt day, t.runTime = some rt ∧ OnDate t day ∧ x = localOccurrence z rt day}

/-- What the shape checks leave of a recurring schedule. -/
structure ShapeOk (t : Timing) : Prop where
  recurs : t.scheduleType ≠ .once
  monthly : t.scheduleType = .monthly →
    if usesNthWeekday t then t.monthWeek.getD 0 ∈ [1, 2, 3, 4, -1] ∧ 0 ≤ t.monthWeekday.getD 0 ∧ t.monthWeekday.getD 0 ≤ 6
    else 1 ≤ t.dayOfMonth.getD 0 ∧ t.dayOfMonth.getD 0 ≤ 31
  interval : t.scheduleType = .interval → ∀ secs, t.intervalSeconds = some secs → minIntervalSeconds ≤ secs

/-- The answer is the greatest instant at or before a moment, and there is none where there is none. -/
def IsLatestInstant (instants : Set Int) (now : Int) : Option Int → Prop
  | some occ => IsGreatest {x | x ∈ instants ∧ x ≤ now} occ
  | none => ∀ x ∈ instants, ¬ x ≤ now

/-- The answer is the least instant at or after a moment, and there is none where there is none. -/
def IsNextInstant (instants : Set Int) (now : Int) : Option Int → Prop
  | some occ => IsLeast {x | x ∈ instants ∧ now ≤ x} occ
  | none => ∀ x ∈ instants, ¬ now ≤ x

/-- The two occurrences at a moment are the instants next to it, and no other lies between them. -/
structure Nearest (z : Zone) (t : Timing) (now : Int) : Prop where
  latest : IsLatestInstant (Instants z t) now (latestOccurrence z t now)
  next : IsNextInstant (Instants z t) now (nextOccurrence z t now)
  between : ∀ a b, latestOccurrence z t now = some a → nextOccurrence z t now = some b → ∀ x ∈ Instants z t, ¬ (a < x ∧ x < b)

/-- The float of the elapsed seconds of an interval schedule is below the next multiple of the interval. -/
def FloatBelow (t : Timing) (now : Int) : Prop :=
  t.scheduleType = .interval → ∀ anchor secs, t.intervalAnchorAt = some anchor → t.intervalSeconds = some secs → anchor ≤ now → 0 < secs →
    BelowNext (now - anchor).toNat secs

namespace NearAux

/-- What is next to a moment on either side leaves nothing between. -/
theorem between_of {instants : Set Int} {now : Int} {latest next : Option Int} (hlatest : IsLatestInstant instants now latest)
    (hnext : IsNextInstant instants now next) {a b : Int} (ha : latest = some a) (hb : next = some b) {x : Int} (hx : x ∈ instants) : ¬ (a < x ∧ x < b) := by
  subst ha hb
  rintro ⟨hax, hxb⟩
  rcases le_total x now with hle | hle
  · exact absurd (hlatest.2 ⟨hx, hle⟩) (not_le.2 hax)
  · exact absurd (hnext.2 ⟨hx, hle⟩) (not_le.2 hxb)

/-! ## Dates -/

theorem ofDay_bounds (day : Int) : (YearMonth.ofDay day).start ≤ day ∧ day < (YearMonth.ofDay day).start + (YearMonth.ofDay day).length := by
  refine ⟨YearMonth.start_ofDay_le day, ?_⟩
  rw [← YearMonth.start_next]
  exact YearMonth.lt_start_next_ofDay day

/-- The formula for the nth weekday finds the one day of the month that is it. -/
theorem eq_nthWeekdayDate_iff {month : YearMonth} {day week wd : Int} (hday : month.start ≤ day ∧ day < month.start + month.length) (hweek : week ∈ [1, 2, 3, 4, -1])
    (hwd : 0 ≤ wd ∧ wd ≤ 6) :
    day = nthWeekdayDate month week wd ↔
      weekday day = wd ∧ if week = -1 then month.start + month.length ≤ day + 7 else month.start + 7 * (week - 1) ≤ day ∧ day < month.start + 7 * week := by
  have hlen := month.length_ge
  simp only [List.mem_cons, List.not_mem_nil, or_false] at hweek
  unfold nthWeekdayDate weekday
  split
  · simp only
    constructor
    · intro h
      omega
    · intro h
      omega
  · constructor
    · intro h
      omega
    · intro h
      omega

theorem eligible_iff {t : Timing} (h : ShapeOk t) (day : Int) : Eligible t day ↔ OnDate t day := by
  unfold Eligible OnDate
  cases htype : t.scheduleType with
  | monthly =>
    have hshape := h.monthly htype
    simp only [monthlyDay]
    by_cases hnth : usesNthWeekday t = true
    · rw [if_pos hnth] at hshape ⊢
      rw [if_pos hnth]
      exact eq_nthWeekdayDate_iff (ofDay_bounds day) hshape.1 hshape.2
    · rw [if_neg hnth, if_neg hnth]
  | _ => exact Iff.rfl

theorem monthWeekShape {t : Timing} (h : ShapeOk t) (htype : t.scheduleType = .monthly) : MonthWeekShape t := fun hnth => by
  have hshape := h.monthly htype
  rw [if_pos hnth] at hshape
  exact hshape.1

theorem monthly_set {t : Timing} (h : ShapeOk t) (htype : t.scheduleType = .monthly) : usesNthWeekday t = true ∨ t.dayOfMonth.getD 0 ≠ 0 := by
  have hshape := h.monthly htype
  split at hshape
  · rename_i hnth
    exact Or.inl hnth
  · exact Or.inr (by omega)

/-! ## One offset for ever -/

section

variable {off : Int} {hoff : -dayMicros < off ∧ off < dayMicros} {rt : RunTime}

theorem occurrence_mono {d d' : Int} (h : d ≤ d') : localOccurrence (Zone.fixed off hoff) rt d ≤ localOccurrence (Zone.fixed off hoff) rt d' := by
  simp only [localOccurrence, Zone.ofWall_fixed, RunTime.wall, dayMicros]
  omega

/-- On the dates after the current one `run_time` is still to come. -/
theorem lt_occurrence {now d : Int} (h : localDay (Zone.fixed off hoff) now < d) : now < localOccurrence (Zone.fixed off hoff) rt d := by
  simp only [localOccurrence, localDay, Zone.ofWall_fixed, Zone.toWall_fixed, RunTime.wall, dayMicros] at h ⊢
  omega

/-- On the dates before the current one it is past. -/
theorem occurrence_lt {now d : Int} (h : d < localDay (Zone.fixed off hoff) now) : localOccurrence (Zone.fixed off hoff) rt d < now := by
  have hhour := rt.hour_lt
  have hminute := rt.minute_lt
  simp only [localOccurrence, localDay, Zone.ofWall_fixed, Zone.toWall_fixed, RunTime.wall, dayMicros] at h ⊢
  omega

end

/-! ## The searches end -/

/-- A weekday comes back within the seven days before and the seven days after. -/
theorem exists_offset (day : Int) {d : Int} : ∃ k : Nat, 1 ≤ k ∧ k < 8 ∧ weekday (day - k) = weekday d ∧ ∃ j : Nat, 1 ≤ j ∧ j < 8 ∧ weekday (day + j) = weekday d := by
  unfold weekday
  refine ⟨((day - d - 1) % 7).toNat + 1, by omega, by omega, by omega, ((d - day - 1) % 7).toNat + 1, by omega, by omega, by omega⟩

section

variable {off : Int} {hoff : -dayMicros < off ∧ off < dayMicros} {rt : RunTime} {t : Timing} {now : Int}

theorem weekly_none (h : (List.range 8).findSome? (weeklyCandidate (Zone.fixed off hoff) rt t.weekdays (localDay (Zone.fixed off hoff) now) now) = none) (d : Int) :
    weekday d ∉ t.weekdays := fun hd => by
  obtain ⟨k, hk1, hk8, hk, -⟩ := exists_offset (localDay (Zone.fixed off hoff) now) (d := d)
  have hlt := weeklyCandidate_eq_none (List.findSome?_eq_none_iff.1 h k (List.mem_range.2 hk8)) (hk ▸ hd)
  exact absurd (occurrence_lt (by omega)) (not_lt.2 (le_of_lt hlt))

theorem monthly_isSome (h : ShapeOk t) (htype : t.scheduleType = .monthly) (fuel : Nat) :
    monthlyCandidate (Zone.fixed off hoff) rt t now (fuel + 2) (YearMonth.ofDay (localDay (Zone.fixed off hoff) now)) ≠ none := by
  have hday : monthlyDay t (YearMonth.ofDay (localDay (Zone.fixed off hoff) now)).prev < localDay (Zone.fixed off hoff) now := by
    have hmem := (monthlyDay_mem (monthWeekShape h htype) (monthly_set h htype) (YearMonth.ofDay (localDay (Zone.fixed off hoff) now)).prev).2
    have hnext := YearMonth.start_next_le (YearMonth.ofDay (localDay (Zone.fixed off hoff) now)).prev (YearMonth.ofDay (localDay (Zone.fixed off hoff) now))
      (by rw [YearMonth.index_prev]; omega)
    have hstart := YearMonth.start_ofDay_le (localDay (Zone.fixed off hoff) now)
    rw [YearMonth.start_next] at hnext
    omega
  have hle : localOccurrence (Zone.fixed off hoff) rt _ ≤ now := le_of_lt (occurrence_lt hday)
  by_cases hnow : localOccurrence (Zone.fixed off hoff) rt (monthlyDay t (YearMonth.ofDay (localDay (Zone.fixed off hoff) now))) ≤ now
  · simp only [monthlyCandidate, hnow, if_true]
    exact Option.some_ne_none _
  · simp only [monthlyCandidate, hnow, if_false, hle, if_true]
    exact Option.some_ne_none _

/-- The monthly loop of the next occurrence ends at a month at or after the one that it starts from; every month between is past. -/
theorem nextMonthly_eq_some {z : Zone} {occ : Int} {fuel : Nat} {month : YearMonth} (h : nextMonthly z rt t now fuel month = some occ) :
    ∃ month' : YearMonth, month.index ≤ month'.index ∧ occ = localOccurrence z rt (monthlyDay t month') ∧ now ≤ occ ∧
      ∀ m : YearMonth, m.index < month'.index → month.index ≤ m.index → localOccurrence z rt (monthlyDay t m) < now := by
  induction fuel generalizing month with
  | zero => cases h
  | succ fuel ih =>
    simp only [nextMonthly, nextOnDay] at h
    by_cases hle : now ≤ localOccurrence z rt (monthlyDay t month)
    · rw [if_pos hle] at h
      obtain rfl := Option.some.inj h
      exact ⟨month, le_refl _, rfl, hle, fun m h1 h2 => absurd h1 (by omega)⟩
    · rw [if_neg hle] at h
      obtain ⟨month', hidx, hocc, hnow, hbetween⟩ := ih h
      rw [YearMonth.index_next] at hidx hbetween
      refine ⟨month', by omega, hocc, hnow, fun m h1 h2 => ?_⟩
      by_cases hm : m.index = month.index
      · rw [YearMonth.index_inj hm]
        omega
      · exact hbetween m h1 (by omega)

theorem nextMonthly_isSome (h : ShapeOk t) (htype : t.scheduleType = .monthly) (fuel : Nat) :
    nextMonthly (Zone.fixed off hoff) rt t now (fuel + 2) (YearMonth.ofDay (localDay (Zone.fixed off hoff) now)) ≠ none := by
  have hday : localDay (Zone.fixed off hoff) now < monthlyDay t (YearMonth.ofDay (localDay (Zone.fixed off hoff) now)).next := by
    have hmem := (monthlyDay_mem (monthWeekShape h htype) (monthly_set h htype) (YearMonth.ofDay (localDay (Zone.fixed off hoff) now)).next).1
    have hlt := YearMonth.lt_start_next_ofDay (localDay (Zone.fixed off hoff) now)
    omega
  have hle : now ≤ localOccurrence (Zone.fixed off hoff) rt _ := le_of_lt (lt_occurrence hday)
  by_cases hnow : now ≤ localOccurrence (Zone.fixed off hoff) rt (monthlyDay t (YearMonth.ofDay (localDay (Zone.fixed off hoff) now)))
  · simp only [nextMonthly, nextOnDay, hnow, if_true]
    exact Option.some_ne_none _
  · simp only [nextMonthly, nextOnDay, hnow, if_false, hle, if_true]
    exact Option.some_ne_none _

/-! ## The latest occurrence of a calendar schedule -/

theorem mem_instants (htype : t.scheduleType ≠ .interval) {z : Zone} {x : Int} :
    x ∈ Instants z t ↔ ∃ rt day, t.runTime = some rt ∧ OnDate t day ∧ x = localOccurrence z rt day := by
  rw [Instants, if_neg htype]
  exact Iff.rfl

/-- The last date whose time is reached gives the greatest instant that is. -/
theorem isLatestInstant_of (h : ShapeOk t) (htype : t.scheduleType ≠ .interval) (hrt : t.runTime = some rt) {day : Int} (hday : IsLatest (Zone.fixed off hoff) rt t now day) :
    IsLatestInstant (Instants (Zone.fixed off hoff) t) now (some (localOccurrence (Zone.fixed off hoff) rt day)) := by
  refine ⟨⟨(mem_instants htype).2 ⟨rt, day, hrt, (eligible_iff h day).1 hday.eligible, rfl⟩, hday.reached⟩, ?_⟩
  rintro x ⟨hx, hle⟩
  obtain ⟨rt', d, hrt', hd, rfl⟩ := (mem_instants htype).1 hx
  obtain rfl := Option.some.inj (hrt.symm.trans hrt')
  exact occurrence_mono (hday.last d ((eligible_iff h d).2 hd) hle)

/-- Without an answer there is no instant: of a time that is not given, or on dates that are none. -/
theorem none_of_onDate (htype : t.scheduleType ≠ .interval) {z : Zone} (h : ∀ rt, t.runTime = some rt → ∀ day, ¬ OnDate t day) (x : Int) : x ∉ Instants z t := fun hx => by
  obtain ⟨rt, day, hrt, hday, -⟩ := (mem_instants htype).1 hx
  exact h rt hrt day hday

theorem none_of_runTime (htype : t.scheduleType ≠ .interval) (hrt : t.runTime = none) {z : Zone} (x : Int) : x ∉ Instants z t :=
  none_of_onDate htype (fun rt hrt' => by rw [hrt] at hrt'; cases hrt') x

theorem daily_latest (h : ShapeOk t) (htype : t.scheduleType = .daily) :
    IsLatestInstant (Instants (Zone.fixed off hoff) t) now (TecTac.latestOccurrence (Zone.fixed off hoff) t now) := by
  have hne : t.scheduleType ≠ .interval := by rw [htype]; decide
  unfold TecTac.latestOccurrence
  rw [htype]
  cases hrt : t.runTime with
  | none => exact fun x hx => absurd hx (none_of_runTime hne hrt x)
  | some rt =>
    obtain ⟨day, hday, heq⟩ := daily_isLatest htype (clockRegular_fixed off hoff t now rt hrt)
    simp only [Option.map_some, heq]
    exact isLatestInstant_of h hne hrt hday

theorem weekly_latest (h : ShapeOk t) (htype : t.scheduleType = .weekly) :
    IsLatestInstant (Instants (Zone.fixed off hoff) t) now (TecTac.latestOccurrence (Zone.fixed off hoff) t now) := by
  have hne : t.scheduleType ≠ .interval := by rw [htype]; decide
  unfold TecTac.latestOccurrence
  rw [htype]
  cases hrt : t.runTime with
  | none => exact fun x hx => absurd hx (none_of_runTime hne hrt x)
  | some rt =>
    have hnone (hw : ∀ d, weekday d ∉ t.weekdays) (x : Int) : x ∉ Instants (Zone.fixed off hoff) t :=
      none_of_onDate hne (fun _ _ day hday => hw day (by simpa only [OnDate, htype] using hday)) x
    simp only [Option.bind_some]
    split
    · rename_i hnil
      exact fun x hx => absurd hx (hnone (fun d hd => by rw [hnil] at hd; cases hd) x)
    · cases hfind : (List.range 8).findSome? (weeklyCandidate (Zone.fixed off hoff) rt t.weekdays (localDay (Zone.fixed off hoff) now) now) with
      | none => exact fun x hx => absurd hx (hnone (weekly_none hfind) x)
      | some occ =>
        obtain ⟨day, hday, rfl⟩ := weekly_isLatest htype (clockRegular_fixed off hoff t now rt hrt) hfind
        exact isLatestInstant_of h hne hrt hday

theorem monthly_latest (h : ShapeOk t) (htype : t.scheduleType = .monthly) :
    IsLatestInstant (Instants (Zone.fixed off hoff) t) now (TecTac.latestOccurrence (Zone.fixed off hoff) t now) := by
  have hne : t.scheduleType ≠ .interval := by rw [htype]; decide
  unfold TecTac.latestOccurrence
  rw [htype]
  cases hrt : t.runTime with
  | none => exact fun x hx => absurd hx (none_of_runTime hne hrt x)
  | some rt =>
    have hset : (!usesNthWeekday t && t.dayOfMonth.getD 0 == 0) = false := by
      rcases monthly_set h htype with hnth | hdom
      · rw [hnth]; rfl
      · rw [beq_eq_false_iff_ne.2 hdom, Bool.and_false]
    simp only [Option.bind_some, hset, Bool.false_eq_true, if_false]
    cases hfind : monthlyCandidate (Zone.fixed off hoff) rt t now 14 (YearMonth.ofDay (localDay (Zone.fixed off hoff) now)) with
    | none => exact absurd hfind (monthly_isSome h htype 12)
    | some occ =>
      obtain ⟨day, hday, rfl⟩ := monthly_isLatest htype (monthWeekShape h htype) (monthly_set h htype) (clockRegular_fixed off hoff t now rt hrt) hfind
      exact isLatestInstant_of h hne hrt hday

/-! ## The next occurrence of a calendar schedule -/

/-- The first date whose time is not past gives the least instant that is not. -/
theorem isNextInstant_of (h : ShapeOk t) (htype : t.scheduleType ≠ .interval) (hrt : t.runTime = some rt) {day : Int} (hday : Eligible t day)
    (hnow : now ≤ localOccurrence (Zone.fixed off hoff) rt day)
    (hfirst : ∀ d, Eligible t d → localDay (Zone.fixed off hoff) now ≤ d → now ≤ localOccurrence (Zone.fixed off hoff) rt d → day ≤ d) :
    IsNextInstant (Instants (Zone.fixed off hoff) t) now (some (localOccurrence (Zone.fixed off hoff) rt day)) := by
  refine ⟨⟨(mem_instants htype).2 ⟨rt, day, hrt, (eligible_iff h day).1 hday, rfl⟩, hnow⟩, ?_⟩
  rintro x ⟨hx, hle⟩
  obtain ⟨rt', d, hrt', hd, rfl⟩ := (mem_instants htype).1 hx
  obtain rfl := Option.some.inj (hrt.symm.trans hrt')
  refine occurrence_mono (hfirst d ((eligible_iff h d).2 hd) ?_ hle)
  by_contra hlt
  exact absurd (occurrence_lt (not_le.1 hlt)) (not_lt.2 hle)

theorem nextOnDay_eq_some {z : Zone} {day occ : Int} : nextOnDay z rt now day = some occ ↔ occ = localOccurrence z rt day ∧ now ≤ occ := by
  simp only [nextOnDay]
  split
  · rename_i hle
    constructor
    · intro h
      obtain rfl := Option.some.inj h
      exact ⟨rfl, hle⟩
    · rintro ⟨rfl, -⟩
      rfl
  · rename_i hlt
    constructor
    · intro h
      cases h
    · rintro ⟨rfl, hle⟩
      exact absurd hle hlt

/-- The offsets of a search, as integers. -/
theorem findSome?_cast (f : Int → Option Int) (n : Nat) : List.findSome? f (do let a ← List.range n; pure (a : Int)) = (List.range n).findSome? fun k : Nat => f k := by
  have h : (do let a ← List.range n; pure (a : Int)) = (List.range n).map fun k : Nat => (k : Int) := List.map_eq_flatMap.symm
  rw [h, List.findSome?_map]
  rfl

/-- A search along the dates from the current one on, which takes a date where a test allows it. -/
theorem search_next (h : ShapeOk t) (htype : t.scheduleType ≠ .interval) (hrt : t.runTime = some rt) {f : Nat → Option Int} {n : Nat}
    (hf : ∀ k occ, f k = some occ ↔ Eligible t (localDay (Zone.fixed off hoff) now + k) ∧ occ = localOccurrence (Zone.fixed off hoff) rt (localDay (Zone.fixed off hoff) now + k) ∧ now ≤ occ)
    (hnone : (List.range n).findSome? f = none → ∀ d, ¬ Eligible t d) :
    IsNextInstant (Instants (Zone.fixed off hoff) t) now ((List.range n).findSome? f) := by
  cases hfind : (List.range n).findSome? f with
  | none => exact fun x hx => absurd hx (none_of_onDate htype (fun _ _ day hday => hnone hfind day ((eligible_iff h day).2 hday)) x)
  | some occ =>
    obtain ⟨k, -, hk, hbefore⟩ := findSome?_range hfind
    obtain ⟨helig, rfl, hnow⟩ := (hf k occ).1 hk
    refine isNextInstant_of h htype hrt helig hnow fun d hd hday hle => ?_
    by_contra hlt
    -- the loop looked at `d` before it came to the date found
    obtain ⟨j, rfl⟩ : ∃ j : Nat, d = localDay (Zone.fixed off hoff) now + j := ⟨(d - localDay (Zone.fixed off hoff) now).toNat, by omega⟩
    have hj := hbefore j (by omega)
    rw [(hf j _).2 ⟨hd, rfl, hle⟩] at hj
    cases hj

theorem daily_next (h : ShapeOk t) (htype : t.scheduleType = .daily) :
    IsNextInstant (Instants (Zone.fixed off hoff) t) now (TecTac.nextOccurrence (Zone.fixed off hoff) t now) := by
  have hne : t.scheduleType ≠ .interval := by rw [htype]; decide
  have hall (d : Int) : Eligible t d := by simp only [Eligible, htype]
  unfold TecTac.nextOccurrence
  rw [htype]
  cases hrt : t.runTime with
  | none => exact fun x hx => absurd hx (none_of_runTime hne hrt x)
  | some rt =>
    simp only [Option.bind_some]
    rw [findSome?_cast]
    refine search_next h hne hrt (fun k occ => by rw [nextOnDay_eq_some, and_iff_right (hall _)]) fun hnone => ?_
    have hone := List.findSome?_eq_none_iff.1 hnone 1 (by decide)
    have hlt : now < localOccurrence (Zone.fixed off hoff) rt (localDay (Zone.fixed off hoff) now + (1 : Nat)) := lt_occurrence (by omega)
    rw [(nextOnDay_eq_some).2 ⟨rfl, le_of_lt hlt⟩] at hone
    cases hone

theorem weekly_next (h : ShapeOk t) (htype : t.scheduleType = .weekly) :
    IsNextInstant (Instants (Zone.fixed off hoff) t) now (TecTac.nextOccurrence (Zone.fixed off hoff) t now) := by
  have hne : t.scheduleType ≠ .interval := by rw [htype]; decide
  have heligible (d : Int) : Eligible t d ↔ weekday d ∈ t.weekdays := by simp only [Eligible, htype]
  unfold TecTac.nextOccurrence
  rw [htype]
  cases hrt : t.runTime with
  | none => exact fun x hx => absurd hx (none_of_runTime hne hrt x)
  | some rt =>
    have hf (k : Nat) (occ : Int) : (if weekday (localDay (Zone.fixed off hoff) now + k) ∈ t.weekdays then nextOnDay (Zone.fixed off hoff) rt now (localDay (Zone.fixed off hoff) now + k)
        else none) = some occ ↔
        Eligible t (localDay (Zone.fixed off hoff) now + k) ∧ occ = localOccurrence (Zone.fixed off hoff) rt (localDay (Zone.fixed off hoff) now + k) ∧ now ≤ occ := by
      rw [heligible]
      split
      · rename_i hw
        rw [nextOnDay_eq_some, and_iff_right hw]
      · rename_i hw
        exact iff_of_false (fun hnone => by cases hnone) fun hthree => hw hthree.1
    simp only [Option.bind_some]
    rw [findSome?_cast]
    refine search_next h hne hrt hf fun hnone d hd => ?_
    obtain ⟨-, -, -, -, j, hj1, hj8, hj⟩ := exists_offset (localDay (Zone.fixed off hoff) now) (d := d)
    have hat := List.findSome?_eq_none_iff.1 hnone j (List.mem_range.2 hj8)
    have hlt : now < localOccurrence (Zone.fixed off hoff) rt (localDay (Zone.fixed off hoff) now + j) := lt_occurrence (by omega)
    rw [(hf j _).2 ⟨(heligible _).2 (hj ▸ (heligible d).1 hd), rfl, le_of_lt hlt⟩] at hat
    cases hat

theorem monthly_next (h : ShapeOk t) (htype : t.scheduleType = .monthly) :
    IsNextInstant (Instants (Zone.fixed off hoff) t) now (TecTac.nextOccurrence (Zone.fixed off hoff) t now) := by
  have hne : t.scheduleType ≠ .interval := by rw [htype]; decide
  have hshape := monthWeekShape h htype
  have hset := monthly_set h htype
  unfold TecTac.nextOccurrence
  rw [htype]
  cases hrt : t.runTime with
  | none => exact fun x hx => absurd hx (none_of_runTime hne hrt x)
  | some rt =>
    have hguard : (usesNthWeekday t || t.dayOfMonth.getD 0 != 0) = true := by
      rcases hset with hnth | hdom
      · rw [hnth]; rfl
      · rw [bne_iff_ne.2 hdom, Bool.or_true]
    simp only [Option.bind_some, hguard, if_true]
    cases hfind : nextMonthly (Zone.fixed off hoff) rt t now 14 (YearMonth.ofDay (localDay (Zone.fixed off hoff) now)) with
    | none => exact absurd hfind (nextMonthly_isSome h htype 12)
    | some occ =>
      obtain ⟨month, hidx, rfl, hnow, hbetween⟩ := nextMonthly_eq_some hfind
      have helig : Eligible t (monthlyDay t month) := by
        simp only [Eligible, htype]
        rw [ofDay_monthlyDay hshape hset]
      refine isNextInstant_of h hne hrt helig hnow fun d hd hday hle => ?_
      have hd' : d = monthlyDay t (YearMonth.ofDay d) := by simpa only [Eligible, htype] using hd
      by_contra hlt
      -- the month of `d` lies before the month found and not before the current one, so the loop looked at it and passed on
      have hbefore : (YearMonth.ofDay d).index < month.index := by
        by_contra hge
        rcases lt_or_eq_of_le (not_lt.1 hge) with hgt | heq
        · have h1 := YearMonth.start_next_le _ _ hgt
          have h2 := YearMonth.start_ofDay_le d
          have h3 := (monthlyDay_mem hshape hset month).2
          rw [YearMonth.start_next] at h1
          omega
        · rw [← YearMonth.index_inj heq] at hd'
          omega
      have hpast := hbetween _ hbefore (YearMonth.index_ofDay_mono hday)
      rw [← hd'] at hpast
      omega

end

/-! ## Intervals -/

section

variable {t : Timing} {z : Zone} {anchor : Int} {secs : Nat} {now : Int}

theorem mem_interval (htype : t.scheduleType = .interval) (hanchor : t.intervalAnchorAt = some anchor) (hsecs : t.intervalSeconds = some secs) {x : Int} :
    x ∈ Instants z t ↔ ∃ k : Nat, x = anchor + k * seconds secs := by
  rw [Instants, if_pos htype]
  constructor
  · rintro ⟨anchor', secs', hanchor', hsecs', hk⟩
    obtain rfl := Option.some.inj (hanchor.symm.trans hanchor')
    obtain rfl := Option.some.inj (hsecs.symm.trans hsecs')
    exact hk
  · exact fun hk => ⟨anchor, secs, hanchor, hsecs, hk⟩

theorem interval_none (htype : t.scheduleType = .interval) (h : t.intervalAnchorAt = none ∨ t.intervalSeconds = none) (x : Int) : x ∉ Instants z t := fun hx => by
  rw [Instants, if_pos htype] at hx
  obtain ⟨anchor, secs, hanchor, hsecs, -⟩ := hx
  rcases h with h | h
  · rw [h] at hanchor
    cases hanchor
  · rw [h] at hsecs
    cases hsecs

/-- With the exact division, the multiple that is reached is the greatest instant that is. -/
theorem interval_latest (h : ShapeOk t) (htype : t.scheduleType = .interval) : IsLatestInstant (Instants z t) now (TecTac.intervalOccurrence t now) := by
  unfold TecTac.intervalOccurrence
  cases hanchor : t.intervalAnchorAt with
  | none => exact fun x hx => absurd hx (interval_none htype (Or.inl hanchor) x)
  | some anchor =>
    cases hsecs : t.intervalSeconds with
    | none => exact fun x hx => absurd hx (interval_none htype (Or.inr hsecs) x)
    | some secs =>
      have hmin := h.interval htype secs hsecs
      have hpos : 0 < seconds secs := by
        unfold minIntervalSeconds at hmin
        unfold seconds
        omega
      simp only
      rw [if_neg (by unfold minIntervalSeconds at hmin; omega)]
      split
      · rename_i hlt
        intro x hx hle
        obtain ⟨k, rfl⟩ := (mem_interval htype hanchor hsecs).1 hx
        have := Int.mul_nonneg (Int.natCast_nonneg k) hpos.le
        omega
      · rename_i hge
        have hmod := Int.emod_nonneg (now - anchor) hpos.ne'
        have hlt := Int.emod_lt_of_pos (now - anchor) hpos
        have hsum := Int.mul_ediv_add_emod (now - anchor) (seconds secs)
        have hquot : 0 ≤ (now - anchor) / seconds secs := Int.ediv_nonneg (by omega) hpos.le
        rw [Int.mul_comm] at hsum
        refine ⟨⟨(mem_interval htype hanchor hsecs).2 ⟨((now - anchor) / seconds secs).toNat, by rw [Int.toNat_of_nonneg hquot]⟩, by omega⟩, ?_⟩
        rintro x ⟨hx, hle⟩
        obtain ⟨k, rfl⟩ := (mem_interval htype hanchor hsecs).1 hx
        have hk : (k : Int) ≤ (now - anchor) / seconds secs := (Int.le_ediv_iff_mul_le hpos).2 (by omega)
        have := Int.mul_le_mul_of_nonneg_right hk hpos.le
        omega

/-- With the exact division, the multiple that is found is the least instant that is not past. -/
theorem interval_next (h : ShapeOk t) (htype : t.scheduleType = .interval) : IsNextInstant (Instants z t) now (TecTac.nextInterval t now) := by
  unfold TecTac.nextInterval
  cases hanchor : t.intervalAnchorAt with
  | none => exact fun x hx => absurd hx (interval_none htype (Or.inl hanchor) x)
  | some anchor =>
    cases hsecs : t.intervalSeconds with
    | none => exact fun x hx => absurd hx (interval_none htype (Or.inr hsecs) x)
    | some secs =>
      have hmin := h.interval htype secs hsecs
      have hpos : 0 < seconds secs := by
        unfold minIntervalSeconds at hmin
        unfold seconds
        omega
      simp only
      rw [if_neg (by unfold minIntervalSeconds at hmin; omega), if_neg (by omega)]
      split
      · rename_i hle
        refine ⟨⟨(mem_interval htype hanchor hsecs).2 ⟨0, by simp⟩, hle⟩, ?_⟩
        rintro x ⟨hx, -⟩
        obtain ⟨k, rfl⟩ := (mem_interval htype hanchor hsecs).1 hx
        have := Int.mul_nonneg (Int.natCast_nonneg k) hpos.le
        omega
      · rename_i hgt
        have hmod := Int.emod_nonneg (now - anchor) hpos.ne'
        have hlt := Int.emod_lt_of_pos (now - anchor) hpos
        have hsum := Int.mul_ediv_add_emod (now - anchor) (seconds secs)
        have hquot : 0 ≤ (now - anchor) / seconds secs := Int.ediv_nonneg (by omega) hpos.le
        rw [Int.mul_comm] at hsum
        have hmul (k : Nat) (hk : now ≤ anchor + k * seconds secs) : now - anchor ≤ k * seconds secs := by omega
        split
        · rename_i hbefore
          refine ⟨⟨(mem_interval htype hanchor hsecs).2 ⟨((now - anchor) / seconds secs).toNat + 1, by push_cast; rw [Int.toNat_of_nonneg hquot]; ring⟩, by omega⟩, ?_⟩
          rintro x ⟨hx, hle⟩
          obtain ⟨k, rfl⟩ := (mem_interval htype hanchor hsecs).1 hx
          have hk : (now - anchor) / seconds secs < k := by
            by_contra hge
            have := Int.mul_le_mul_of_nonneg_right (not_lt.1 hge) hpos.le
            omega
          have := Int.mul_le_mul_of_nonneg_right (Int.add_one_le_of_lt hk) hpos.le
          rw [Int.add_mul, Int.one_mul] at this
          omega
        · rename_i hreached
          refine ⟨⟨(mem_interval htype hanchor hsecs).2 ⟨((now - anchor) / seconds secs).toNat, by rw [Int.toNat_of_nonneg hquot]⟩, by omega⟩, ?_⟩
          rintro x ⟨hx, hle⟩
          obtain ⟨k, rfl⟩ := (mem_interval htype hanchor hsecs).1 hx
          omega

/-- Where the float reaches the next multiple, the latest occurrence is past the moment. -/
theorem lt_of_not_below (hanchor : t.intervalAnchorAt = some anchor) (hsecs : t.intervalSeconds = some secs) (hmin : minIntervalSeconds ≤ secs) (hle : anchor ≤ now)
    (h : ¬ BelowNext (now - anchor).toNat secs) : ∃ occ, intervalOccurrence t now = some occ ∧ now < occ := by
  have hpos : 0 < secs := Nat.lt_of_lt_of_le (by decide) hmin
  refine ⟨anchor + seconds (steps (now - anchor).toNat secs * secs), ?_, ?_⟩
  · unfold intervalOccurrence
    rw [hanchor, hsecs]
    simp only
    rw [if_neg (by omega), if_neg (by omega)]
  · have hsteps := Nat.mul_le_mul_right secs (lt_steps_of_not_below hpos h)
    have hnext : (now - anchor).toNat < ((now - anchor).toNat / (1000000 * secs) + 1) * (1000000 * secs) := by
      rw [Nat.mul_comm]
      exact Nat.lt_mul_div_succ _ (Nat.mul_pos (by decide) hpos)
    have hscale : ((now - anchor).toNat / (1000000 * secs) + 1) * (1000000 * secs) = ((now - anchor).toNat / (1000000 * secs) + 1) * secs * 1000000 := by ring
    unfold seconds
    have hnat : ((now - anchor).toNat : Int) = now - anchor := Int.toNat_of_nonneg (by omega)
    have hfinal : (now - anchor).toNat < steps (now - anchor).toNat secs * secs * 1000000 := by omega
    have := Int.ofNat_lt.2 hfinal
    push_cast at this
    omega

end

end NearAux

open NearAux

namespace NearAux

/-- Every minute from 1 February 1482, 22:06 on. -/
def sampleInterval : Timing := { scheduleType := .interval, intervalSeconds := some 60, intervalAnchorAt := some (-15397005240000000) }

theorem shapeOk_sample : ShapeOk sampleInterval :=
  ⟨by decide, (fun h => by cases h), fun _ _ hsecs => Nat.le_of_eq (Option.some.inj hsecs)⟩

/-- The last microsecond before 1 July 2026. -/
def sampleNow : Int := 1782863999999999

end NearAux

end Elapsed

end TecTac
