import TecTac.EligibleDate

/-!
# The elapsed seconds of an interval

The interval branches of `latest_occurrence` and `next_occurrence` divide `total_seconds()`, which is a float. Here the division is done as it is there: the elapsed time is rounded to the
nearest float first, and the quotient of two floats is exact. `intervalOccurrence` and `nextInterval` divide exactly; the two agree where the float stays below the next multiple of the
interval, which it does within 2^34 seconds of the anchor.
-/

namespace TecTac

namespace Elapsed

/-- `n / d`, rounded to the nearest integer, and to the even one of two. -/
def roundHalfEven (n d : Nat) : Nat :=
  if 2 * (n % d) < d then n / d
  else if d < 2 * (n % d) then n / d + 1
  else if n / d % 2 = 0 then n / d
  else n / d + 1

/-- How many binary digits behind the point the float of a time has, which is given in microseconds and read in seconds: it has 53 digits in all. -/
def precision (micros : Nat) : Nat := 112 - Nat.log2 (micros * 2 ^ 60 / 1000000)

/-- `total_seconds()`, counted in the last of these digits. -/
def totalSeconds (micros : Nat) : Nat := roundHalfEven (micros * 2 ^ precision micros) 1000000

/-- `int(elapsed // seconds)`. -/
def steps (micros secs : Nat) : Nat := totalSeconds micros / (secs * 2 ^ precision micros)

/-- The interval branch of `latest_occurrence`. -/
def intervalOccurrence (t : Timing) (now : Int) : Option Int :=
  match t.intervalAnchorAt, t.intervalSeconds with
  | some anchor, some secs =>
    if secs = 0 then none
    else if secs < minIntervalSeconds ∨ now < anchor then none
    else some (anchor + seconds (steps (now - anchor).toNat secs * secs))
  | _, _ => none

/-- The interval branch of `next_occurrence`. -/
def nextInterval (t : Timing) (now : Int) : Option Int :=
  match t.intervalAnchorAt, t.intervalSeconds with
  | some anchor, some secs =>
    if secs = 0 then none
    else if secs < minIntervalSeconds then none
    else if now ≤ anchor then some anchor
    else
      let candidate := anchor + seconds (steps (now - anchor).toNat secs * secs)
      some (if candidate < now then candidate + seconds secs else candidate)
  | _, _ => none

/-- `latest_occurrence`. -/
def latestOccurrence (z : Zone) (t : Timing) (now : Int) : Option Int :=
  if t.scheduleType = .interval then intervalOccurrence t now else TecTac.latestOccurrence z t now

/-- `next_occurrence`. -/
def nextOccurrence (z : Zone) (t : Timing) (now : Int) : Option Int :=
  if t.scheduleType = .interval then nextInterval t now else TecTac.nextOccurrence z t now

/-- The float of the elapsed time is below the next multiple of the interval. -/
def BelowNext (micros secs : Nat) : Prop := totalSeconds micros < (micros / (1000000 * secs) + 1) * (secs * 2 ^ precision micros)

instance (micros secs : Nat) : Decidable (BelowNext micros secs) := by
  unfold BelowNext
  infer_instance

/-! ## Rounding -/

theorem le_roundHalfEven (n d : Nat) : n / d ≤ roundHalfEven n d := by
  unfold roundHalfEven
  split
  · exact Nat.le_refl _
  split
  · exact Nat.le_succ _
  split
  · exact Nat.le_refl _
  · exact Nat.le_succ _

/-- Rounding adds half of the divisor at most. -/
theorem roundHalfEven_mul_le (n : Nat) {d : Nat} (hd : 0 < d) : 2 * (roundHalfEven n d * d) ≤ 2 * n + d := by
  have hsum := Nat.div_add_mod n d
  have hlt := Nat.mod_lt n hd
  rw [Nat.mul_comm] at hsum
  unfold roundHalfEven
  split
  · omega
  split
  · rw [Nat.add_mul, Nat.one_mul]
    omega
  split
  · omega
  · rw [Nat.add_mul, Nat.one_mul]
    omega

/-- The float is no less than the multiple of the interval that is reached. -/
theorem reached_le_totalSeconds (micros secs : Nat) : micros / (1000000 * secs) * (secs * 2 ^ precision micros) ≤ totalSeconds micros := by
  refine Nat.le_trans ?_ (le_roundHalfEven _ _)
  rw [Nat.le_div_iff_mul_le (by decide)]
  calc micros / (1000000 * secs) * (secs * 2 ^ precision micros) * 1000000
      = micros / (1000000 * secs) * (1000000 * secs) * 2 ^ precision micros := by ring
    _ ≤ micros * 2 ^ precision micros := Nat.mul_le_mul_right _ (Nat.div_mul_le_self _ _)

/-- The steps are those of the exact division exactly where the float is below the next multiple; elsewhere they are more. -/
theorem steps_eq_iff {micros secs : Nat} (hsecs : 0 < secs) : steps micros secs = micros / (1000000 * secs) ↔ BelowNext micros secs := by
  have hpos : 0 < secs * 2 ^ precision micros := Nat.mul_pos hsecs (Nat.two_pow_pos _)
  rw [steps, Nat.div_eq_iff hpos, BelowNext]
  have hle := reached_le_totalSeconds micros secs
  have hsucc := Nat.succ_mul (micros / (1000000 * secs)) (secs * 2 ^ precision micros)
  rw [Nat.succ_eq_add_one] at hsucc
  constructor
  · intro h
    omega
  · intro h
    omega

theorem lt_steps_of_not_below {micros secs : Nat} (hsecs : 0 < secs) (h : ¬ BelowNext micros secs) : micros / (1000000 * secs) + 1 ≤ steps micros secs := by
  rw [steps, Nat.le_div_iff_mul_le (Nat.mul_pos hsecs (Nat.two_pow_pos _))]
  exact Nat.not_lt.1 h

/-- Within 2^34 seconds the float has a digit for each microsecond. -/
theorem belowNext_of_lt {micros secs : Nat} (hsecs : 0 < secs) (h : micros < 2 ^ 34 * 1000000) : BelowNext micros secs := by
  have hlog : Nat.log2 (micros * 2 ^ 60 / 1000000) < 94 := by
    rcases Nat.eq_zero_or_pos (micros * 2 ^ 60 / 1000000) with h0 | hpos
    · rw [h0]
      decide
    · refine (Nat.log2_lt (Nat.pos_iff_ne_zero.1 hpos)).2 ?_
      rw [Nat.div_lt_iff_lt_mul (by decide)]
      omega
  have hprecision : 2 ^ 19 ≤ 2 ^ precision micros := Nat.pow_le_pow_right (by decide) (by unfold precision; omega)
  have hround := roundHalfEven_mul_le (micros * 2 ^ precision micros) (show 0 < 1000000 by decide)
  have hnext : (micros + 1) * 2 ^ precision micros ≤ (micros / (1000000 * secs) + 1) * (secs * 2 ^ precision micros) * 1000000 := by
    have hlt : micros < (micros / (1000000 * secs) + 1) * (1000000 * secs) := by
      rw [Nat.mul_comm]
      exact Nat.lt_mul_div_succ micros (Nat.mul_pos (by decide) hsecs)
    calc (micros + 1) * 2 ^ precision micros
        ≤ (micros / (1000000 * secs) + 1) * (1000000 * secs) * 2 ^ precision micros := Nat.mul_le_mul_right _ hlt
      _ = (micros / (1000000 * secs) + 1) * (secs * 2 ^ precision micros) * 1000000 := by ring
  rw [Nat.add_mul, Nat.one_mul] at hnext
  unfold BelowNext totalSeconds
  by_contra hge
  have hmul := Nat.mul_le_mul_right 1000000 (Nat.not_lt.1 hge)
  omega

/-! ## The exact division -/

theorem micros_steps {anchor now : Int} {secs : Nat} (hsecs : 0 < secs) (hle : anchor ≤ now) (h : BelowNext (now - anchor).toNat secs) :
    seconds (steps (now - anchor).toNat secs * secs) = (now - anchor) / seconds secs * seconds secs := by
  rw [(steps_eq_iff hsecs).2 h]
  have hnat : ((now - anchor).toNat : Int) = now - anchor := Int.toNat_of_nonneg (by omega)
  have hdiv : (((now - anchor).toNat / (1000000 * secs) : Nat) : Int) = (now - anchor) / seconds secs := by
    rw [Int.natCast_ediv, hnat, seconds]
    congr 1
    push_cast
    ring
  rw [hdiv]
  unfold seconds
  ring

/-- Where the float stays below the next multiple, both branches are those with the exact division. -/
theorem intervalOccurrence_eq {t : Timing} {now : Int}
    (h : ∀ anchor secs, t.intervalAnchorAt = some anchor → t.intervalSeconds = some secs → anchor ≤ now → 0 < secs → BelowNext (now - anchor).toNat secs) :
    intervalOccurrence t now = TecTac.intervalOccurrence t now := by
  unfold intervalOccurrence TecTac.intervalOccurrence
  cases hanchor : t.intervalAnchorAt with
  | none => rfl
  | some anchor =>
    cases hsecs : t.intervalSeconds with
    | none => rfl
    | some secs =>
      simp only
      split
      · rfl
      split
      · rfl
      · rename_i h0 hlt
        rw [micros_steps (by omega) (by omega) (h anchor secs hanchor hsecs (by omega) (by omega))]

theorem nextInterval_eq {t : Timing} {now : Int}
    (h : ∀ anchor secs, t.intervalAnchorAt = some anchor → t.intervalSeconds = some secs → anchor ≤ now → 0 < secs → BelowNext (now - anchor).toNat secs) :
    nextInterval t now = TecTac.nextInterval t now := by
  unfold nextInterval TecTac.nextInterval
  cases hanchor : t.intervalAnchorAt with
  | none => rfl
  | some anchor =>
    cases hsecs : t.intervalSeconds with
    | none => rfl
    | some secs =>
      simp only
      split
      · rfl
      split
      · rfl
      split
      · rfl
      · rename_i h0 hmin hlt
        rw [micros_steps (by omega) (by omega) (h anchor secs hanchor hsecs (by omega) (by omega))]

end Elapsed

end TecTac
