import Mathlib

/-!
# Time zones as lists of transitions

A zone is the offset it starts with and the moments its offset changes, as a compiled time zone file holds them. A
moment is microseconds since 1 January 1970 in UTC; a wall time is what a clock in the zone shows, counted the same way.
Reading the clock (`toWall`) uses the offset in force at the moment. Resolving a wall time (`ofWall`) follows the rule
for `fold = 0`: a wall time that a forward change skips, or that a backward change repeats, is read with the offset from
before the change, so a change takes effect on wall times from its moment plus the greater of the two offsets on.
-/

/-- A day, in microseconds. -/
def dayMicros : Int := 86400000000

/-- The wall times from which on each change is in effect, for a zone that starts with the offset `off`. -/
def wallThresholds : Int → List (Int × Int) → List Int
  | _, [] => []
  | off, (u, o) :: rest => (u + max off o) :: wallThresholds o rest

/-- A time zone: the offset before the first change, and for each change its moment and the offset from then on. The
changes are in order, on the UTC line and on the wall, and no offset reaches a day. -/
structure Zone where
  initial : Int
  transitions : List (Int × Int)
  sorted : (transitions.map Prod.fst).Pairwise (· < ·)
  wallSorted : (wallThresholds initial transitions).Pairwise (· ≤ ·)
  bounded : ∀ o ∈ initial :: transitions.map Prod.snd, -dayMicros < o ∧ o < dayMicros

namespace Zone

/-- The offset in force at moment `t`, starting from the offset `off`. -/
def offsetFrom : Int → List (Int × Int) → Int → Int
  | off, [], _ => off
  | off, (u, o) :: rest, t => if t < u then off else offsetFrom o rest t

/-- The offset a wall time `w` is read with, starting from the offset `off`. -/
def wallOffsetFrom : Int → List (Int × Int) → Int → Int
  | off, [], _ => off
  | off, (u, o) :: rest, w => if w < u + max off o then off else wallOffsetFrom o rest w

/-- The offset in force at a moment. -/
def offsetAt (z : Zone) (t : Int) : Int := offsetFrom z.initial z.transitions t

/-- What a clock in the zone shows. -/
def toWall (z : Zone) (t : Int) : Int := t + z.offsetAt t

/-- The moment of a wall time. -/
def ofWall (z : Zone) (w : Int) : Int := w - wallOffsetFrom z.initial z.transitions w

/-- The zone with one offset for ever. -/
def fixed (off : Int) (h : -dayMicros < off ∧ off < dayMicros) : Zone where
  initial := off
  transitions := []
  sorted := by simp
  wallSorted := by simp [wallThresholds]
  bounded := by simpa using h

theorem utc_bounded : -dayMicros < 0 ∧ 0 < dayMicros := by decide

@[simp] theorem toWall_fixed (off : Int) (h) (t : Int) : (fixed off h).toWall t = t + off := rfl

@[simp] theorem ofWall_fixed (off : Int) (h) (w : Int) : (fixed off h).ofWall w = w - off := rfl

end Zone
