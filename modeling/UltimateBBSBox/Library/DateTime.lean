import Mathlib.Data.Rat.Floor
import Mathlib.Data.Int.Log
import Mathlib.Tactic.Linarith

/-!
# Timezone-aware datetimes of bounded range

A datetime is the reading of a wall clock, in microseconds since midnight of
the first day of year 1, together with the offset of that clock from UTC.
Readings run through year 9999; arithmetic that leaves the range overflows
(`none`).  Datetimes compare by the instant they denote, whatever their
offsets.
-/

/-- Microseconds of a second. -/
def microsPerSecond : ℤ := 1000000

/-- Microseconds of a day. -/
def microsPerDay : ℤ := 86400000000

/-- Years 1 to 9999 have this many microseconds. -/
def maxWall : ℤ := 3652059 * microsPerDay

/-- Round to the nearest integer, halves to the even one. -/
def roundHalfEven (q : ℚ) : ℤ :=
  let rest := q - ⌊q⌋
  if rest < 1 / 2 then ⌊q⌋
  else if 1 / 2 < rest then ⌊q⌋ + 1
  else if ⌊q⌋ % 2 = 0 then ⌊q⌋ else ⌊q⌋ + 1

/-- A duration of that many seconds, in whole microseconds; `none` beyond the
billion days a duration can have. -/
def timedelta (seconds : ℚ) : Option ℤ :=
  let micros := roundHalfEven (seconds * 1000000)
  if -999999999 ≤ micros / microsPerDay ∧ micros / microsPerDay ≤ 999999999 then some micros
  else none

theorem roundHalfEven_intCast (n : ℤ) : roundHalfEven n = n := by
  simp [roundHalfEven]

theorem roundHalfEven_seconds (seconds : ℕ) :
    roundHalfEven ((seconds : ℚ) * 1000000) = seconds * microsPerSecond := by
  rw [show (seconds : ℚ) * 1000000 = ((seconds * microsPerSecond : ℤ) : ℚ) by
    simp [microsPerSecond]]
  exact roundHalfEven_intCast _

/-- A whole number of seconds is that many seconds, as long as it is a duration at all. -/
theorem timedelta_natCast_eq_some {seconds : ℕ} {micros : ℤ}
    (h : timedelta seconds = some micros) : micros = seconds * microsPerSecond := by
  unfold timedelta at h
  simp only [roundHalfEven_seconds] at h
  split at h
  · rwa [Option.some.injEq, eq_comm] at h
  · cases h

theorem timedelta_natCast_eq_none {seconds : ℕ} (h : timedelta seconds = none) :
    999999999 < seconds * microsPerSecond / microsPerDay := by
  unfold timedelta at h
  simp only [roundHalfEven_seconds] at h
  split at h
  · cases h
  · rename_i hlong
    have hnonneg : 0 ≤ seconds * microsPerSecond / microsPerDay := by
      unfold microsPerSecond microsPerDay
      omega
    omega

/-- A wall-clock reading and its offset from UTC. -/
structure DateTime where
  wall : ℤ
  offset : ℤ
  inRange : 0 ≤ wall ∧ wall < maxWall
deriving DecidableEq

namespace DateTime

/-- The instant a datetime denotes: what comparisons compare. -/
def instant (t : DateTime) : ℤ := t.wall - t.offset

/-- UTC, that many seconds after the first midnight, as far as the calendar goes. -/
def ofSeconds (seconds : ℕ) : DateTime where
  wall := seconds * microsPerSecond % maxWall
  offset := 0
  inRange := ⟨Int.emod_nonneg _ (by decide), Int.emod_lt_of_pos _ (by decide)⟩

/-- `t + d`, on the wall clock of `t`; `none` out of range. -/
def add (t : DateTime) (d : ℤ) : Option DateTime :=
  if h : 0 ≤ t.wall + d ∧ t.wall + d < maxWall then some ⟨t.wall + d, t.offset, h⟩ else none

theorem instant_of_add_eq_some {t u : DateTime} {d : ℤ} (h : t.add d = some u) :
    u.instant = t.instant + d := by
  unfold add at h
  split at h
  · rw [Option.some.injEq] at h
    subst h
    simp only [instant]
    omega
  · exact absurd h (by simp)

/-- Whole seconds later is out of range exactly when the wall clock leaves the
calendar; a duration that is too long always leaves it. -/
theorem bind_add_eq_none_iff {t : DateTime} {seconds : ℕ} :
    (timedelta seconds).bind t.add = none ↔ maxWall ≤ t.wall + seconds * microsPerSecond := by
  have hwall := t.inRange
  cases h : timedelta seconds with
  | none =>
      refine iff_of_true rfl ?_
      have hlong := timedelta_natCast_eq_none h
      unfold maxWall microsPerDay microsPerSecond at *
      omega
  | some micros =>
      rw [timedelta_natCast_eq_some h, Option.bind_some, add]
      split
      · rename_i hin
        exact iff_of_false (by simp) (not_le.mpr hin.2)
      · rename_i hout
        refine iff_of_true rfl ?_
        by_contra hlt
        refine hout ⟨?_, not_le.mp hlt⟩
        have : 0 ≤ (seconds : ℤ) * microsPerSecond := by unfold microsPerSecond; omega
        omega

end DateTime
