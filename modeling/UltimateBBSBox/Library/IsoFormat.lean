import Mathlib.Data.Nat.Find
import Mathlib.Data.String.Basic
import Mathlib.Tactic.IntervalCases
import Mathlib.Tactic.NormNum
import UltimateBBSBox.Library.DateTime

/-!
# The text of a datetime

`isoformat` writes a datetime as calendar date, time of day and offset from UTC;
the fraction of the second is left out when it is zero.

At one offset the order of the texts is the order of the instants
(`isoformat_lt_iff`): every component has a fixed width, and a text without a
fraction continues with a sign, which sorts before the point of a fraction.
-/

/-! ## Texts that start with parts of one length -/

section Append

variable {a a' b b' : List Char}

theorem List.append_lt_append_of_lt (hlen : a.length = a'.length) (h : a < a') :
    a ++ b < a' ++ b' := by
  induction a generalizing a' with
  | nil =>
      rw [List.length_nil] at hlen
      rw [List.eq_nil_of_length_eq_zero hlen.symm] at h
      exact absurd h (lt_irrefl _)
  | cons x xs ih =>
      cases a' with
      | nil => simp at hlen
      | cons y ys =>
          rw [List.cons_append, List.cons_append, List.cons_lt_cons_iff]
          rcases List.cons_lt_cons_iff.mp h with hxy | ⟨rfl, htail⟩
          · exact .inl hxy
          · exact .inr ⟨rfl, ih (by simpa using hlen) htail⟩

/-- The first part decides, and the rest where the first parts are equal. -/
theorem List.append_lt_append_of_parts (hlen : a.length = a'.length)
    (h : a < a' ∨ a = a' ∧ b < b') : a ++ b < a' ++ b' := by
  rcases h with h | ⟨rfl, h⟩
  · exact List.append_lt_append_of_lt hlen h
  · exact List.append_left_lt h

end Append

/-! ## Decimal numbers of a fixed width -/

/-- The last `width` decimal digits of a number. -/
def padded : ℕ → ℕ → List Char
  | 0, _ => []
  | width + 1, n => padded width (n / 10) ++ [Nat.digitChar (n % 10)]

@[simp] theorem length_padded (width n : ℕ) : (padded width n).length = width := by
  induction width generalizing n with
  | zero => rfl
  | succ width ih => simp [padded, ih]

theorem digitChar_lt {d d' : ℕ} (h : d < d') (h' : d' < 10) :
    Nat.digitChar d < Nat.digitChar d' := by
  interval_cases d' <;> interval_cases d <;> decide

/-- Numbers that fit are ordered as their digits. -/
theorem padded_lt_padded {width n n' : ℕ} (h : n < n') (hfits : n' < 10 ^ width) :
    padded width n < padded width n' := by
  induction width generalizing n n' with
  | zero => simp at hfits; omega
  | succ width ih =>
      rw [pow_succ] at hfits
      refine List.append_lt_append_of_parts (by simp) ?_
      rcases lt_or_ge (n / 10) (n' / 10) with hlt | hge
      · exact .inl (ih hlt (by omega))
      · have heq : n / 10 = n' / 10 := le_antisymm (Nat.div_le_div_right h.le) hge
        refine .inr ⟨by rw [heq], ?_⟩
        rw [List.cons_lt_cons_iff]
        exact .inl (digitChar_lt (by omega) (by omega))

/-! ## The calendar -/

/-- Whether a year has a 29th of February. -/
def isLeap (year : ℕ) : Bool := year % 4 = 0 && (year % 100 ≠ 0 || year % 400 = 0)

/-- The days of the first `n` years. -/
def daysBeforeYear (n : ℕ) : ℕ := n * 365 + n / 4 - n / 100 + n / 400

/-- The days of a year before its month of that index. -/
def daysBeforeMonth (leap : Bool) (index : ℕ) : ℕ :=
  [0, 31, 59, 90, 120, 151, 181, 212, 243, 273, 304, 334].getD index 0 +
    if leap ∧ 2 ≤ index then 1 else 0

/-- The full years before a day, counted from the first day of year 1. -/
def fullYears (day : ℕ) : ℕ := Nat.findGreatest (fun n => daysBeforeYear n ≤ day) (day / 365)

/-- The days of its year before a day. -/
def dayOfYear (day : ℕ) : ℕ := day - daysBeforeYear (fullYears day)

/-- The full months of its year before a day. -/
def fullMonths (day : ℕ) : ℕ :=
  Nat.findGreatest
    (fun index => daysBeforeMonth (isLeap (fullYears day + 1)) index ≤ dayOfYear day) 11

/-- The days of its month before a day. -/
def dayOfMonth (day : ℕ) : ℕ :=
  dayOfYear day - daysBeforeMonth (isLeap (fullYears day + 1)) (fullMonths day)

theorem daysBeforeYear_fullYears_le (day : ℕ) : daysBeforeYear (fullYears day) ≤ day :=
  Nat.findGreatest_spec (P := fun n => daysBeforeYear n ≤ day) (Nat.zero_le _) (by
    simp [daysBeforeYear])

theorem lt_daysBeforeYear_succ_fullYears (day : ℕ) : day < daysBeforeYear (fullYears day + 1) := by
  by_contra hle
  rw [not_lt] at hle
  have hbound : fullYears day + 1 ≤ day / 365 := by
    rw [Nat.le_div_iff_mul_le (by norm_num)]
    unfold daysBeforeYear at hle
    omega
  exact Nat.findGreatest_is_greatest (P := fun n => daysBeforeYear n ≤ day) (Nat.lt_succ_self _)
    hbound hle

theorem dayOfYear_lt (day : ℕ) : dayOfYear day < 366 := by
  have h := lt_daysBeforeYear_succ_fullYears day
  unfold dayOfYear daysBeforeYear at *
  omega

theorem fullYears_lt {day : ℕ} (h : day < 3652059) : fullYears day < 9999 := by
  by_contra hge
  have hle := daysBeforeYear_fullYears_le day
  unfold daysBeforeYear at hle
  omega

theorem fullYears_mono {day day' : ℕ} (h : day ≤ day') : fullYears day ≤ fullYears day' :=
  Nat.findGreatest_mono (fun _ hn => le_trans hn h) (Nat.div_le_div_right h)

theorem fullMonths_le (day : ℕ) : fullMonths day ≤ 11 := Nat.findGreatest_le 11

theorem daysBeforeMonth_fullMonths_le (day : ℕ) :
    daysBeforeMonth (isLeap (fullYears day + 1)) (fullMonths day) ≤ dayOfYear day :=
  Nat.findGreatest_spec
    (P := fun index => daysBeforeMonth (isLeap (fullYears day + 1)) index ≤ dayOfYear day)
    (Nat.zero_le _) (by simp [daysBeforeMonth])

theorem dayOfMonth_lt (day : ℕ) : dayOfMonth day < 32 := by
  have hyear := dayOfYear_lt day
  have hmonths := fullMonths_le day
  have hnext : fullMonths day < 11 →
      dayOfYear day < daysBeforeMonth (isLeap (fullYears day + 1)) (fullMonths day + 1) := by
    intro hlt
    by_contra hle
    exact Nat.findGreatest_is_greatest
      (P := fun index => daysBeforeMonth (isLeap (fullYears day + 1)) index ≤ dayOfYear day)
      (Nat.lt_succ_self _) hlt (not_lt.mp hle)
  unfold dayOfMonth
  generalize fullMonths day = index at *
  generalize isLeap (fullYears day + 1) = leap at *
  interval_cases index <;> cases leap <;> simp [daysBeforeMonth] at hnext ⊢ <;> omega

/-- Within a year the months grow with the days. -/
theorem fullMonths_mono {day day' : ℕ} (hyear : fullYears day = fullYears day') (h : day ≤ day') :
    fullMonths day ≤ fullMonths day' := by
  have hday : dayOfYear day ≤ dayOfYear day' := by
    unfold dayOfYear
    rw [hyear]
    exact Nat.sub_le_sub_right h _
  unfold fullMonths
  rw [hyear]
  exact Nat.findGreatest_mono_left (fun _ hn => le_trans hn hday) 11

/-- `YYYY-MM-DD`. -/
def dateText (day : ℕ) : List Char :=
  padded 4 (fullYears day + 1) ++ ('-' :: padded 2 (fullMonths day + 1)) ++
    ('-' :: padded 2 (dayOfMonth day + 1))

@[simp] theorem length_dateText (day : ℕ) : (dateText day).length = 10 := by simp [dateText]

/-- Days are ordered as their dates. -/
theorem dateText_lt {day day' : ℕ} (h : day < day') (hrange : day' < 3652059) :
    dateText day < dateText day' := by
  unfold dateText
  have hyears := fullYears_lt hrange
  refine List.append_lt_append_of_parts (by simp) ?_
  rcases (fullYears_mono h.le).lt_or_eq with hyear | hyear
  · left
    refine List.append_lt_append_of_lt (by simp) (padded_lt_padded ?_ ?_)
    · omega
    · omega
  · have hbound := fullMonths_le day'
    rcases (fullMonths_mono hyear h.le).lt_or_eq with hmonth | hmonth
    · left
      rw [hyear]
      refine List.append_left_lt (List.cons_lt_cons_iff.mpr (.inr ⟨rfl, ?_⟩))
      exact padded_lt_padded (by omega) (by omega)
    · right
      rw [hyear, hmonth]
      refine ⟨rfl, List.cons_lt_cons_iff.mpr (.inr ⟨rfl, padded_lt_padded ?_ ?_⟩)⟩
      · have hday := daysBeforeYear_fullYears_le day
        have hmonthDays := daysBeforeMonth_fullMonths_le day
        unfold dayOfMonth dayOfYear at *
        rw [hyear, hmonth] at *
        omega
      · have := dayOfMonth_lt day'
        omega

/-! ## The time of day -/

/-- `HH:MM:SS` of a second of the day. -/
def timeText (second : ℕ) : List Char :=
  padded 2 (second / 3600) ++ (':' :: padded 2 (second / 60 % 60)) ++
    (':' :: padded 2 (second % 60))

@[simp] theorem length_timeText (second : ℕ) : (timeText second).length = 8 := by simp [timeText]

theorem timeText_lt {second second' : ℕ} (h : second < second') (hrange : second' < 86400) :
    timeText second < timeText second' := by
  unfold timeText
  refine List.append_lt_append_of_parts (by simp) ?_
  rcases lt_or_ge (second / 60) (second' / 60) with hminutes | hminutes
  · left
    refine List.append_lt_append_of_parts (by simp) ?_
    rcases lt_or_ge (second / 3600) (second' / 3600) with hhours | hhours
    · exact .inl (padded_lt_padded hhours (by omega))
    · have hequal : second / 3600 = second' / 3600 := by omega
      refine .inr ⟨by rw [hequal], List.cons_lt_cons_iff.mpr (.inr ⟨rfl, ?_⟩)⟩
      exact padded_lt_padded (by omega) (by omega)
  · have hhours : second / 3600 = second' / 3600 := by omega
    have hequal : second / 60 % 60 = second' / 60 % 60 := by omega
    refine .inr ⟨by rw [hhours, hequal], List.cons_lt_cons_iff.mpr (.inr ⟨rfl, ?_⟩)⟩
    exact padded_lt_padded (by omega) (by omega)

/-- The fraction of a second, left out when it is zero. -/
def fractionText (micros : ℕ) : List Char := if micros = 0 then [] else '.' :: padded 6 micros

/-- `+HH:MM`, with the seconds and their fraction where there are any. -/
def offsetText (offset : ℤ) : List Char :=
  let micros := offset.natAbs
  let seconds := micros / 1000000
  (if offset < 0 then '-' else '+') ::
    (padded 2 (seconds / 3600) ++ (':' :: padded 2 (seconds / 60 % 60)) ++
      if micros % 60000000 = 0 then []
      else (':' :: padded 2 (seconds % 60)) ++ fractionText (micros % 1000000))

/-- What follows the seconds is ordered as the fraction. -/
theorem fractionText_append_lt {micros micros' : ℕ} (h : micros < micros')
    (hrange : micros' < 1000000) (offset : ℤ) :
    fractionText micros ++ offsetText offset < fractionText micros' ++ offsetText offset := by
  have hpos : micros' ≠ 0 := by omega
  rcases Nat.eq_zero_or_pos micros with rfl | hmicros
  · -- no fraction: the sign of the offset stands where the other has its point
    simp only [fractionText, if_true, if_neg hpos, List.nil_append, List.cons_append, offsetText]
    refine List.cons_lt_cons_iff.mpr (.inl ?_)
    split <;> decide
  · simp only [fractionText, if_neg hpos, if_neg hmicros.ne', List.cons_append]
    refine List.cons_lt_cons_iff.mpr (.inr ⟨rfl, ?_⟩)
    exact List.append_lt_append_of_lt (by simp) (padded_lt_padded h (by omega))

/-! ## `isoformat` -/

namespace DateTime

/-- The characters of `isoformat`, for a reading of the wall clock. -/
def isoText (wall : ℕ) (offset : ℤ) : List Char :=
  dateText (wall / 86400000000) ++ ('T' :: timeText (wall / 1000000 % 86400)) ++
    (fractionText (wall % 1000000) ++ offsetText offset)

/-- `isoformat`. -/
def isoformat (t : DateTime) : String := String.ofList (isoText t.wall.toNat t.offset)

theorem isoText_lt {wall wall' : ℕ} (offset : ℤ) (h : wall < wall')
    (hrange : (wall' : ℤ) < maxWall) : isoText wall offset < isoText wall' offset := by
  have hday : wall' / 86400000000 < 3652059 := by
    rw [Nat.div_lt_iff_lt_mul (by norm_num)]
    unfold maxWall microsPerDay at hrange
    omega
  unfold isoText
  refine List.append_lt_append_of_parts (by simp) ?_
  rcases lt_or_ge (wall / 1000000) (wall' / 1000000) with hseconds | hseconds
  · left
    refine List.append_lt_append_of_parts (by simp) ?_
    rcases lt_or_ge (wall / 86400000000) (wall' / 86400000000) with hdays | hdays
    · exact .inl (dateText_lt hdays hday)
    · have hequal : wall / 86400000000 = wall' / 86400000000 := by omega
      refine .inr ⟨by rw [hequal], List.cons_lt_cons_iff.mpr (.inr ⟨rfl, ?_⟩)⟩
      exact timeText_lt (by omega) (by omega)
  · have hequal : wall / 1000000 = wall' / 1000000 := by omega
    have hdays : wall / 86400000000 = wall' / 86400000000 := by omega
    refine .inr ⟨by rw [hequal, hdays], ?_⟩
    exact fractionText_append_lt (by omega) (by omega) offset

/-- **At one offset the texts are ordered as the instants.** -/
theorem isoformat_lt_iff {t u : DateTime} (hoffset : t.offset = u.offset) :
    t.isoformat < u.isoformat ↔ t.instant < u.instant := by
  have hlt : ∀ {t u : DateTime}, t.offset = u.offset → t.instant < u.instant →
      t.isoformat < u.isoformat := by
    intro t u hoffset h
    have ht := t.inRange
    have hu := u.inRange
    unfold isoformat
    rw [String.lt_iff_toList_lt, String.toList_ofList, String.toList_ofList, hoffset]
    refine isoText_lt u.offset ?_ ?_
    · unfold instant at h
      omega
    · omega
  refine ⟨fun h => ?_, hlt hoffset⟩
  by_contra hge
  rcases (not_lt.mp hge).lt_or_eq with hgt | heq
  · exact absurd h (hlt hoffset.symm hgt).asymm
  · have hwall : t.wall = u.wall := by
      unfold instant at heq
      omega
    unfold isoformat at h
    rw [hwall, hoffset] at h
    exact lt_irrefl _ h

theorem isoformat_le_iff {t u : DateTime} (hoffset : t.offset = u.offset) :
    t.isoformat ≤ u.isoformat ↔ t.instant ≤ u.instant := by
  rw [← not_lt, ← not_lt, isoformat_lt_iff hoffset.symm]

example : (ofSeconds 63902822399).isoformat = "2025-12-31T23:59:59+00:00" := by decide

end DateTime
