import Mathlib.Algebra.BigOperators.Group.List.Basic
import Mathlib.Tactic.IntervalCases
import Mathlib.Data.Int.Order.Basic

/-!
# The proleptic Gregorian calendar

Dates and their day numbers, counted from 1 January 1970.
-/

namespace GoblinPay.Calendar

def IsLeap (year : Int) : Prop := year % 4 = 0 ∧ (year % 100 ≠ 0 ∨ year % 400 = 0)

instance (year : Int) : Decidable (IsLeap year) := inferInstanceAs (Decidable (_ ∧ _))

def daysInMonth (year month : Int) : Int :=
  if month = 2 then if IsLeap year then 29 else 28
  else if month = 4 ∨ month = 6 ∨ month = 9 ∨ month = 11 then 30
  else 31

@[ext]
structure Date where
  year : Int
  month : Int
  day : Int
  deriving DecidableEq, Repr

namespace Date

structure Valid (date : Date) : Prop where
  month : 1 ≤ date.month ∧ date.month ≤ 12
  day : 1 ≤ date.day ∧ date.day ≤ daysInMonth date.year date.month

/-- The earlier of two dates. -/
def Before (date other : Date) : Prop :=
  date.year < other.year ∨ date.year = other.year ∧ (date.month < other.month ∨ date.month = other.month ∧ date.day < other.day)

end Date

/-- The days of the years from 1 up to a year. -/
def daysBeforeYear (year : Int) : Int := 365 * (year - 1) + (year - 1) / 4 - (year - 1) / 100 + (year - 1) / 400

/-- The days of the months of a year up to a month. -/
def daysBeforeMonth (year month : Int) : Int := ((List.range (month - 1).toNat).map fun k : Nat => daysInMonth year (k + 1)).sum

/-- The days since 1 January 1970. -/
def Date.dayNumber (date : Date) : Int :=
  daysBeforeYear date.year - daysBeforeYear 1970 + daysBeforeMonth date.year date.month + (date.day - 1)

def daysInYear (year : Int) : Int := if IsLeap year then 366 else 365

/-- The next year begins behind the days of this one. -/
theorem daysBeforeYear_succ (year : Int) : daysBeforeYear (year + 1) = daysBeforeYear year + daysInYear year := by
  unfold daysBeforeYear daysInYear
  by_cases h : IsLeap year
  · rw [if_pos h]
    unfold IsLeap at h
    omega
  · rw [if_neg h]
    unfold IsLeap at h
    omega

theorem daysBeforeYear_mono {year other : Int} (h : year ≤ other) : daysBeforeYear year ≤ daysBeforeYear other := by
  unfold daysBeforeYear
  omega

theorem daysInMonth_pos (year month : Int) : 0 < daysInMonth year month := by
  unfold daysInMonth
  split
  · split <;> decide
  · split <;> decide

/-- The next month begins behind the days of this one. -/
theorem daysBeforeMonth_succ {year month : Int} (h : 1 ≤ month) :
    daysBeforeMonth year (month + 1) = daysBeforeMonth year month + daysInMonth year month := by
  have count : (month + 1 - 1).toNat = (month - 1).toNat + 1 := by omega
  have last : (((month - 1).toNat : Int) + 1) = month := by omega
  rw [daysBeforeMonth, count, List.range_succ, List.map_append, List.sum_append, List.map_singleton, List.sum_singleton, last]
  rfl

theorem daysBeforeMonth_mono {year month other : Int} (h : 1 ≤ month) (hle : month ≤ other) :
    daysBeforeMonth year month ≤ daysBeforeMonth year other := by
  induction other, hle using Int.leInduction with
  | base => exact le_refl _
  | succ other hle ih =>
    have pos := daysInMonth_pos year other
    rw [daysBeforeMonth_succ (by omega)]
    omega

/-- The twelve months fill the year. -/
theorem daysBeforeMonth_end (year : Int) : daysBeforeMonth year 13 = daysInYear year := by
  have months : daysBeforeMonth year 13 = ((List.range 12).map fun k : ℕ => daysInMonth year (k + 1)).sum := rfl
  rw [months, daysInYear]
  simp only [List.range_succ, List.range_zero, List.nil_append, List.map_append, List.sum_append, List.map_singleton,
    List.sum_singleton]
  by_cases h : IsLeap year
  · simp [daysInMonth, h]
  · simp [daysInMonth, h]

namespace Date

variable {date other : Date}

/-- A valid date lies in its month. -/
theorem Valid.lt_month (h : date.Valid) : daysBeforeMonth date.year date.month + (date.day - 1) <
    daysBeforeMonth date.year (date.month + 1) := by
  have := h.day
  rw [daysBeforeMonth_succ h.month.1]
  omega

/-- A valid date lies in its year. -/
theorem Valid.lt_year (h : date.Valid) : daysBeforeMonth date.year date.month + (date.day - 1) < daysInYear date.year := by
  have inMonth := h.lt_month
  have mono : daysBeforeMonth date.year (date.month + 1) ≤ daysBeforeMonth date.year 13 :=
    daysBeforeMonth_mono (by have := h.month; omega) (by have := h.month; omega)
  rw [daysBeforeMonth_end] at mono
  omega

/-- A later date has a later day number. -/
theorem Valid.dayNumber_lt (h : date.Valid) (ho : other.Valid) (hlt : date.Before other) : date.dayNumber < other.dayNumber := by
  have start : 0 ≤ daysBeforeMonth other.year other.month := daysBeforeMonth_mono (by decide) ho.month.1
  have hday := ho.day.1
  unfold dayNumber
  rcases hlt with hyear | ⟨hyear, hmonth | ⟨hmonth, hlt⟩⟩
  · have inYear := h.lt_year
    have years := daysBeforeYear_mono (show date.year + 1 ≤ other.year by omega)
    rw [daysBeforeYear_succ] at years
    omega
  · have inMonth := h.lt_month
    have months : daysBeforeMonth other.year (date.month + 1) ≤ daysBeforeMonth other.year other.month :=
      daysBeforeMonth_mono (by have := h.month; omega) (by omega)
    rw [hyear] at inMonth ⊢
    omega
  · rw [hyear, hmonth]
    omega

/-- Dates are ordered. -/
theorem before_or_eq (date other : Date) : date.Before other ∨ date = other ∨ other.Before date := by
  unfold Before
  rw [Date.ext_iff]
  omega

/-- The day with the smaller number is the earlier date. -/
theorem Valid.before_of_dayNumber_lt (h : date.Valid) (ho : other.Valid) (hlt : date.dayNumber < other.dayNumber) :
    date.Before other := by
  rcases before_or_eq date other with hbefore | rfl | hafter
  · exact hbefore
  · exact absurd hlt (lt_irrefl _)
  · exact absurd (ho.dayNumber_lt h hafter) (not_lt_of_gt hlt)

/-- A day has one date. -/
theorem Valid.eq_of_dayNumber_eq (h : date.Valid) (ho : other.Valid) (heq : date.dayNumber = other.dayNumber) : date = other := by
  rcases before_or_eq date other with hbefore | rfl | hafter
  · exact absurd (h.dayNumber_lt ho hbefore) (by omega)
  · rfl
  · exact absurd (ho.dayNumber_lt h hafter) (by omega)

end Date

end GoblinPay.Calendar
