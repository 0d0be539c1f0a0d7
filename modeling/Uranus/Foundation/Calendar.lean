import Mathlib.Algebra.BigOperators.Group.List.Basic
import Mathlib.Algebra.GroupWithZero.Nat

/-! The proleptic Gregorian calendar over day numbers, where day 0 is the first of
January 1970. A date carries the bounds on its month and its day. -/
namespace Foundation

/-- The part of a row of lengths that a position falls in, and the offset there. -/
def locate : List Nat → Nat → Nat × Nat
  | [], position => (0, position)
  | length :: rest, position =>
    if position < length then (0, position)
    else
      let inner := locate rest (position - length)
      (inner.1 + 1, inner.2)

theorem locate_spec {lengths : List Nat} {position : Nat} (inside : position < lengths.sum) :
    (locate lengths position).1 < lengths.length ∧
      (lengths.take (locate lengths position).1).sum + (locate lengths position).2 = position ∧
      (locate lengths position).2 < lengths.getD (locate lengths position).1 0 := by
  induction lengths generalizing position with
  | nil => simp at inside
  | cons length rest ih =>
    rw [List.sum_cons] at inside
    rw [locate]
    by_cases within : position < length
    · simp only [if_pos within, List.length_cons, List.take_zero, List.sum_nil,
        List.getD_cons_zero]
      omega
    · have shorter : position - length < rest.sum := by omega
      obtain ⟨below, total, offset⟩ := ih shorter
      simp only [if_neg within, List.length_cons, List.take_succ_cons, List.sum_cons,
        List.getD_cons_succ]
      refine ⟨?_, ?_, offset⟩
      · omega
      · omega

namespace Calendar

def Leap (year : Int) : Prop := year % 4 = 0 ∧ (year % 100 ≠ 0 ∨ year % 400 = 0)

instance (year : Int) : Decidable (Leap year) := inferInstanceAs (Decidable (_ ∧ _))

/-- The leap years from year 1 on, with the given one. -/
def leaps (year : Int) : Int := year / 4 - year / 100 + year / 400

theorem leaps_of_leap {year : Int} (leap : Leap year) : leaps year = leaps (year - 1) + 1 := by
  obtain ⟨fourth, century⟩ := leap
  unfold leaps
  omega

theorem leaps_of_common {year : Int} (common : ¬ Leap year) : leaps year = leaps (year - 1) := by
  unfold Leap at common
  unfold leaps
  omega

/-- The day number of the first of January. -/
def yearStart (year : Int) : Int := 365 * (year - 1970) + (leaps (year - 1) - leaps 1969)

def monthLengths (year : Int) : List Nat :=
  [31, if Leap year then 29 else 28, 31, 30, 31, 30, 31, 31, 30, 31, 30, 31]

@[simp] theorem length_monthLengths (year : Int) : (monthLengths year).length = 12 := rfl

/-- A year lasts as long as its months do. -/
theorem yearStart_succ (year : Int) :
    yearStart (year + 1) = yearStart year + (monthLengths year).sum := by
  unfold yearStart
  rw [Int.add_sub_cancel]
  by_cases leap : Leap year
  · rw [leaps_of_leap leap, monthLengths, if_pos leap]
    simp only [List.sum_cons, List.sum_nil]
    omega
  · rw [leaps_of_common leap, monthLengths, if_neg leap]
    simp only [List.sum_cons, List.sum_nil]
    omega

/-- A year by the average length of a year, at most one off. -/
def nearYear (day : Int) : Int := 1970 + 400 * day / 146097

def yearOf (day : Int) : Int :=
  if day < yearStart (nearYear day) then nearYear day - 1
  else if yearStart (nearYear day + 1) ≤ day then nearYear day + 1
  else nearYear day

theorem yearOf_spec (day : Int) :
    yearStart (yearOf day) ≤ day ∧ day < yearStart (yearOf day + 1) := by
  unfold yearOf
  split_ifs with early late
  · refine ⟨?_, by simpa using early⟩
    unfold yearStart leaps nearYear
    omega
  · refine ⟨late, ?_⟩
    unfold yearStart leaps nearYear
    omega
  · omega

/-- The place of a day within its year. -/
theorem yearDay_lt (day : Int) :
    (day - yearStart (yearOf day)).toNat < (monthLengths (yearOf day)).sum := by
  have bounds := yearOf_spec day
  rw [yearStart_succ] at bounds
  omega

/-- `std::chrono::year_month_day`, of a day that exists. -/
structure Date where
  year : Int
  month : Nat
  day : Nat
  month_le : 1 ≤ month ∧ month ≤ 12
  day_le : 1 ≤ day ∧ day ≤ (monthLengths year).getD (month - 1) 0

namespace Date

/-- The length of the months before the month of the date. -/
def preceding (date : Date) : Nat := ((monthLengths date.year).take (date.month - 1)).sum

def toDays (date : Date) : Int := yearStart date.year + date.preceding + (date.day - 1)

def ofDays (day : Int) : Date where
  year := yearOf day
  month := (locate (monthLengths (yearOf day)) (day - yearStart (yearOf day)).toNat).1 + 1
  day := (locate (monthLengths (yearOf day)) (day - yearStart (yearOf day)).toNat).2 + 1
  month_le := ⟨by omega, (locate_spec (yearDay_lt day)).1⟩
  day_le := ⟨by omega, (locate_spec (yearDay_lt day)).2.2⟩

theorem toDays_ofDays (day : Int) : (ofDays day).toDays = day := by
  have bounds := yearOf_spec day
  have total := (locate_spec (yearDay_lt day)).2.1
  simp only [toDays, preceding, ofDays, Nat.add_sub_cancel, Int.natCast_add, Int.natCast_one]
  omega

example : (ofDays 11016).year = 2000 ∧ (ofDays 11016).month = 2 ∧ (ofDays 11016).day = 29 := by
  decide

end Date
end Calendar
end Foundation
