import Uranus.Foundation.Calendar

/-! Dates of time points. A time point counts the ticks of the clock, and the local
zone is a fixed offset. -/
namespace Uranus
open Foundation

/-- `std::chrono::current_zone()` and the ticks in a second of the clock. -/
structure Zone where
  ticks : Int
  positive : 0 < ticks
  /-- In seconds. -/
  offset : Int

namespace Zone
variable {zone : Zone} {point former latter : Int}

/-- `std::chrono::days`. -/
def days (zone : Zone) : Int := 86400 * zone.ticks

/-- `std::chrono::years`, the average Gregorian year. -/
def years (zone : Zone) : Int := 31556952 * zone.ticks

def toLocal (zone : Zone) (point : Int) : Int := point + zone.offset * zone.ticks

/-- `std::chrono::floor<std::chrono::days>` of the local time. -/
def today (zone : Zone) (point : Int) : Int := zone.toLocal point / zone.days

/-- `std::chrono::floor<std::chrono::years>` of the local time. -/
def thisYear (zone : Zone) (point : Int) : Int := zone.toLocal point / zone.years

/-- `std::chrono::floor<std::chrono::days>` of a count of years. -/
def firstDay (years : Int) : Int := years * 31556952 / 86400

def date (zone : Zone) (point : Int) : Calendar.Date := .ofDays (zone.today point)

def getDayOfMonth (zone : Zone) (point : Int) : Nat := (zone.date point).day

def getDayOfYear (zone : Zone) (point : Int) : Int :=
  zone.today point - firstDay (zone.thisYear point) + 1

/-- `std::chrono::weekday`, where Sunday is 0. -/
def weekDay (day : Int) : Int := (day + 4) % 7

def getDaysGone (zone : Zone) (former latter : Int) : Int :=
  if latter ≤ former then 0 else zone.today latter - zone.today former

/-- The day that `IsSameWeek` computes for a time point; `std::chrono::Monday` is 1. -/
def weekStart (zone : Zone) (point : Int) : Int :=
  (zone.date point).toDays - (weekDay (zone.today point) - 1) % 7

def isSameWeek (zone : Zone) (former latter : Int) : Bool :=
  if latter ≤ former then false else zone.weekStart former == zone.weekStart latter

theorem days_pos (zone : Zone) : 0 < zone.days :=
  Int.mul_pos (by decide) zone.positive

theorem years_pos (zone : Zone) : 0 < zone.years :=
  Int.mul_pos (by decide) zone.positive

@[simp] theorem toDays_date (zone : Zone) (point : Int) :
    (zone.date point).toDays = zone.today point :=
  Calendar.Date.toDays_ofDays _

/-- The two functions agree on the date of a time point. -/
def SameDate (zone : Zone) (point : Int) : Prop :=
  zone.getDayOfYear point = zone.getDayOfMonth point + (zone.date point).preceding

/-- The average year with the number of the calendar year, counted from 1970. It
begins on the first of January, and the local time is within it. -/
structure InAverageYear (zone : Zone) (point : Int) : Prop where
  january : firstDay ((zone.date point).year - 1970) = Calendar.yearStart (zone.date point).year
  begun : ((zone.date point).year - 1970) * zone.years ≤ zone.toLocal point
  running : zone.toLocal point < ((zone.date point).year - 1970 + 1) * zone.years

theorem thisYear_eq_iff {count : Int} : zone.thisYear point = count ↔
    count * zone.years ≤ zone.toLocal point ∧ zone.toLocal point < (count + 1) * zone.years := by
  have lower : count ≤ zone.thisYear point ↔ count * zone.years ≤ zone.toLocal point :=
    Int.le_ediv_iff_mul_le zone.years_pos
  have upper : zone.thisYear point < count + 1 ↔
      zone.toLocal point < (count + 1) * zone.years :=
    Int.ediv_lt_iff_lt_mul zone.years_pos
  rw [← lower, ← upper]
  omega

/-- The functions agree where the counted years begin on the day the date's year does. -/
theorem sameDate_iff_firstDay : zone.SameDate point ↔
    firstDay (zone.thisYear point) = Calendar.yearStart (zone.date point).year := by
  have total := toDays_date zone point
  unfold Calendar.Date.toDays at total
  unfold SameDate getDayOfYear getDayOfMonth
  omega

/-- Average years begin too far apart to share a first of January. -/
theorem count_of_firstDay {count year : Int} (same : firstDay count = Calendar.yearStart year) :
    count = year - 1970 := by
  unfold firstDay Calendar.yearStart Calendar.leaps at same
  omega

theorem sameDate_iff_inAverageYear (zone : Zone) (point : Int) :
    zone.SameDate point ↔ zone.InAverageYear point := by
  rw [sameDate_iff_firstDay]
  constructor
  · intro same
    have count := count_of_firstDay same
    obtain ⟨begun, running⟩ := thisYear_eq_iff.mp count
    exact ⟨count ▸ same, begun, running⟩
  · intro within
    have count := thisYear_eq_iff.mpr ⟨within.begun, within.running⟩
    rw [count]
    exact within.january

/-- The first of January 1971 in a zone without an offset is day 366 of its year. -/
theorem not_sameDate_new_year :
    ¬ ∀ (zone : Zone) (point : Int), zone.SameDate point := by
  intro all
  have same := all ⟨1, by decide, 0⟩ 31536000
  revert same
  unfold SameDate
  decide

/-- Midnight at the start of a Monday, after the first and not after the second point. -/
def MondayBetween (zone : Zone) (former latter : Int) : Prop :=
  ∃ day, weekDay day = 1 ∧
    zone.toLocal former < day * zone.days ∧ day * zone.days ≤ zone.toLocal latter

theorem today_lt_iff {day : Int} :
    zone.today point < day ↔ zone.toLocal point < day * zone.days :=
  Int.ediv_lt_iff_lt_mul zone.days_pos

theorem le_today_iff {day : Int} :
    day ≤ zone.today point ↔ day * zone.days ≤ zone.toLocal point :=
  Int.le_ediv_iff_mul_le zone.days_pos

theorem today_mono (zone : Zone) (earlier : former ≤ latter) :
    zone.today former ≤ zone.today latter := by
  apply le_today_iff.mpr
  have begun : zone.today former * zone.days ≤ zone.toLocal former :=
    le_today_iff.mp (Int.le_refl _)
  unfold toLocal at begun ⊢
  omega

/-- A week begins on the last Monday that is not after the day. -/
theorem weekStart_eq (zone : Zone) (point : Int) :
    zone.weekStart point = zone.today point - (zone.today point + 3) % 7 := by
  rw [weekStart, toDays_date, weekDay]
  omega

theorem mondayBetween_iff : zone.MondayBetween former latter ↔
    ∃ day, weekDay day = 1 ∧ zone.today former < day ∧ day ≤ zone.today latter := by
  simp only [MondayBetween, today_lt_iff, le_today_iff]

theorem isSameWeek_iff_weekStart (earlier : former < latter) :
    zone.isSameWeek former latter = true ↔ zone.weekStart former = zone.weekStart latter := by
  rw [isSameWeek, if_neg (by omega), beq_iff_eq]

theorem isSameWeek_iff_mondayBetween (earlier : former < latter) :
    zone.isSameWeek former latter = true ↔ ¬ zone.MondayBetween former latter := by
  have ordered := zone.today_mono (Int.le_of_lt earlier)
  rw [isSameWeek_iff_weekStart earlier, mondayBetween_iff]
  constructor
  · rintro same ⟨day, monday, after, before⟩
    rw [weekStart_eq, weekStart_eq] at same
    unfold weekDay at monday
    omega
  · intro none
    by_contra different
    rw [weekStart_eq, weekStart_eq] at different
    -- the week of the later point begins between the two
    refine none ⟨zone.today latter - (zone.today latter + 3) % 7, ?_, ?_, ?_⟩
    · unfold weekDay
      omega
    · omega
    · omega

theorem getDaysGone_lt (same : zone.isSameWeek former latter = true) :
    zone.getDaysGone former latter < 7 := by
  by_cases earlier : former < latter
  · have starts := (isSameWeek_iff_weekStart earlier).mp same
    rw [weekStart_eq, weekStart_eq] at starts
    rw [getDaysGone, if_neg (by omega)]
    omega
  · rw [getDaysGone, if_pos (by omega)]
    decide

/-- The test for one week is the absence of a Monday, so it passes to the points
between, and fails over seven days. -/
theorem same_week (earlier : former < latter) :
    (zone.isSameWeek former latter = true ↔ ¬ zone.MondayBetween former latter) ∧
    (zone.isSameWeek former latter = true → ∀ middle, former < middle → middle < latter →
      zone.isSameWeek former middle = true ∧ zone.isSameWeek middle latter = true) ∧
    (7 ≤ zone.getDaysGone former latter → zone.isSameWeek former latter = false) := by
  refine ⟨isSameWeek_iff_mondayBetween earlier, ?_, ?_⟩
  · intro same middle after before
    have none := (isSameWeek_iff_mondayBetween earlier).mp same
    rw [isSameWeek_iff_mondayBetween after, isSameWeek_iff_mondayBetween before]
    constructor
    · rintro ⟨day, monday, left, right⟩
      refine none ⟨day, monday, left, Int.le_trans right ?_⟩
      unfold toLocal
      omega
    · rintro ⟨day, monday, left, right⟩
      refine none ⟨day, monday, ?_, right⟩
      unfold toLocal at left ⊢
      omega
  · intro gone
    by_contra same
    rw [Bool.not_eq_false] at same
    have within := getDaysGone_lt same
    omega

/-- The first of January 1970 is a Thursday, and the week before it ends on the Sunday
of the 28th of December 1969. -/
theorem same_week_epoch :
    ((⟨1, by decide, 0⟩ : Zone).isSameWeek (-259200) 0 = true ↔
        ¬ (⟨1, by decide, 0⟩ : Zone).MondayBetween (-259200) 0) ∧
      (⟨1, by decide, 0⟩ : Zone).isSameWeek (-259200) 0 = true ∧
      (⟨1, by decide, 0⟩ : Zone).isSameWeek (-259201) 0 = false :=
  ⟨(same_week (by decide)).1, by decide, by decide⟩

end Zone
end Uranus
