import MessageArchive.Proofs.Calendar.Dates
import Mathlib.Data.Int.CardIntervalMod

set_option autoImplicit false

/-! # Weeks

The weeks of a year go from its first Monday to the first Monday of the next year, so there are 52 or
53 of them (`Year.weeks_eq`), and the number of a day's week is not beyond them (`Day.week_le`). The
number of a weekday in its month is the number of days of the month, up to this one, that are this
weekday (`Day.count_weekday`).
-/

namespace MessageArchive.Calendar

/-! ## The weeks of a year -/

namespace Year

/-- The number of weeks in a year. -/
def weeks (year : Int) : Nat := ((firstMonday (year + 1) - firstMonday year) / 7).toNat

theorem weekday_firstMonday (year : Int) : Day.weekday (firstMonday year) = 0 := by
  simp only [Day.weekday, firstMonday]
  omega

/-- The Thursday of the first week is one of the first seven days of the year. -/
theorem firstThursday (year : Int) :
    start year ≤ firstMonday year + 3 ∧ firstMonday year + 3 < start year + 7 := by
  simp only [firstMonday]
  omega

theorem firstMonday_succ (year : Int) :
    firstMonday (year + 1) = firstMonday year + 7 * weeks year := by
  have hstart := start_lt_start (show year < year + 1 by omega)
  simp only [weeks, firstMonday]
  omega

theorem weeks_eq (year : Int) : weeks year = 52 ∨ weeks year = 53 := by
  have hlength : length year = 365 ∨ length year = 366 := by
    rw [length]
    split
    · exact Or.inr rfl
    · exact Or.inl rfl
  -- The two Mondays are a multiple of seven days apart, and not more than six days from a year.
  simp only [weeks, firstMonday, start_succ]
  omega

end Year

/-! ## The week of a day -/

namespace Day

theorem week_pos (day : Int) : 0 < week day := Nat.succ_pos _

theorem week_le (day : Int) : week day ≤ Year.weeks (weekYear day) := by
  -- The Thursday of the day's week is in the year, so its Monday is before the next first Monday.
  have hthursday := lt_start_year_succ (thursday day)
  have hfirst := (Year.firstThursday (weekYear day + 1)).1
  have hnext := Year.firstMonday_succ (weekYear day)
  have hday := ofWeekDate_week_weekday day
  have hpos := week_pos day
  simp only [ofWeekDate, weekday] at hday
  simp only [weekYear, thursday] at *
  omega

/-! ## Weekdays -/

theorem weekday_lt (day : Int) : weekday day < 7 := by
  simp only [weekday]
  omega

theorem weekday_eq_iff {a b : Int} : weekday a = weekday b ↔ a % 7 = b % 7 := by
  simp only [weekday]
  omega

/-- The days of a month are one behind the other. -/
theorem ofDate_succ (year : Int) (month dayOfMonth : Nat) :
    ofDate year month (dayOfMonth + 1) = ofDate year month dayOfMonth + 1 := by
  simp only [ofDate]
  omega

/-- Up to its own day of the month, as many days are the same weekday as its number says. -/
theorem count_weekday (day : Int) :
    Nat.count (fun before => weekday (ofDate (year day) (month day) (before + 1)) = weekday day)
      (dayOfMonth day) = weekdayInMonth day := by
  have hpos : 0 < dayOfMonth day := Nat.succ_pos _
  have hdate := ofDate_month_dayOfMonth day
  -- Days of one month are the same weekday when as many days of it are past, but for whole weeks.
  have hsame : ∀ before : Nat,
      weekday (ofDate (year day) (month day) (before + 1)) = weekday day ↔
        before ≡ dayOfMonth day - 1 [MOD 7] := by
    intro before
    rw [weekday_eq_iff, Nat.ModEq]
    simp only [ofDate] at hdate ⊢
    omega
  simp only [hsame]
  rw [Nat.count_modEq_card _ (by decide), weekdayInMonth]
  split <;> omega

end Day

end MessageArchive.Calendar
