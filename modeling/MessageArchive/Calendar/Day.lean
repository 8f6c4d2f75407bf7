set_option autoImplicit false

/-! # Days of the proleptic Gregorian calendar

A day is an integer: day `0` is Monday, 1 January of the year 1, and days before it are
negative. Years are integers as well; the year before year 1 is year 0. Three ways of naming a
day are defined, each with its inverse:

* year and day of the year (`Day.year`, `Day.ordinal`; `Day.ofOrdinal`),
* year, month and day of the month (`Day.year`, `Day.month`, `Day.dayOfMonth`; `Day.ofDate`),
* the week date of ISO 8601, whose weeks start on Monday and whose first week holds the year's
  first Thursday (`Day.weekYear`, `Day.week`, `Day.weekday`; `Day.ofWeekDate`).
-/

namespace MessageArchive.Calendar

/-! ## Years -/

namespace Year

/-- Every fourth year is a leap year; of the years divisible by 100, every fourth. -/
def isLeap (year : Int) : Bool :=
  year % 4 == 0 && (year % 100 != 0 || year % 400 == 0)

/-- The number of days in a year. -/
def length (year : Int) : Int := if isLeap year then 366 else 365

/-- The day that 1 January of the year is. -/
def start (year : Int) : Int :=
  365 * (year - 1) + (year - 1) / 4 - (year - 1) / 100 + (year - 1) / 400

theorem start_succ (year : Int) : start (year + 1) = start year + length year := by
  simp only [start, length, isLeap, Bool.and_eq_true, Bool.or_eq_true, beq_iff_eq, bne_iff_ne]
  split <;> omega

theorem start_lt_start {a b : Int} (h : a < b) : start a < start b := by
  simp only [start]
  omega

theorem start_le_start {a b : Int} (h : a ≤ b) : start a ≤ start b := by
  simp only [start]
  omega

/-- Where the years begin, in terms of the place of the year in its cycle of 400 years. -/
theorem start_of_place {cycle century fourth year : Int} (hc : 0 ≤ century ∧ century ≤ 3)
    (hf : 0 ≤ fourth ∧ fourth ≤ 24) (hy : 0 ≤ year ∧ year ≤ 3) :
    start (400 * cycle + 100 * century + 4 * fourth + year + 1) =
      146097 * cycle + 36524 * century + 1461 * fourth + 365 * year := by
  have h4 : (400 * cycle + 100 * century + 4 * fourth + year) / 4 =
      100 * cycle + 25 * century + fourth := by omega
  have h100 : (400 * cycle + 100 * century + 4 * fourth + year) / 100 =
      4 * cycle + century := by omega
  have h400 : (400 * cycle + 100 * century + 4 * fourth + year) / 400 = cycle := by omega
  simp only [start, Int.add_sub_cancel, h4, h100, h400]
  omega

/-- How long the years are, in terms of the place of the year in its cycle of 400 years. -/
theorem length_of_place {cycle century fourth year : Int} (hc : 0 ≤ century ∧ century ≤ 3)
    (hf : 0 ≤ fourth ∧ fourth ≤ 24) (hy : 0 ≤ year ∧ year ≤ 3) :
    length (400 * cycle + 100 * century + 4 * fourth + year + 1) =
      if year = 3 ∧ (fourth ≠ 24 ∨ century = 3) then 366 else 365 := by
  simp only [length, isLeap, Bool.and_eq_true, Bool.or_eq_true, beq_iff_eq, bne_iff_ne]
  split <;> split <;> omega

/-- The lengths of the months of a year, from January on. -/
def monthLengths (year : Int) : List Nat :=
  [31, if isLeap year then 29 else 28, 31, 30, 31, 30, 31, 31, 30, 31, 30, 31]

/-- The Monday on which a year's first week starts; 4 January always lies in that week. -/
def firstMonday (year : Int) : Int :=
  let fourth := start year + 3
  fourth - fourth % 7

end Year

namespace Day

/-- The year a day lies in. The calendar repeats after 400 years of 146097 days together. Of the
four centuries in them the last one has a day more, and so has the last year of four. -/
def year (day : Int) : Int :=
  let inCycle := day % 146097
  let century := min (inCycle / 36524) 3
  let inCentury := inCycle - 36524 * century
  let inFourYears := inCentury % 1461
  400 * (day / 146097) + 100 * century + 4 * (inCentury / 1461) + min (inFourYears / 365) 3 + 1

theorem start_year_le (day : Int) : Year.start (year day) ≤ day := by
  rw [year, Year.start_of_place] <;> omega

theorem lt_start_year_succ (day : Int) : day < Year.start (year day + 1) := by
  rw [Year.start_succ, year, Year.start_of_place, Year.length_of_place]
  · split <;> omega
  all_goals omega

/-! ## Day of the year -/

/-- The day's number in its year, counted from 1. -/
def ordinal (day : Int) : Nat := (day - Year.start (year day)).toNat + 1

/-- The day with the given number in a year. -/
def ofOrdinal (year : Int) (number : Nat) : Int := Year.start year + number - 1

theorem ofOrdinal_ordinal (day : Int) : ofOrdinal (year day) (ordinal day) = day := by
  have := start_year_le day
  simp only [ofOrdinal, ordinal]
  omega

/-! ## Month and day of the month -/

/-- With `past` days gone since the first month of the list began: how many months are over, and
how many days of the next one. -/
def splitMonths : List Nat → Nat → Nat × Nat
  | [], past => (0, past)
  | length :: rest, past =>
      if past < length then (0, past)
      else
        let (months, days) := splitMonths rest (past - length)
        (months + 1, days)

/-- The month a day lies in, counted from 1. -/
def month (day : Int) : Nat :=
  (splitMonths (Year.monthLengths (year day)) (ordinal day - 1)).1 + 1

/-- The day's number in its month, counted from 1. -/
def dayOfMonth (day : Int) : Nat :=
  (splitMonths (Year.monthLengths (year day)) (ordinal day - 1)).2 + 1

/-- The number of days of several months. -/
def totalLength (lengths : List Nat) : Nat := lengths.foldr (· + ·) 0

/-- The day with the given date. -/
def ofDate (year : Int) (month dayOfMonth : Nat) : Int :=
  Year.start year + totalLength ((Year.monthLengths year).take (month - 1)) + dayOfMonth - 1

/-- The months that are over and the days of the next one make up the days gone. -/
theorem totalLength_take_splitMonths (lengths : List Nat) (past : Nat) :
    totalLength (lengths.take (splitMonths lengths past).1) + (splitMonths lengths past).2 =
      past := by
  induction lengths generalizing past with
  | nil => simp [splitMonths, totalLength]
  | cons length rest ih =>
      simp only [splitMonths]
      split
      · simp [totalLength]
      · have := ih (past - length)
        simp only [totalLength, List.take_succ_cons, List.foldr_cons] at this ⊢
        omega

theorem ofDate_month_dayOfMonth (day : Int) :
    ofDate (year day) (month day) (dayOfMonth day) = day := by
  have h := totalLength_take_splitMonths (Year.monthLengths (year day)) (ordinal day - 1)
  have h' := ofOrdinal_ordinal day
  simp only [ofOrdinal, ordinal] at h'
  simp only [ofDate, month, dayOfMonth, Nat.add_sub_cancel]
  simp only [ordinal, Nat.add_sub_cancel] at h ⊢
  omega

/-! ## Weeks -/

/-- The day's number in its week, counted from 0 for Monday. -/
def weekday (day : Int) : Nat := (day % 7).toNat

/-- The Thursday of the day's week. -/
def thursday (day : Int) : Int := day - day % 7 + 3

/-- The year the day's week belongs to: the one that holds the Thursday of the week. -/
def weekYear (day : Int) : Int := year (thursday day)

/-- The week's number in its year, counted from 1. -/
def week (day : Int) : Nat := (ordinal (thursday day) - 1) / 7 + 1

/-- The day with the given week date; `number` is 1 for Monday. -/
def ofWeekDate (year : Int) (week number : Nat) : Int :=
  Year.firstMonday year + 7 * (week - 1) + number - 1

theorem ofWeekDate_week_weekday (day : Int) :
    ofWeekDate (weekYear day) (week day) (weekday day + 1) = day := by
  have h1 := start_year_le (thursday day)
  simp only [ofWeekDate, weekYear, week, weekday, Year.firstMonday, ordinal]
  simp only [thursday] at h1 ⊢
  omega

/-- The weekday's number among the same weekdays of the month, counted from 1. -/
def weekdayInMonth (day : Int) : Nat := (dayOfMonth day - 1) / 7 + 1

end Day

end MessageArchive.Calendar
