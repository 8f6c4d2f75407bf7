import MessageArchive.Proofs.Calendar.PatternLanguage
import MessageArchive.Proofs.Calendar.Timestamps
import MessageArchive.Proofs.Calendar.Weeks

set_option autoImplicit false

/-! # The fields of a moment

A moment is shown as a date, as a day of the year, as a week date and as a time of day. `Numbers` are
what its letters write when they write a whole number, and `Shows` says which runs of letters do. All
of them tell one local time (`Denotes`): the three dates are names of one day, the one that has begun
when the seconds of local time are rounded down to days, and the time of day is what is left.

The names of days are read by counting (`CountsDays`): a day follows the day before, a month the
month before, a year the year before, and of the weeks of a year the first is the one with its first
Thursday.
-/

namespace MessageArchive.Calendar

open MessageArchive.Text

/-! ## Counting days -/

/-- How days are counted by their dates, by their numbers in the year, and by their weeks. -/
structure CountsDays : Prop where
  nextDay : ∀ year month dayOfMonth,
    Day.ofDate year month (dayOfMonth + 1) = Day.ofDate year month dayOfMonth + 1
  nextMonth : ∀ year past length, (Year.monthLengths year)[past]? = some length →
    Day.ofDate year (past + 2) 1 = Day.ofDate year (past + 1) length + 1
  nextYear : ∀ year, Day.ofDate (year + 1) 1 1 = Day.ofDate year 12 31 + 1
  firstOrdinal : ∀ year, Day.ofOrdinal year 1 = Day.ofDate year 1 1
  nextOrdinal : ∀ year number,
    Day.ofOrdinal year (number + 1) = Day.ofOrdinal year number + 1
  /-- Weeks start on Mondays, and 1 January 1970 was a Thursday. -/
  monday : ∀ year, Day.weekday (Day.ofWeekDate year 1 1) = 0
  thursday : Day.weekday (Day.ofDate 1970 1 1) = 3
  /-- The Thursday of the first week is one of the first seven days of the year. -/
  firstThursday : ∀ year, Day.ofDate year 1 1 ≤ Day.ofWeekDate year 1 4 ∧
    Day.ofWeekDate year 1 4 ≤ Day.ofDate year 1 7
  nextWeekday : ∀ year week number,
    Day.ofWeekDate year week (number + 1) = Day.ofWeekDate year week number + 1
  nextWeek : ∀ year week, Day.ofWeekDate year (week + 1) 1 = Day.ofWeekDate year week 7 + 1
  nextWeekYear : ∀ year,
    Day.ofWeekDate (year + 1) 1 1 = Day.ofWeekDate year (Year.weeks year) 7 + 1

namespace Day

theorem totalLength_take_succ {lengths : List Nat} {past length : Nat}
    (h : lengths[past]? = some length) :
    totalLength (lengths.take (past + 1)) = totalLength (lengths.take past) + length := by
  induction lengths generalizing past with
  | nil => cases h
  | cons first rest ih =>
      cases past with
      | zero =>
          obtain rfl : first = length := by simpa using h
          simp [totalLength]
      | succ past =>
          have hrest := ih (by simpa using h)
          simp only [totalLength, List.take_succ_cons, List.foldr_cons] at hrest ⊢
          omega

theorem ofDate_first (year : Int) : ofDate year 1 1 = Year.start year := by
  simp [ofDate, totalLength]

theorem ofDate_nextMonth {year : Int} {past length : Nat}
    (h : (Year.monthLengths year)[past]? = some length) :
    ofDate year (past + 2) 1 = ofDate year (past + 1) length + 1 := by
  have htotal := totalLength_take_succ h
  simp only [ofDate, Nat.add_sub_cancel, show past + 2 - 1 = past + 1 by omega]
  omega

theorem ofDate_nextYear (year : Int) : ofDate (year + 1) 1 1 = ofDate year 12 31 + 1 := by
  -- The days before December and those of December are all days of the year.
  have hdecember : (Year.monthLengths year)[11]? = some 31 := rfl
  have htotal := totalLength_take_succ hdecember
  have hall : (Year.monthLengths year).take (11 + 1) = Year.monthLengths year := rfl
  rw [hall] at htotal
  rw [ofDate_first, Year.start_succ, length_eq_totalLength, htotal, ofDate]
  show _ = _ + (totalLength ((Year.monthLengths year).take 11) : Int) + 31 - 1 + 1
  omega

theorem countsDays : CountsDays where
  nextDay := ofDate_succ
  nextMonth _ _ _ := ofDate_nextMonth
  nextYear := ofDate_nextYear
  firstOrdinal year := by
    rw [ofDate_first, ofOrdinal]
    omega
  nextOrdinal year number := by
    simp only [ofOrdinal]
    omega
  monday year := by
    have hfirst : ofWeekDate year 1 1 = Year.firstMonday year := by
      simp only [ofWeekDate]
      omega
    rw [hfirst, Year.weekday_firstMonday]
  thursday := by decide
  firstThursday year := by
    have hthursday := Year.firstThursday year
    have hseventh : ofDate year 1 7 = Year.start year + 6 := by
      simp [ofDate, totalLength]
      omega
    rw [ofDate_first, hseventh]
    simp only [ofWeekDate]
    omega
  nextWeekday year week number := by
    simp only [ofWeekDate]
    omega
  nextWeek year week := by
    simp only [ofWeekDate]
    omega
  nextWeekYear year := by
    have hnext := Year.firstMonday_succ year
    simp only [ofWeekDate]
    omega

end Day

/-! ## What is shown -/

/-- The whole numbers that a moment is shown in. -/
structure Numbers where
  year : Int
  month : Nat
  dayOfMonth : Nat
  ordinal : Nat
  weekYear : Int
  week : Nat
  weekday : Nat
  weekdayInMonth : Nat
  hour : Nat
  minute : Nat
  second : Nat
  deriving DecidableEq, Repr

/-- A run of a letter writes a text that reads as the number, as a pattern of its own and as part of
any pattern. -/
structure Prints (m : Moment) (letter : Char) (count : Nat) (n : Int) : Prop where
  alone : formatDate (List.replicate count letter) m =
    .ok (Pattern.Run.text m (.letters letter count))
  number : number? (Pattern.Run.text m (.letters letter count)) = some n

/-- The runs that write a number in full, however long they are: two letters of a year leave its
centuries out, and three letters of a month write its name. -/
structure Shows (m : Moment) (f : Numbers) : Prop where
  year : ∀ count, 0 < count → count ≠ 2 → Prints m 'y' count f.year
  month : ∀ count, 0 < count → count ≤ 2 → Prints m 'M' count f.month
  dayOfMonth : ∀ count, 0 < count → Prints m 'd' count f.dayOfMonth
  ordinal : ∀ count, 0 < count → Prints m 'D' count f.ordinal
  weekYear : ∀ count, 0 < count → count ≠ 2 → Prints m 'Y' count f.weekYear
  week : ∀ count, 0 < count → Prints m 'w' count f.week
  weekday : ∀ count, 0 < count → Prints m 'u' count f.weekday
  weekdayInMonth : ∀ count, 0 < count → Prints m 'F' count f.weekdayInMonth
  hour : ∀ count, 0 < count → Prints m 'H' count f.hour
  minute : ∀ count, 0 < count → Prints m 'm' count f.minute
  second : ∀ count, 0 < count → Prints m 's' count f.second

/-- The numbers of a moment. -/
def Moment.numbers (m : Moment) : Numbers where
  year := Day.year m.day
  month := Day.month m.day
  dayOfMonth := Day.dayOfMonth m.day
  ordinal := Day.ordinal m.day
  weekYear := Day.weekYear m.day
  week := Day.week m.day
  weekday := Day.weekday m.day + 1
  weekdayInMonth := Day.weekdayInMonth m.day
  hour := m.hour
  minute := m.minute
  second := m.second

theorem prints_of_number? {m : Moment} {letter : Char} {count : Nat} {n : Int}
    (hletter : letter ∈ Pattern.fieldLetters) (hcount : 0 < count)
    (h : number? (Pattern.Run.text m (.letters letter count)) = some n) :
    Prints m letter count n where
  alone := by
    have hall : ∀ c ∈ Pattern.fieldLetters, c.isAlpha = true := List.all_eq_true.1 rfl
    -- Nothing follows the run, so it is as long as it can be.
    obtain ⟨more, rfl⟩ := Nat.exists_eq_succ_of_ne_zero (Nat.pos_iff_ne_zero.1 hcount)
    have hreads : Pattern.Reads false (List.replicate (more + 1) letter ++ [])
        [.letters letter (more + 1)] false :=
      .letters (hall letter hletter) (by simp) (.done false)
    have hformat := Pattern.formatDate_of_closed hreads m (Pattern.legal_letters.2 hletter) rfl
    rw [List.append_nil, List.flatMap_singleton] at hformat
    exact hformat
  number := h

theorem number?_yearText {count : Nat} (h : count ≠ 2) (year : Int) :
    number? (yearText count year) = some year := by
  rw [yearText, if_neg h, number?_padded]

theorem shows_numbers (m : Moment) : Shows m m.numbers where
  year count hcount h := prints_of_number? (by decide) hcount (number?_yearText h _)
  month count hcount h := by
    refine prints_of_number? (by decide) hcount ?_
    show number? (Field.text m count .month) = _
    rw [Field.text, if_pos h]
    exact number?_paddedNat count _
  dayOfMonth count hcount := prints_of_number? (by decide) hcount (number?_paddedNat count _)
  ordinal count hcount := prints_of_number? (by decide) hcount (number?_paddedNat count _)
  weekYear count hcount h := prints_of_number? (by decide) hcount (number?_yearText h _)
  week count hcount := prints_of_number? (by decide) hcount (number?_paddedNat count _)
  weekday count hcount := prints_of_number? (by decide) hcount (number?_paddedNat count _)
  weekdayInMonth count hcount := prints_of_number? (by decide) hcount (number?_paddedNat count _)
  hour count hcount := prints_of_number? (by decide) hcount (number?_paddedNat count _)
  minute count hcount := prints_of_number? (by decide) hcount (number?_paddedNat count _)
  second count hcount := prints_of_number? (by decide) hcount (number?_paddedNat count _)

/-! ## What it denotes -/

/-- The local day: as many days after 1 January 1970 as the seconds of local time are, rounded down
to days. -/
def Moment.localDay (m : Moment) : Int :=
  Day.ofDate 1970 1 1 + (m.instant.seconds + m.zone.offset).fdiv 86400

theorem Moment.day_eq_localDay (m : Moment) : m.day = m.localDay := by
  rw [day, localDay, Day.ofDate_first, Int.fdiv_eq_ediv_of_nonneg _ (by decide)]
  rfl

/-- The numbers are within their ranges and tell the local day and the local time of day. -/
structure Denotes (m : Moment) (f : Numbers) : Prop where
  date : Day.ofDate f.year f.month f.dayOfMonth = m.localDay
  ordinalDate : Day.ofOrdinal f.year f.ordinal = m.localDay
  weekDate : Day.ofWeekDate f.weekYear f.week f.weekday = m.localDay
  month : 1 ≤ f.month ∧ f.month ≤ 12
  dayOfMonth : 1 ≤ f.dayOfMonth ∧ ∃ length,
    (Year.monthLengths f.year)[f.month - 1]? = some length ∧ f.dayOfMonth ≤ length
  ordinal : 1 ≤ f.ordinal ∧ (f.ordinal : Int) ≤ Year.length f.year
  /-- A week year has 52 weeks or 53. -/
  week : 1 ≤ f.week ∧ f.week ≤ Year.weeks f.weekYear ∧
    (Year.weeks f.weekYear = 52 ∨ Year.weeks f.weekYear = 53)
  weekday : 1 ≤ f.weekday ∧ f.weekday ≤ 7
  /-- So many days of the month are this weekday, up to this day. -/
  weekdayInMonth : f.weekdayInMonth =
    Nat.count (fun past => Day.weekday (Day.ofDate f.year f.month (past + 1)) + 1 = f.weekday)
      f.dayOfMonth
  time : 3600 * f.hour + 60 * f.minute + f.second =
    (m.instant.seconds + m.zone.offset).fmod 86400
  hour : f.hour < 24
  minute : f.minute < 60
  second : f.second < 60

theorem denotes_numbers (m : Moment) : Denotes m m.numbers where
  date := by
    rw [← m.day_eq_localDay]
    exact Day.ofDate_month_dayOfMonth m.day
  ordinalDate := by
    rw [← m.day_eq_localDay]
    exact Day.ofOrdinal_ordinal m.day
  weekDate := by
    rw [← m.day_eq_localDay]
    exact Day.ofWeekDate_week_weekday m.day
  month := ⟨Nat.succ_pos _, Day.month_le m.day⟩
  dayOfMonth := ⟨Nat.succ_pos _, Day.dayOfMonth_fits_month m.day⟩
  ordinal := by
    have hfits := Day.ordinal_fits m.day
    have hlength := Day.length_eq_totalLength (Day.year m.day)
    have hpos : 1 ≤ Day.ordinal m.day := Nat.succ_pos _
    refine ⟨hpos, ?_⟩
    show (Day.ordinal m.day : Int) ≤ Year.length (Day.year m.day)
    omega
  week := ⟨Day.week_pos m.day, Day.week_le m.day, Year.weeks_eq _⟩
  weekday := by
    have hlt := Day.weekday_lt m.day
    simp only [Moment.numbers]
    omega
  weekdayInMonth := by
    simp only [Moment.numbers, Nat.add_right_cancel_iff]
    exact (Day.count_weekday m.day).symm
  time := by
    have htime := m.hour_minute_second
    have hseconds : (m.secondOfDay : Int) = (m.instant.seconds + m.zone.offset) % 86400 := by
      simp only [Moment.secondOfDay, Moment.localSeconds]
      omega
    rw [Int.fmod_eq_emod_of_nonneg _ (by decide), ← hseconds, ← htime]
    simp only [Moment.numbers]
    omega
  hour := m.hour_lt
  minute := m.minute_lt
  second := m.second_lt

/-- **All fields of a moment denote one local time.** At every moment, runs of letters that write a
whole number write one and the same number however long they are. The date, the day of the year and
the week date that these numbers make up are all the local day, and the hour, the minute and the
second are what the seconds of local time leave over whole days; each number is in its range, which
for the day of the month, the day of the year and the week depends on the month and on the year. -/
theorem fields_denote_one_local_time :
    CountsDays ∧ ∀ m : Moment, ∃ f : Numbers, Shows m f ∧ Denotes m f :=
  ⟨Day.countsDays, fun m => ⟨m.numbers, shows_numbers m, denotes_numbers m⟩⟩

-- 3 January 2021 was the Sunday of the last week of 2020, which had 53 weeks.
example : formatDate "y-M-d Y-w-u F".toList ⟨⟨1609632000, 0⟩, .utc⟩ =
    .ok "2021-1-3 2020-53-7 1".toList := by rfl

end MessageArchive.Calendar
