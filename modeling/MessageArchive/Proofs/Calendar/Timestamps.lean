import MessageArchive.Calendar.Format
import MessageArchive.Proofs.Calendar.Dates
import MessageArchive.Proofs.Text.Digits
import Mathlib.Data.List.Forall2

set_option autoImplicit false

/-! # Timestamps in the order of time

A timestamp is the local date and the local time of day, as numbers with one character between each
two of them. Each number is told from its text, so the timestamp tells the local time to the
millisecond, in every year (`timestamp_eq_iff`).

In the years that have four digits each number fits into its width, and the greater units stand
before the smaller ones. So timestamps sort by their bytes as local times do
(`before_of_localBefore`). A leap second is all shown as the last millisecond of its second, which is
not before any moment of that second and not after any moment of the next one.
-/

namespace MessageArchive.Calendar

open MessageArchive.Text

/-! ## Instants and local times -/

/-- The instant lies in a leap second. -/
def Instant.InLeapSecond (i : Instant) : Prop := 1000000000 ≤ i.nanos

instance (i : Instant) : Decidable i.InLeapSecond :=
  inferInstanceAs (Decidable (1000000000 ≤ i.nanos))

/-- The first instant is the earlier one. A leap second comes after all else of its second. -/
def Instant.Before (i j : Instant) : Prop :=
  i.seconds < j.seconds ∨ i.seconds = j.seconds ∧ i.nanos < j.nanos

instance (i j : Instant) : Decidable (i.Before j) :=
  inferInstanceAs (Decidable (i.seconds < j.seconds ∨ i.seconds = j.seconds ∧ i.nanos < j.nanos))

namespace Moment

variable {m m' : Moment}

/-- Milliseconds of local time since 1970 began in the zone, without the part of a millisecond that
is left. -/
def localMilliseconds (m : Moment) : Int :=
  (1000000000 * m.localSeconds + m.instant.nanos) / 1000000

/-- The local year is one of those that are written with four digits. -/
def HasFourDigitYear (m : Moment) : Prop := 0 ≤ Day.year m.day ∧ Day.year m.day ≤ 9999

instance (m : Moment) : Decidable m.HasFourDigitYear :=
  inferInstanceAs (Decidable (0 ≤ Day.year m.day ∧ Day.year m.day ≤ 9999))

/-- The local time of the first moment, as it is shown, is before that of the second. -/
def LocalBefore (m m' : Moment) : Prop :=
  m.localSeconds < m'.localSeconds ∨
    m.localSeconds = m'.localSeconds ∧ m.millisecond < m'.millisecond

/-- The time of day of the first moment, as it is shown, is before that of the second. -/
def TimeBefore (m m' : Moment) : Prop :=
  m.hour < m'.hour ∨ m.hour = m'.hour ∧
    (m.minute < m'.minute ∨ m.minute = m'.minute ∧
      (m.second < m'.second ∨ m.second = m'.second ∧ m.millisecond < m'.millisecond))

theorem hour_lt (m : Moment) : m.hour < 24 := by
  have := m.secondOfDay_lt
  simp only [hour]
  omega

theorem minute_lt (m : Moment) : m.minute < 60 := Nat.mod_lt _ (by decide)

theorem second_lt (m : Moment) : m.second < 60 := Nat.mod_lt _ (by decide)

theorem millisecond_lt (m : Moment) : m.millisecond < 1000 := by
  simp only [millisecond]
  omega

/-- The local time is the local day and the seconds since its midnight. -/
theorem localSeconds_eq (m : Moment) :
    m.localSeconds = 86400 * (m.day - epochDay) + m.secondOfDay := by
  simp only [day, secondOfDay]
  omega

/-- Outside leap seconds milliseconds are counted as they are shown. -/
theorem localMilliseconds_eq (h : ¬ m.instant.InLeapSecond) :
    m.localMilliseconds = 1000 * m.localSeconds + m.millisecond := by
  simp only [Instant.InLeapSecond] at h
  simp only [localMilliseconds, millisecond]
  omega

theorem localMilliseconds_eq_iff (h : ¬ m.instant.InLeapSecond) (h' : ¬ m'.instant.InLeapSecond) :
    m.localMilliseconds = m'.localMilliseconds ↔
      m.localSeconds = m'.localSeconds ∧ m.millisecond = m'.millisecond := by
  have := m.millisecond_lt
  have := m'.millisecond_lt
  rw [localMilliseconds_eq h, localMilliseconds_eq h']
  omega

theorem localMilliseconds_lt_iff (h : ¬ m.instant.InLeapSecond) (h' : ¬ m'.instant.InLeapSecond) :
    m.localMilliseconds < m'.localMilliseconds ↔ m.LocalBefore m' := by
  have := m.millisecond_lt
  have := m'.millisecond_lt
  rw [localMilliseconds_eq h, localMilliseconds_eq h', LocalBefore]
  omega

/-- An earlier instant does not show a later local time in the same zone. -/
theorem not_localBefore_of_before (hzone : m.zone.offset = m'.zone.offset)
    (h : m.instant.Before m'.instant) : ¬ m'.LocalBefore m := by
  simp only [Instant.Before] at h
  simp only [LocalBefore, localSeconds, millisecond]
  omega

/-- An earlier local time has an earlier date, or on one date an earlier time of day. -/
theorem dateBefore_or_timeBefore (h : m.LocalBefore m') :
    Day.DateBefore m.day m'.day ∨ m.day = m'.day ∧ m.TimeBefore m' := by
  have hm := m.localSeconds_eq
  have hm' := m'.localSeconds_eq
  have htime := m.hour_minute_second
  have htime' := m'.hour_minute_second
  have hseconds := m.secondOfDay_lt
  have hseconds' := m'.secondOfDay_lt
  have := m.minute_lt
  have := m'.minute_lt
  have := m.second_lt
  have := m'.second_lt
  simp only [LocalBefore] at h
  rw [Day.dateBefore_iff, TimeBefore]
  omega

end Moment

/-! ## The text of a timestamp -/

/-- The date as a timestamp shows it. -/
def dateText (m : Moment) : List Char :=
  padded 4 (Day.year m.day) ++ '.' ::
    (paddedNat 2 (Day.month m.day) ++ '.' :: paddedNat 2 (Day.dayOfMonth m.day))

/-- The time of day as a timestamp shows it. -/
def timeText (m : Moment) : List Char :=
  paddedNat 2 m.hour ++ '-' :: (paddedNat 2 m.minute ++ '-' ::
    (paddedNat 2 m.second ++ '.' :: paddedNat 3 m.millisecond))

theorem timestamp_eq (m : Moment) : timestamp m = dateText m ++ '_' :: timeText m := by
  simp [timestamp, timestampItems, Pattern.Item.text, Field.text, yearText, dateText, timeText]

/-- **A timestamp tells the local time to the millisecond.** -/
theorem timestamp_eq_iff {m m' : Moment} :
    timestamp m = timestamp m' ↔
      m.localSeconds = m'.localSeconds ∧ m.millisecond = m'.millisecond := by
  constructor
  · intro h
    simp only [timestamp_eq, dateText, timeText, List.append_assoc, List.cons_append] at h
    -- The numbers are peeled off one by one, each with the character behind it.
    rw [padded_append_inj rfl (by decide), paddedNat_append_inj rfl, paddedNat_append_inj rfl,
      paddedNat_append_inj rfl, paddedNat_append_inj rfl, paddedNat_append_inj rfl,
      paddedNat_inj] at h
    obtain ⟨hyear, hmonth, hday, hhour, hminute, hsecond, hmillisecond⟩ := h
    have hdate : m.day = m'.day := Day.eq_of_date hyear hmonth hday
    have htime : m.secondOfDay = m'.secondOfDay := by
      rw [← m.hour_minute_second, ← m'.hour_minute_second, hhour, hminute, hsecond]
    refine ⟨?_, hmillisecond⟩
    rw [m.localSeconds_eq, m'.localSeconds_eq, hdate, htime]
  · rintro ⟨hseconds, hmillisecond⟩
    have hday : m.day = m'.day := by rw [Moment.day, Moment.day, hseconds]
    have htime : m.secondOfDay = m'.secondOfDay := by
      rw [Moment.secondOfDay, Moment.secondOfDay, hseconds]
    simp only [timestamp_eq, dateText, timeText, Moment.hour, Moment.minute, Moment.second, hday,
      htime, hmillisecond]

/-! ## Years of four digits -/

section

variable {m m' : Moment}

theorem dateText_eq (h : m.HasFourDigitYear) :
    dateText m = paddedNat 4 (Day.year m.day).natAbs ++ '.' ::
      (paddedNat 2 (Day.month m.day) ++ '.' :: paddedNat 2 (Day.dayOfMonth m.day)) := by
  rw [dateText, padded_of_nonneg h.1]

theorem year_fits (h : m.HasFourDigitYear) : (Day.year m.day).natAbs < Nat.pow 10 4 := by
  obtain ⟨hlow, hhigh⟩ := h
  show (Day.year m.day).natAbs < 10000
  omega

theorem month_fits (day : Int) : Day.month day < Nat.pow 10 2 :=
  Nat.lt_of_le_of_lt (Day.month_le day) (by decide)

theorem dayOfMonth_fits (day : Int) : Day.dayOfMonth day < Nat.pow 10 2 :=
  Nat.lt_of_le_of_lt (Day.dayOfMonth_le day) (by decide)

theorem hour_fits (m : Moment) : m.hour < Nat.pow 10 2 := Nat.lt_trans m.hour_lt (by decide)

theorem minute_fits (m : Moment) : m.minute < Nat.pow 10 2 := Nat.lt_trans m.minute_lt (by decide)

theorem second_fits (m : Moment) : m.second < Nat.pow 10 2 := Nat.lt_trans m.second_lt (by decide)

/-! ### The order -/

theorem digitsBefore_dateText (h : m.HasFourDigitYear) (h' : m'.HasFourDigitYear)
    (hdate : Day.DateBefore m.day m'.day) : DigitsBefore (dateText m) (dateText m') := by
  have hyear := h.1
  have hyear' := h'.1
  rw [dateText_eq h, dateText_eq h']
  refine .number (by decide) (year_fits h') ?_
  rcases hdate with hlt | ⟨hsame, hdate⟩
  · exact Or.inl (by omega)
  refine Or.inr ⟨by rw [hsame], .cons '.' (.number (by decide) (month_fits _) ?_)⟩
  rcases hdate with hlt | ⟨hsame, hlt⟩
  · exact Or.inl hlt
  · exact Or.inr ⟨hsame, .cons '.' (digitsBefore_paddedNat (by decide) hlt (dayOfMonth_fits _))⟩

theorem digitsBefore_timeText (htime : m.TimeBefore m') :
    DigitsBefore (timeText m) (timeText m') := by
  unfold timeText
  refine .number (by decide) (hour_fits m') ?_
  rcases htime with hlt | ⟨hsame, htime⟩
  · exact Or.inl hlt
  refine Or.inr ⟨hsame, .cons '-' (.number (by decide) (minute_fits m') ?_)⟩
  rcases htime with hlt | ⟨hsame, htime⟩
  · exact Or.inl hlt
  refine Or.inr ⟨hsame, .cons '-' (.number (by decide) (second_fits m') ?_)⟩
  rcases htime with hlt | ⟨hsame, hlt⟩
  · exact Or.inl hlt
  · exact Or.inr ⟨hsame, .cons '.' (digitsBefore_paddedNat (by decide) hlt m'.millisecond_lt)⟩

/-- The timestamp as a text. -/
def timestampText (m : Moment) : String := String.ofList (timestamp m)

/-- The timestamp of an earlier local time comes first by its bytes. -/
theorem before_of_localBefore (h : m.HasFourDigitYear) (h' : m'.HasFourDigitYear)
    (hlocal : m.LocalBefore m') : before (timestampText m) (timestampText m') = true := by
  refine DigitsBefore.before ?_
  rw [timestamp_eq, timestamp_eq]
  rcases Moment.dateBefore_or_timeBefore hlocal with hdate | ⟨hday, htime⟩
  · exact (digitsBefore_dateText h h' hdate).append_right _ _
  · have hdate : dateText m = dateText m' := by rw [dateText, dateText, hday]
    rw [hdate]
    exact ((digitsBefore_timeText htime).cons '_').append_left (dateText m')

theorem before_iff_localBefore (h : m.HasFourDigitYear) (h' : m'.HasFourDigitYear) :
    before (timestampText m) (timestampText m') = true ↔ m.LocalBefore m' := by
  refine ⟨fun hbefore => ?_, before_of_localBefore h h'⟩
  by_cases hback : m'.LocalBefore m
  · have hself := before_trans hbefore (before_of_localBefore h' h hback)
    rw [before_irrefl] at hself
    cases hself
  by_cases hsame : m.localSeconds = m'.localSeconds ∧ m.millisecond = m'.millisecond
  · rw [timestampText, timestampText, timestamp_eq_iff.2 hsame, before_irrefl] at hbefore
    cases hbefore
  · simp only [Moment.LocalBefore] at hback ⊢
    omega

/-! ### The shape -/

/-- A digit stands where the shape has a `d`, and anywhere else what the shape has. -/
def Fits (place c : Char) : Prop := if place = 'd' then c.isDigit = true else c = place

/-- The shape of timestamps in years of four digits. -/
def timestampShape : List Char := "dddd.dd.dd_dd-dd-dd.ddd".toList

theorem fits_paddedNat {width n : Nat} (hwidth : 0 < width) (h : n < Nat.pow 10 width) :
    List.Forall₂ Fits (List.replicate width 'd') (paddedNat width n) := by
  have hlength := length_paddedNat_of_lt hwidth h
  refine List.forall₂_iff_get.2 ⟨by rw [List.length_replicate, hlength], fun i hi hi' => ?_⟩
  have hplace : (List.replicate width 'd').get ⟨i, hi⟩ = 'd' := by simp
  rw [hplace]
  exact isDigit_of_mem_paddedNat (List.get_mem _ _)

theorem fits_timestamp (h : m.HasFourDigitYear) :
    List.Forall₂ Fits timestampShape (timestamp m) := by
  have hmillisecond : m.millisecond < Nat.pow 10 3 := m.millisecond_lt
  have hdate : List.Forall₂ Fits "dddd.dd.dd".toList (dateText m) := by
    rw [dateText_eq h]
    refine List.rel_append (fits_paddedNat (by decide) (year_fits h)) (.cons rfl ?_)
    refine List.rel_append (fits_paddedNat (by decide) (month_fits _)) (.cons rfl ?_)
    exact fits_paddedNat (by decide) (dayOfMonth_fits _)
  have htime : List.Forall₂ Fits "dd-dd-dd.ddd".toList (timeText m) := by
    refine List.rel_append (fits_paddedNat (by decide) (hour_fits m)) (.cons rfl ?_)
    refine List.rel_append (fits_paddedNat (by decide) (minute_fits m)) (.cons rfl ?_)
    refine List.rel_append (fits_paddedNat (by decide) (second_fits m)) (.cons rfl ?_)
    exact fits_paddedNat (by decide) hmillisecond
  rw [timestamp_eq]
  exact List.rel_append hdate (.cons rfl htime)

end

/-! ## Two timestamps -/

/-- How the timestamps of two moments compare. -/
structure TimestampsSort (m m' : Moment) : Prop where
  /-- They are what the timestamp pattern writes. -/
  written : formatDate timestampPattern m = .ok (timestamp m) ∧
    formatDate timestampPattern m' = .ok (timestamp m')
  /-- Outside leap seconds they are the same when the local times are, to the millisecond. -/
  toldApart : ¬ m.instant.InLeapSecond → ¬ m'.instant.InLeapSecond →
    (timestamp m = timestamp m' ↔ m.localMilliseconds = m'.localMilliseconds)
  /-- In years of four digits they have one shape. -/
  shape : m.HasFourDigitYear → m'.HasFourDigitYear →
    ((timestamp m).length = 23 ∧ List.Forall₂ Fits timestampShape (timestamp m)) ∧
      (timestamp m').length = 23 ∧ List.Forall₂ Fits timestampShape (timestamp m')
  /-- Outside leap seconds they then come in the order of the local times, by their bytes. -/
  sorted : m.HasFourDigitYear → m'.HasFourDigitYear → ¬ m.instant.InLeapSecond →
    ¬ m'.instant.InLeapSecond →
    (before (timestampText m) (timestampText m') = true ↔
        m.localMilliseconds < m'.localMilliseconds) ∧
      (before (timestampText m') (timestampText m) = true ↔
        m'.localMilliseconds < m.localMilliseconds)
  /-- With leap seconds the later of two instants still does not come first. -/
  leapSeconds : m.HasFourDigitYear → m'.HasFourDigitYear → m.instant.Before m'.instant →
    before (timestampText m') (timestampText m) = false

/-- **Timestamps tell and sort local times.** Of two moments of one zone, the timestamps are the
same when the local times are, to the millisecond; and in years of four digits they sort by their
bytes as the local times do. -/
theorem timestamps_sort (m m' : Moment) (hzone : m.zone.offset = m'.zone.offset) :
    TimestampsSort m m' := by
  have hlength : ∀ x : Moment, x.HasFourDigitYear → (timestamp x).length = 23 := fun x hx =>
    (fits_timestamp hx).length_eq.symm
  refine ⟨⟨formatDate_timestampPattern m, formatDate_timestampPattern m'⟩, fun hm hm' => ?_,
    fun h h' => ⟨⟨hlength m h, fits_timestamp h⟩, hlength m' h', fits_timestamp h'⟩,
    fun h h' hm hm' => ⟨?_, ?_⟩, fun h h' hearlier => ?_⟩
  · rw [timestamp_eq_iff, Moment.localMilliseconds_eq_iff hm hm']
  · rw [before_iff_localBefore h h', Moment.localMilliseconds_lt_iff hm hm']
  · rw [before_iff_localBefore h' h, Moment.localMilliseconds_lt_iff hm' hm]
  · rw [Bool.eq_false_iff, Ne, before_iff_localBefore h' h]
    exact Moment.not_localBefore_of_before hzone hearlier

/-- The last millisecond of 1999 and midnight, half an hour east of UTC; and the leap second at the
end of 2016 and midnight. -/
theorem timestamps_sort_at_turns_of_year :
    (Zone.offset (.fixed 1800) = Zone.offset (.fixed 1800) ∧
      (⟨⟨946682999, 999999999⟩, .fixed 1800⟩ : Moment).HasFourDigitYear ∧
      (⟨⟨946683000, 0⟩, .fixed 1800⟩ : Moment).HasFourDigitYear ∧
      before (timestampText ⟨⟨946682999, 999999999⟩, .fixed 1800⟩)
        (timestampText ⟨⟨946683000, 0⟩, .fixed 1800⟩) = true) ∧
    Instant.InLeapSecond ⟨1483228799, 1500000000⟩ ∧
      Instant.Before ⟨1483228799, 1500000000⟩ ⟨1483228800, 0⟩ ∧
      before (timestampText ⟨⟨1483228800, 0⟩, .utc⟩)
        (timestampText ⟨⟨1483228799, 1500000000⟩, .utc⟩) = false := by
  refine ⟨⟨rfl, by decide, by decide, ?_⟩, by decide, by decide, ?_⟩
  · have h := timestamps_sort
      ⟨⟨946682999, 999999999⟩, .fixed 1800⟩ ⟨⟨946683000, 0⟩, .fixed 1800⟩ rfl
    exact (h.sorted (by decide) (by decide) (by decide) (by decide)).1.2 (by decide)
  · have h := timestamps_sort ⟨⟨1483228799, 1500000000⟩, .utc⟩ ⟨⟨1483228800, 0⟩, .utc⟩ rfl
    exact h.leapSeconds (by decide) (by decide) (by decide)

-- With more than four digits for the year the order is lost: 10000 comes before 9999.
example : before (timestampText ⟨⟨253402300800, 0⟩, .utc⟩)
    (timestampText ⟨⟨253402300799, 0⟩, .utc⟩) = true := by decide

end MessageArchive.Calendar
