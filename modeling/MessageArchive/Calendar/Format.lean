import MessageArchive.Calendar.Moment
import MessageArchive.Calendar.Pattern
import MessageArchive.Text.Decimal

set_option autoImplicit false

/-! # Moments as text

`formatDate` writes a moment after a date pattern. Names of months and weekdays are English.
Numbers are filled up with zeros to the length of their run of letters; two letters of a year
write its last two digits.
-/

namespace MessageArchive.Calendar

open MessageArchive.Text

/-- The names of the months, from January on. -/
def monthNames : List String :=
  ["January", "February", "March", "April", "May", "June", "July", "August", "September",
    "October", "November", "December"]

/-- The names of the weekdays, from Monday on. -/
def weekdayNames : List String :=
  ["Monday", "Tuesday", "Wednesday", "Thursday", "Friday", "Saturday", "Sunday"]

/-- A name in full from four letters on, and its first three letters below that. -/
def nameText (names : List String) (index count : Nat) : List Char :=
  let name := (names.getD index "").toList
  if 4 ≤ count then name else name.take 3

/-- Two letters write the last two digits of a year, any other number of them fills up. -/
def yearText (count : Nat) (year : Int) : List Char :=
  if count = 2 then padded 2 (year % 100) else padded count year

/-- The sign of an offset and its hours. -/
def offsetHours (offset : Int) : List Char :=
  (if offset < 0 then '-' else '+') :: paddedNat 2 (offset.natAbs / 3600)

/-- The minutes of an offset beyond its hours. -/
def offsetMinutes (offset : Int) : List Char := paddedNat 2 (offset.natAbs % 3600 / 60)

/-- The seconds of an offset beyond its minutes. -/
def offsetSeconds (offset : Int) : List Char := paddedNat 2 (offset.natAbs % 60)

/-- A fixed zone is named after its offset, with the seconds where there are any. -/
def zoneText : Zone → List Char
  | .utc => ['U', 'T', 'C']
  | .fixed offset =>
      offsetHours offset ++ ':' :: offsetMinutes offset ++
        if offset.natAbs % 60 = 0 then [] else ':' :: offsetSeconds offset

/-- The hour of a half of the day with 12 in the place of 0. -/
def twelveForZero (hour : Nat) : Nat := if hour % 12 = 0 then 12 else hour % 12

/-- A field of a moment, written for a run of `count` letters. -/
def Field.text (m : Moment) (count : Nat) : Field → List Char
  | .era => if 0 < Day.year m.day then ['A', 'D'] else ['B', 'C']
  | .year => yearText count (Day.year m.day)
  | .weekYear => yearText count (Day.weekYear m.day)
  | .month =>
      if count ≤ 2 then paddedNat count (Day.month m.day)
      else nameText monthNames (Day.month m.day - 1) count
  | .week => paddedNat count (Day.week m.day)
  | .ordinal => paddedNat count (Day.ordinal m.day)
  | .dayOfMonth => paddedNat count (Day.dayOfMonth m.day)
  | .weekdayInMonth => paddedNat count (Day.weekdayInMonth m.day)
  | .weekdayName => nameText weekdayNames (Day.weekday m.day) count
  | .weekdayNumber => paddedNat count (Day.weekday m.day + 1)
  | .halfOfDay => if m.hour < 12 then ['A', 'M'] else ['P', 'M']
  | .hour => paddedNat count m.hour
  | .hourFromOne => paddedNat count (if m.hour = 0 then 24 else m.hour)
  | .hourOfHalf => paddedNat count (m.hour % 12)
  | .hourOfHalfFromOne => paddedNat count (twelveForZero m.hour)
  | .minute => paddedNat count m.minute
  | .second => paddedNat count m.second
  | .millisecond => paddedNat count m.millisecond
  | .zoneName => zoneText m.zone
  | .zoneOffset => offsetHours m.zone.offset ++ offsetMinutes m.zone.offset
  | .zoneOffsetOrZ =>
      let offset := m.zone.offset
      if offset = 0 then ['Z']
      else if count = 1 then offsetHours offset
      else if count = 2 then offsetHours offset ++ offsetMinutes offset
      else offsetHours offset ++ ':' :: offsetMinutes offset

/-- An item of a pattern, written for a moment. -/
def Pattern.Item.text (m : Moment) : Pattern.Item → List Char
  | .copied c => [c]
  | .field meaning count => meaning.text m count

/-- Writes a moment after a pattern. -/
def formatDate (pattern : List Char) (m : Moment) : Except Pattern.Fault (List Char) :=
  (Pattern.read pattern).map fun items => items.flatMap (Pattern.Item.text m)

/-- The pattern of the timestamp token. -/
def timestampPattern : List Char := "yyyy.MM.dd_HH-mm-ss.SSS".toList

/-- The items of the timestamp pattern. -/
def timestampItems : List Pattern.Item :=
  [.field .year 4, .copied '.', .field .month 2, .copied '.', .field .dayOfMonth 2, .copied '_',
    .field .hour 2, .copied '-', .field .minute 2, .copied '-', .field .second 2, .copied '.',
    .field .millisecond 3]

/-- The moment as the timestamp token shows it. -/
def timestamp (m : Moment) : List Char := timestampItems.flatMap (Pattern.Item.text m)

theorem read_timestampPattern : Pattern.read timestampPattern = .ok timestampItems := by
  rfl

/-- The timestamp is what the timestamp pattern writes. -/
theorem formatDate_timestampPattern (m : Moment) :
    formatDate timestampPattern m = .ok (timestamp m) := by
  simp only [formatDate, read_timestampPattern, Except.map, timestamp]

end MessageArchive.Calendar
