import MessageArchive.Calendar.Day

set_option autoImplicit false

/-! # Instants, zones and local time

An instant counts seconds since 1970-01-01T00:00:00Z. Seen from a zone it has a local date and a
local time of day. A leap second is an instant whose nanoseconds are a thousand million or more;
it belongs to the second it prolongs, and its milliseconds stay at 999.
-/

namespace MessageArchive.Calendar

/-- A point in time. -/
structure Instant where
  /-- Whole seconds since the start of 1970 in UTC. -/
  seconds : Int
  /-- Nanoseconds since the start of that second. -/
  nanos : Nat := 0
  deriving DecidableEq, Repr

/-- The zone a clock is set to. -/
inductive Zone where
  /-- Coordinated universal time, known by its name. -/
  | utc
  /-- A fixed number of seconds east of it. -/
  | fixed (offset : Int)
  deriving DecidableEq, Repr

/-- Seconds east of UTC. -/
def Zone.offset : Zone → Int
  | .utc => 0
  | .fixed offset => offset

/-- An instant as a clock in a zone shows it. -/
structure Moment where
  instant : Instant
  zone : Zone := .utc
  deriving DecidableEq, Repr

namespace Moment

/-- The day that 1 January 1970 is. -/
def epochDay : Int := Year.start 1970

/-- Seconds of local time since 1970 began in the zone. -/
def localSeconds (m : Moment) : Int := m.instant.seconds + m.zone.offset

/-- The local day. -/
def day (m : Moment) : Int := epochDay + m.localSeconds / 86400

/-- Seconds since local midnight. -/
def secondOfDay (m : Moment) : Nat := (m.localSeconds % 86400).toNat

def hour (m : Moment) : Nat := m.secondOfDay / 3600

def minute (m : Moment) : Nat := m.secondOfDay / 60 % 60

def second (m : Moment) : Nat := m.secondOfDay % 60

/-- Milliseconds of the second; all of a leap second is its millisecond 999. -/
def millisecond (m : Moment) : Nat := min (m.instant.nanos / 1000000) 999

/-- Hour, minute and second make up the seconds since midnight. -/
theorem hour_minute_second (m : Moment) :
    3600 * m.hour + 60 * m.minute + m.second = m.secondOfDay := by
  simp only [hour, minute, second]
  omega

theorem secondOfDay_lt (m : Moment) : m.secondOfDay < 86400 := by
  simp only [secondOfDay]
  omega

end Moment

end MessageArchive.Calendar
