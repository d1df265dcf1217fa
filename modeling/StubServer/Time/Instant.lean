import StubServer.Text.Numeral
import StubServer.Time.Date

/-!
# Instants

An instant of Universal Time is a number of seconds since 1970-01-01 and a part of a second. A leap
second has no number of its own: it continues the second before it, so its nanoseconds lie between one
and two thousand million.
-/

namespace StubServer.Time

structure Instant where
  seconds : Int
  nanos : Nat
  deriving DecidableEq, Repr

namespace Instant

/-- The start of 1970. -/
def epoch : Instant := ⟨0, 0⟩

/-- The nanoseconds of a second. -/
def nanosPerSecond : Nat := 1000000000

/-- The seconds of a day. -/
def secondsPerDay : Nat := 86400

/-- The years that have instants, from first to last. -/
def firstYear : Int := -262143

@[inherit_doc firstYear]
def lastYear : Int := 262142

/-- The number of the day of an instant. -/
def dayNumber (t : Instant) : Int :=
  t.seconds.fdiv secondsPerDay

/-- The seconds of an instant since its day began. -/
def secondOfDay (t : Instant) : Nat :=
  (t.seconds.fmod secondsPerDay).toNat

/-- The date of an instant. -/
def date (t : Instant) : Date :=
  .ofNumber t.dayNumber

/-- The year of an instant. -/
def year (t : Instant) : Int :=
  t.date.year

/-- Whether an instant lies in the years that have instants. -/
def InRange (t : Instant) : Prop :=
  (Date.mk firstYear 1 1).number * secondsPerDay ≤ t.seconds ∧
    t.seconds < (Date.mk (lastYear + 1) 1 1).number * secondsPerDay

instance (t : Instant) : Decidable t.InRange :=
  inferInstanceAs (Decidable (_ ∧ _))

/-- Whether an instant lies in a leap second. -/
def isLeap (t : Instant) : Bool :=
  nanosPerSecond ≤ t.nanos

/-- The instant a number of seconds and nanoseconds of one sign later, both counted from whole seconds
without leap. -/
def shift (seconds : Int) (nanos : Int) : Instant :=
  ⟨seconds + nanos.fdiv nanosPerSecond, (nanos.fmod nanosPerSecond).toNat⟩

/-- The instant a signed number of nanoseconds later. Within a leap second a step that stays above the
second before it only moves the nanoseconds; a step that leaves it counts from the end of the second that
it continues, forward, and from the second after, backward. -/
def advance (t : Instant) (duration : Int) : Instant :=
  let seconds := duration.tdiv nanosPerSecond
  let nanos := duration.tmod nanosPerSecond
  if t.isLeap then
    if 0 < seconds ∨ (0 < nanos ∧ 2 * nanosPerSecond ≤ t.nanos + nanos) then
      shift (t.seconds + seconds) (t.nanos - nanosPerSecond + nanos)
    else if seconds < 0 then
      shift (t.seconds + 1 + seconds) (t.nanos - nanosPerSecond + nanos)
    else ⟨t.seconds, (t.nanos + nanos).toNat⟩
  else shift (t.seconds + seconds) (t.nanos + nanos)

/-- The instant a signed number of nanoseconds later, if there is one. -/
def add? (t : Instant) (duration : Int) : Option Instant :=
  let later := t.advance duration
  if later.InRange then some later else none

/-! ## Texts -/

/-- The second of the minute of an instant; a leap second is the sixtieth. -/
def secondOfMinute (t : Instant) : Nat :=
  t.secondOfDay % 60 + if t.isLeap then 1 else 0

/-- The time of day, as `12:34:56`. -/
def clock (t : Instant) : String :=
  let minutes := t.secondOfDay / 60
  s!"{Text.padded 2 (minutes / 60)}:{Text.padded 2 (minutes % 60)}:{Text.padded 2 t.secondOfMinute}"

/-- A year of four digits at least; one that needs more, or lies before year 0, has a sign. -/
def yearText (year : Int) : String :=
  if 0 ≤ year ∧ year < 10000 then Text.padded 4 year.toNat
  else (if year < 0 then "-" else "+") ++ Text.padded 4 year.natAbs

/-- The English abbreviations of the days of the week, from Sunday. -/
def weekdayNames : List String :=
  ["Sun", "Mon", "Tue", "Wed", "Thu", "Fri", "Sat"]

/-- The English abbreviations of the months. -/
def monthNames : List String :=
  ["Jan", "Feb", "Mar", "Apr", "May", "Jun", "Jul", "Aug", "Sep", "Oct", "Nov", "Dec"]

/-- The date format of HTTP headers, as `Wed, 02 Jan 2030 03:04:05 GMT`. -/
def httpDate (t : Instant) : String :=
  let date := t.date
  let weekday := weekdayNames[Date.weekday t.dayNumber]?.getD ""
  let month := monthNames[date.month - 1]?.getD ""
  s!"{weekday}, {Text.padded 2 date.day} {month} {yearText date.year} {t.clock} GMT"

/-- The part of a second in as few groups of three digits as hold it. -/
def fractionText (nanos : Nat) : String :=
  if nanos = 0 then ""
  else if nanos % 1000000 = 0 then "." ++ Text.padded 3 (nanos / 1000000)
  else if nanos % 1000 = 0 then "." ++ Text.padded 6 (nanos / 1000)
  else "." ++ Text.padded 9 nanos

/-- The date and time with a `T` between them and a `Z` at the end. -/
def timestamp (t : Instant) : String :=
  let date := t.date
  s!"{yearText date.year}-{Text.padded 2 date.month}-{Text.padded 2 date.day}T{t.clock}" ++
    fractionText (t.nanos % nanosPerSecond) ++ "Z"

end Instant

end StubServer.Time
