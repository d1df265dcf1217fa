/-!
# Calendar dates

The proleptic Gregorian calendar, with a day counted from 1970-01-01. Years are taken to start in March,
so that the leap day is the last of its year; then a day's place in its era of 400 years gives the year,
and its place in the year gives the month.
-/

namespace StubServer.Time

structure Date where
  year : Int
  month : Nat
  day : Nat
  deriving DecidableEq, Repr

/-- Every fourth year is a leap year, except the centuries that 400 does not divide. -/
def isLeapYear (year : Int) : Bool :=
  year % 4 == 0 && (year % 100 != 0 || year % 400 == 0)

/-- The number of days of a month. -/
def daysInMonth (year : Int) (month : Nat) : Nat :=
  if month = 2 then (if isLeapYear year then 29 else 28)
  else if month = 4 ∨ month = 6 ∨ month = 9 ∨ month = 11 then 30
  else 31

namespace Date

/-- A date has a month of the year and a day of that month. -/
def IsValid (d : Date) : Prop :=
  1 ≤ d.month ∧ d.month ≤ 12 ∧ 1 ≤ d.day ∧ d.day ≤ daysInMonth d.year d.month

instance (d : Date) : Decidable d.IsValid :=
  inferInstanceAs (Decidable (_ ∧ _))

/-- The days of an era of 400 years. -/
def daysPerEra : Nat := 146097

/-- The days from 0000-03-01 to 1970-01-01. -/
def epochOffset : Int := 719468

/-- The number of a day; 1970-01-01 is day 0. -/
def number (d : Date) : Int :=
  let year := if d.month ≤ 2 then d.year - 1 else d.year
  let era := year.fdiv 400
  let yearOfEra := year - era * 400
  let monthFromMarch : Int := (d.month + 9) % 12
  let dayOfYear := (153 * monthFromMarch + 2).fdiv 5 + d.day - 1
  let dayOfEra := yearOfEra * 365 + yearOfEra.fdiv 4 - yearOfEra.fdiv 100 + dayOfYear
  era * daysPerEra + dayOfEra - epochOffset

/-- The date of a day's number. -/
def ofNumber (n : Int) : Date :=
  let shifted := n + epochOffset
  let era := shifted.fdiv daysPerEra
  let dayOfEra := shifted - era * daysPerEra
  let yearOfEra :=
    (dayOfEra - dayOfEra.fdiv 1460 + dayOfEra.fdiv 36524 - dayOfEra.fdiv 146096).fdiv 365
  let dayOfYear := dayOfEra - (365 * yearOfEra + yearOfEra.fdiv 4 - yearOfEra.fdiv 100)
  let monthFromMarch := (5 * dayOfYear + 2).fdiv 153
  let day := dayOfYear - (153 * monthFromMarch + 2).fdiv 5 + 1
  let month := if monthFromMarch < 10 then monthFromMarch + 3 else monthFromMarch - 9
  let year := yearOfEra + era * 400
  ⟨if month ≤ 2 then year + 1 else year, month.toNat, day.toNat⟩

/-- The day of the week of a day's number, with Sunday as 0. -/
def weekday (n : Int) : Nat :=
  ((n + 4).fmod 7).toNat

example : (Date.mk 1970 1 1).number = 0 ∧ (Date.mk 2000 2 29).number = 11016 := by decide

example : ofNumber 0 = ⟨1970, 1, 1⟩ ∧ ofNumber 11016 = ⟨2000, 2, 29⟩ ∧ ofNumber (-1) = ⟨1969, 12, 31⟩ := by
  decide

example : weekday 0 = 4 := by decide

end Date

end StubServer.Time
