import StubServer.Time.Instant

/-!
# Reading timestamps

The Internet profile of date and time: `2030-05-01T10:00:00.5+02:00`. The letters may be small, a space may
stand for the `T`, a second may be the sixtieth, digits of a fraction past the ninth are skipped, and the
minus of an offset may be U+2212. Each field is read from the front of the text and hands on the rest.
-/

namespace StubServer.Time.Timestamp

open Text

/-- A number of exactly `n` digits. -/
def fixed? (n : Nat) (cs : List Char) : Option (Nat × List Char) :=
  let ds := cs.take n
  if ds.length = n ∧ ds.all Char.isDigit then some (digitsValue ds, cs.drop n) else none

/-- The rest after one of the given characters. -/
def skip? (allowed : List Char) : List Char → Option (List Char)
  | c :: cs => if c ∈ allowed then some cs else none
  | [] => none

/-- The nanoseconds of a fraction, if a point comes next; at least one digit follows a point. -/
def fraction? : List Char → Option (Nat × List Char)
  | '.' :: cs =>
    let ds := (cs.takeWhile Char.isDigit).take 9
    if ds.isEmpty then none
    else some (digitsValue ds * Nat.pow 10 (9 - ds.length), cs.dropWhile Char.isDigit)
  | cs => some (0, cs)

/-- The seconds by which local time is ahead of Universal Time. -/
def offset? : List Char → Option (Int × List Char)
  | 'Z' :: cs => some (0, cs)
  | 'z' :: cs => some (0, cs)
  | sign :: cs => do
    let factor : Int ←
      if sign = '+' then some 1 else if sign = '-' ∨ sign = '\u2212' then some (-1) else none
    let (hours, cs) ← fixed? 2 cs
    let cs ← skip? [':'] cs
    let (minutes, cs) ← fixed? 2 cs
    if hours < 24 ∧ minutes < 60 then some (factor * (hours * 3600 + minutes * 60 : Nat), cs) else none
  | [] => none

/-- The instant that a timestamp writes. -/
def parse? (cs : List Char) : Option Instant := do
  let (year, cs) ← fixed? 4 cs
  let cs ← skip? ['-'] cs
  let (month, cs) ← fixed? 2 cs
  let cs ← skip? ['-'] cs
  let (day, cs) ← fixed? 2 cs
  let cs ← skip? ['T', 't', ' '] cs
  let (hour, cs) ← fixed? 2 cs
  let cs ← skip? [':'] cs
  let (minute, cs) ← fixed? 2 cs
  let cs ← skip? [':'] cs
  let (second, cs) ← fixed? 2 cs
  let (nanos, cs) ← fraction? cs
  let (offset, cs) ← offset? cs
  let date := Date.mk year month day
  if date.IsValid ∧ hour < 24 ∧ minute < 60 ∧ second ≤ 60 ∧ cs = [] then
    let leap := if second = 60 then 1 else 0
    let ofDay := hour * 3600 + minute * 60 + (second - leap)
    some ⟨date.number * Instant.secondsPerDay + ofDay - offset, nanos + leap * Instant.nanosPerSecond⟩
  else none

end StubServer.Time.Timestamp
