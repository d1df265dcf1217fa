import StubServer.Text.Numeral
import StubServer.Text.Quoted

/-!
# Duration literals

A duration is a signed sequence of components such as `1h30m` or `1.5s`, or the bare `0`; its value is a
number of nanoseconds. A component is a decimal number and a unit: the digits of the number, with at most
one point among or around them, then every character up to the next digit or point.

Reading has two halves. `scan` finds the components and the first defect of form, and looks at no value.
`total` adds the values up, and what goes wrong there hides any defect further on, because the components
are read and added from left to right. A total that is too large is refused. The sum of the two halves of
one component is not watched, though: the program stops if it is too large for a word.
-/

namespace StubServer.Duration

open Text

inductive TimeUnit
  | nanosecond
  | microsecond
  | millisecond
  | second
  | minute
  | hour
  deriving DecidableEq, Repr

/-- The length of a unit in nanoseconds. -/
def TimeUnit.nanos : TimeUnit → Nat
  | nanosecond => 1
  | microsecond => 1000
  | millisecond => 1000000
  | second => 1000000000
  | minute => 60 * 1000000000
  | hour => 60 * 60 * 1000000000

/-- The unit of a given spelling; microseconds have the micro sign and the Greek letter besides `us`. -/
def TimeUnit.ofText? (cs : List Char) : Option TimeUnit :=
  if cs = ['n', 's'] then some nanosecond
  else if cs = ['u', 's'] ∨ cs = ['\u00B5', 's'] ∨ cs = ['\u03BC', 's'] then some microsecond
  else if cs = ['m', 's'] then some millisecond
  else if cs = ['s'] then some second
  else if cs = ['m'] then some minute
  else if cs = ['h'] then some hour
  else none

/-- A number with its unit: the digits before and after the point. -/
structure Component where
  whole : List Char
  fraction : List Char
  unit : TimeUnit
  deriving DecidableEq, Repr

/-- What keeps a text from having a value. All but the last are reasons to refuse it; at a `crash` the
program stops and refuses nothing. -/
inductive Fault
  | invalid
  | missingUnit
  | unknownUnit (unit : String)
  | overflow
  | crash
  deriving DecidableEq, Repr

/-- The wording of a fault in a literal; a crash has no literal to name. -/
def Fault.message (input : String) : Fault → String
  | invalid => s!"invalid duration {quoted input}"
  | missingUnit => s!"missing unit in duration {quoted input}"
  | unknownUnit unit => s!"unknown unit {quoted unit} in duration {quoted input}"
  | overflow => s!"duration {quoted input} out of range"
  | crash => "attempt to add with overflow"

/-! ## Form -/

/-- The digits after a point, if a point comes next, and the rest. -/
def splitFraction : List Char → List Char × List Char
  | '.' :: cs => (cs.takeWhile Char.isDigit, cs.dropWhile Char.isDigit)
  | cs => ([], cs)

/-- A unit goes on until the next number starts. -/
def isUnitChar (c : Char) : Bool :=
  c != '.' && !c.isDigit

/-- The first component of a text and the rest of it. -/
def readComponent (cs : List Char) : Except Fault (Component × List Char) :=
  let whole := cs.takeWhile Char.isDigit
  let (fraction, tail) := splitFraction (cs.dropWhile Char.isDigit)
  if whole.isEmpty && fraction.isEmpty then .error .invalid
  else
    let unit := tail.takeWhile isUnitChar
    if unit.isEmpty then .error .missingUnit
    else
      match TimeUnit.ofText? unit with
      | none => .error (.unknownUnit (String.ofList unit))
      | some u => .ok (⟨whole, fraction, u⟩, tail.dropWhile isUnitChar)

theorem splitFraction_length (cs : List Char) : (splitFraction cs).2.length ≤ cs.length := by
  unfold splitFraction
  split
  · have := (List.dropWhile_sublist (l := ‹List Char›) Char.isDigit).length_le
    simp only [List.length_cons]
    omega
  · exact Nat.le_refl _

/-- A component has a unit, so reading one leaves less to read. -/
theorem readComponent_length {cs rest : List Char} {c : Component}
    (h : readComponent cs = .ok (c, rest)) : rest.length < cs.length := by
  simp only [readComponent] at h
  repeat' split at h
  all_goals try cases h
  next hunit _ _ _ =>
    have hdigits := (List.dropWhile_sublist (l := cs) Char.isDigit).length_le
    have hfraction := splitFraction_length (cs.dropWhile Char.isDigit)
    have hsplit := congrArg List.length (List.takeWhile_append_dropWhile (p := isUnitChar)
      (l := (splitFraction (cs.dropWhile Char.isDigit)).2))
    have hpos : 0 < ((splitFraction (cs.dropWhile Char.isDigit)).2.takeWhile isUnitChar).length := by
      simpa [List.length_pos_iff] using hunit
    simp only [List.length_append] at hsplit
    omega

/-- The components of a text up to the first defect, and that defect. -/
def scan (cs : List Char) : List Component × Option Fault :=
  if cs.isEmpty then ([], none)
  else
    match h : readComponent cs with
    | .error fault => ([], some fault)
    | .ok (component, rest) =>
      have := readComponent_length h
      let (components, fault) := scan rest
      (component :: components, fault)
termination_by cs.length

/-! ## Value -/

/-- Digits of a fraction beyond this many are not looked at. -/
def fractionDigits : Nat := 18

/-- The nanoseconds that the fraction of a component adds, rounded down. -/
def Component.fractionNanos (c : Component) : Nat :=
  let digits := c.fraction.take fractionDigits
  digitsValue digits * c.unit.nanos / Nat.pow 10 digits.length

/-- The nanoseconds of a component as a 128-bit word. A whole part that does not fit one is out of range,
but that the fraction fits as well is taken for granted. -/
def Component.nanos (c : Component) : Except Fault Nat :=
  let whole := digitsValue c.whole * c.unit.nanos
  if wordSize 128 ≤ whole then .error .overflow
  else if wordSize 128 ≤ whole + c.fractionNanos then .error .crash
  else .ok (whole + c.fractionNanos)

/-- The largest number of nanoseconds that a duration can have, of either sign. -/
def maxNanos : Nat := wordSize 63 - 1

/-- The sum of a list of components, added to `sum`; it is out of range once it passes `maxNanos`. -/
def total (sum : Nat) : List Component → Except Fault Nat
  | [] => .ok sum
  | c :: rest =>
    match c.nanos with
    | .error fault => .error fault
    | .ok n => if sum + n ≤ maxNanos then total (sum + n) rest else .error .overflow

/-- The nanoseconds of a literal without a sign. -/
def magnitude (cs : List Char) : Except Fault Nat :=
  if cs = ['0'] then .ok 0
  else if cs.isEmpty then .error .invalid
  else
    let (components, fault) := scan cs
    match total 0 components, fault with
    | .error fault, _ => .error fault
    | .ok _, some fault => .error fault
    | .ok sum, none => .ok sum

/-- The nanoseconds of a duration literal. -/
def parse (cs : List Char) : Except Fault Int :=
  match cs with
  | '-' :: cs => (magnitude cs).map fun n => -(n : Int)
  | '+' :: cs => (magnitude cs).map fun n => (n : Int)
  | cs => (magnitude cs).map fun n => (n : Int)

end StubServer.Duration
