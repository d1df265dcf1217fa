/-!
# Integer numerals

Digits are ASCII. An unsigned numeral may carry a plus sign, a signed one either sign; there must be
at least one digit, and a value outside the range of its word is no numeral.
-/

namespace StubServer.Text

/-- The value of a digit; meant for `'0'` to `'9'`. -/
def digitValue (c : Char) : Nat :=
  c.toNat - '0'.toNat

/-- The number that a sequence of decimal digits writes. -/
def digitsValue (ds : List Char) : Nat :=
  ds.foldl (fun n c => 10 * n + digitValue c) 0

/-- One or more digits and nothing else. -/
def digits? (cs : List Char) : Option Nat :=
  if !cs.isEmpty && cs.all Char.isDigit then some (digitsValue cs) else none

/-- Digits after an optional plus sign. -/
def unsigned? : List Char → Option Nat
  | '+' :: cs => digits? cs
  | cs => digits? cs

/-- Digits after an optional sign. -/
def signed? : List Char → Option Int
  | '-' :: cs => (digits? cs).map fun n => -(n : Int)
  | cs => (unsigned? cs).map fun n => (n : Int)

/-- The number of values of a word of `bits` bits. -/
def wordSize (bits : Nat) : Nat :=
  Nat.pow 2 bits

/-- Whether a signed 64-bit word holds a number. -/
def fitsInt64 (n : Int) : Bool :=
  -(wordSize 63 : Int) ≤ n && n < wordSize 63

/-- An unsigned numeral of a word of `bits` bits. -/
def word? (bits : Nat) (cs : List Char) : Option Nat :=
  (unsigned? cs).filter (· < wordSize bits)

/-- A signed numeral of a 64-bit word. -/
def int64? (cs : List Char) : Option Int :=
  (signed? cs).filter fitsInt64

/-- A decimal numeral of at least `width` digits, filled with zeros on the left. -/
def padded (width n : Nat) : String :=
  let ds := toString n
  String.ofList (List.replicate (width - ds.length) '0') ++ ds

/-- The value of a hexadecimal digit of either case. -/
def hexValue? (c : Char) : Option Nat :=
  if c.isDigit then some (c.toNat - '0'.toNat)
  else if 'a' ≤ c && c ≤ 'f' then some (c.toNat - 'a'.toNat + 10)
  else if 'A' ≤ c && c ≤ 'F' then some (c.toNat - 'A'.toNat + 10)
  else none

/-- The number that a sequence of digits writes in a base, each digit given by its value. -/
def positional (base : Nat) (values : List Nat) : Nat :=
  values.foldl (fun n d => base * n + d) 0

theorem digitsValue_append (a b : List Char) :
    digitsValue (a ++ b) = digitsValue a * Nat.pow 10 b.length + digitsValue b := by
  have go : ∀ (b : List Char) (n : Nat),
      b.foldl (fun n c => 10 * n + digitValue c) n = n * Nat.pow 10 b.length + digitsValue b := by
    intro b
    induction b with
    | nil => simp [digitsValue]
    | cons c b ih =>
      intro n
      simp only [List.foldl_cons, List.length_cons, digitsValue]
      have hpow : Nat.pow 10 (b.length + 1) = Nat.pow 10 b.length * 10 := rfl
      rw [ih, ih (10 * 0 + digitValue c), hpow]
      simp only [Nat.mul_zero, Nat.zero_add, Nat.add_mul, Nat.add_assoc]
      rw [Nat.mul_comm 10 n, Nat.mul_assoc, Nat.mul_comm 10]
  rw [digitsValue, List.foldl_append]
  exact go b _

end StubServer.Text
