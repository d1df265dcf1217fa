import StubServer.Text.Numeral
import StubServer.Time.Timestamp
import StubServer.Toml.Value

/-!
# The lexemes of TOML

Keys, strings, numbers and dates. A `Reader` reads one thing from the front of a text and hands on the rest.
Strings are read character by character; their fuel is the length of the text, which no string exceeds.
-/

namespace StubServer.Toml

open Text Time.Timestamp

abbrev Reader (α : Type) := List Char → Option (α × List Char)

/-! ## Blanks -/

/-- A character that may stand in a string or a comment as it is. -/
def isPlain (c : Char) : Bool :=
  c == '\t' || (0x20 ≤ c.toNat && c.toNat != 0x7F)

/-- Spaces and tabs. -/
def skipSpaces (cs : List Char) : List Char :=
  cs.dropWhile fun c => c == ' ' || c == '\t'

/-- The rest after the end of a line. -/
def newline? : List Char → Option (List Char)
  | '\n' :: rest => some rest
  | '\r' :: '\n' :: rest => some rest
  | _ => none

/-- The rest after a comment, if one comes next. -/
def skipComment : List Char → List Char
  | '#' :: rest => rest.dropWhile isPlain
  | cs => cs

/-- Spaces, ends of lines and comments, as far as the fuel lasts. -/
def skipLines : Nat → List Char → List Char
  | 0, cs => cs
  | fuel + 1, cs =>
    let rest := skipComment (skipSpaces cs)
    match newline? rest with
    | some rest => skipLines fuel rest
    | none => rest

/-! ## Strings -/

/-- The character that `n` hexadecimal digits write. -/
def scalar? (n : Nat) (cs : List Char) : Option (Char × List Char) :=
  match (cs.take n).mapM hexValue? with
  | none => none
  | some ds =>
    let code := positional 16 ds
    if ds.length = n ∧ code.isValidChar then some (Char.ofNat code, cs.drop n) else none

/-- The character that an escape means, after its backslash. -/
def escape? : Reader Char
  | 'b' :: rest => some ('\x08', rest)
  | 't' :: rest => some ('\t', rest)
  | 'n' :: rest => some ('\n', rest)
  | 'f' :: rest => some ('\x0c', rest)
  | 'r' :: rest => some ('\r', rest)
  | '"' :: rest => some ('"', rest)
  | '\\' :: rest => some ('\\', rest)
  | 'u' :: rest => scalar? 4 rest
  | 'U' :: rest => scalar? 8 rest
  | _ => none

/-- A string of one line, after its opening quote, with the characters read so far in reverse. -/
def basicString : Nat → List Char → Reader String
  | 0, _, _ => none
  | fuel + 1, read, cs =>
    match cs with
    | [] => none
    | '"' :: rest => some (String.ofList read.reverse, rest)
    | '\\' :: rest =>
      match escape? rest with
      | some (c, rest) => basicString fuel (c :: read) rest
      | none => none
    | c :: rest => if isPlain c then basicString fuel (c :: read) rest else none

/-- A string of one line without escapes, after its opening apostrophe. -/
def literalString (cs : List Char) : Option (String × List Char) :=
  match cs.dropWhile fun c => isPlain c && c != '\'' with
  | '\'' :: rest => some (String.ofList (cs.takeWhile fun c => isPlain c && c != '\''), rest)
  | _ => none

/-- The rest after the blanks that a backslash at the end of a line takes out, if it does. -/
def joinedLine? (fuel : Nat) (cs : List Char) : Option (List Char) :=
  (newline? (skipSpaces cs)).map (skip fuel)
where
  /-- Spaces and ends of lines. -/
  skip : Nat → List Char → List Char
    | 0, cs => cs
    | fuel + 1, cs =>
      let rest := skipSpaces cs
      match newline? rest with
      | some rest => skip fuel rest
      | none => rest

/-- A string of several lines, after the opening: `quote` repeated three times closes it, and up to two more
may stand before that. The end of a line counts as a line feed. -/
def multilineString (quote : Char) (escapes : Bool) : Nat → List Char → Reader String
  | 0, _, _ => none
  | fuel + 1, read, cs =>
    let run := (cs.takeWhile (· == quote)).length
    if 5 < run then none
    else if 3 ≤ run then
      some (String.ofList (List.replicate (run - 3) quote ++ read).reverse, cs.drop run)
    else if 0 < run then
      multilineString quote escapes fuel (List.replicate run quote ++ read) (cs.drop run)
    else
      match newline? cs with
      | some rest => multilineString quote escapes fuel ('\n' :: read) rest
      | none =>
        match cs with
        | [] => none
        | c :: rest =>
          if c == '\\' && escapes then
            match joinedLine? fuel rest with
            | some rest => multilineString quote escapes fuel read rest
            | none =>
              match escape? rest with
              | some (c, rest) => multilineString quote escapes fuel (c :: read) rest
              | none => none
          else if isPlain c then multilineString quote escapes fuel (c :: read) rest
          else none

/-- A string of any of the four kinds. A line end right after the opening of several lines is left out. -/
def string? (cs : List Char) : Option (String × List Char) :=
  let fuel := cs.length
  match cs with
  | '"' :: '"' :: '"' :: rest => multilineString '"' true fuel [] ((newline? rest).getD rest)
  | '\'' :: '\'' :: '\'' :: rest => multilineString '\'' false fuel [] ((newline? rest).getD rest)
  | '"' :: rest => basicString fuel [] rest
  | '\'' :: rest => literalString rest
  | _ => none

/-! ## Keys -/

/-- A character of a key without quotes. -/
def isBareKeyChar (c : Char) : Bool :=
  c.isAlphanum || c == '-' || c == '_'

/-- One name of a key. -/
def name? (cs : List Char) : Option (String × List Char) :=
  match cs with
  | '"' :: rest => basicString cs.length [] rest
  | '\'' :: rest => literalString rest
  | _ =>
    let name := cs.takeWhile isBareKeyChar
    if name.isEmpty then none else some (String.ofList name, cs.dropWhile isBareKeyChar)

/-- The longest path that a key can have. -/
def maxKeyLength : Nat := 79

/-- The names of a key, with points between them; at most `n` of them. -/
def names? : Nat → Reader (List String)
  | 0, _ => none
  | n + 1, cs =>
    match name? cs with
    | none => none
    | some (name, rest) =>
      match skipSpaces rest with
      | '.' :: more =>
        match names? n (skipSpaces more) with
        | some (path, rest) => some (name :: path, rest)
        | none => none
      | _ => some ([name], rest)

/-- A key as the path to it and its last name. -/
def key? (cs : List Char) : Option ((List String × String) × List Char) :=
  match names? maxKeyLength cs with
  | some (path, rest) => path.getLast?.map fun name => ((path.dropLast, name), rest)
  | none => none

/-! ## Numbers and dates -/

/-- Digits with single underscores between them. -/
def digitRun? (isDigit : Char → Bool) (cs : List Char) : Option (List Char × List Char) :=
  let run := cs.takeWhile fun c => isDigit c || c == '_'
  if (run.splitOn '_').any List.isEmpty then none
  else some (run.filter (· != '_'), cs.drop run.length)

/-- An optional sign; whether it is a minus. -/
def sign : List Char → Bool × List Char
  | '-' :: rest => (true, rest)
  | '+' :: rest => (false, rest)
  | cs => (false, cs)

/-- Digits after a point, if there is one. -/
def decimals? : Reader (List Char)
  | '.' :: rest => digitRun? Char.isDigit rest
  | cs => some ([], cs)

/-- The power of ten after the letter for it, if there is one. -/
def exponent? (cs : List Char) : Option (Option Int × List Char) :=
  match cs with
  | c :: rest =>
    if c == 'e' || c == 'E' then
      let (negative, rest) := sign rest
      match digitRun? Char.isDigit rest with
      | some (ds, rest) =>
        let n : Int := digitsValue ds
        some (some (if negative then -n else n), rest)
      | none => none
    else some (none, cs)
  | [] => some (none, cs)

/-- The least number that a double cannot hold, because it rounds to infinity. -/
def floatBound : Nat := Nat.pow 2 1024 - Nat.pow 2 970

/-- Whether digits times a power of ten are a finite double. -/
def isFinite (ds : List Char) (power : Int) : Bool :=
  let ds := ds.dropWhile (· == '0')
  let magnitude := ds.length + power
  if ds.isEmpty || magnitude < 300 then true
  else if 400 < magnitude then false
  else if 0 ≤ power then digitsValue ds * Nat.pow 10 power.toNat < floatBound
  else digitsValue ds < floatBound * Nat.pow 10 (-power).toNat

/-- The value of an integer that fits 64 bits. -/
def integer? (negative : Bool) (n : Nat) : Option Value :=
  let value : Int := if negative then -(n : Int) else n
  if fitsInt64 value then some (.integer value) else none

/-- An integer in a base other than ten. -/
def based? (base : Nat) (cs : List Char) : Option (Value × List Char) :=
  match digitRun? (fun c => (hexValue? c).any (· < base)) cs with
  | some (ds, rest) => (integer? false (positional base (ds.filterMap hexValue?))).map (·, rest)
  | none => none

/-- A number in decimal digits, after its sign. -/
def decimal? (negative : Bool) (cs : List Char) : Option (Value × List Char) := do
  let (whole, rest) ← digitRun? Char.isDigit cs
  if whole.head? = some '0' ∧ rest.length + 1 ≠ cs.length then none
  else
    let (fraction, rest) ← decimals? rest
    let (power, rest) ← exponent? rest
    if fraction.isEmpty && power.isNone then
      (integer? negative (digitsValue whole)).map (·, rest)
    else if negative || isFinite (whole ++ fraction) (power.getD 0 - fraction.length) then
      some (.float (String.ofList (cs.take (cs.length - rest.length))), rest)
    else none

/-- One of the words for a number that has no digits. -/
def special? : Reader Value
  | 'i' :: 'n' :: 'f' :: rest => some (.float "inf", rest)
  | 'n' :: 'a' :: 'n' :: rest => some (.float "nan", rest)
  | _ => none

/-- A number of any form. -/
def number? (cs : List Char) : Option (Value × List Char) :=
  match cs with
  | '0' :: 'x' :: rest => based? 16 rest
  | '0' :: 'o' :: rest => based? 8 rest
  | '0' :: 'b' :: rest => based? 2 rest
  | _ =>
    let (negative, rest) := sign cs
    (special? rest).orElse fun _ => decimal? negative rest

/-- A time of day. -/
def clock? (cs : List Char) : Option (List Char) := do
  let (hour, cs) ← fixed? 2 cs
  let cs ← skip? [':'] cs
  let (minute, cs) ← fixed? 2 cs
  let cs ← skip? [':'] cs
  let (second, cs) ← fixed? 2 cs
  if 24 ≤ hour ∨ 60 ≤ minute ∨ 60 < second then none
  else
    match cs with
    | '.' :: rest =>
      let ds := rest.takeWhile Char.isDigit
      if ds.isEmpty then none else some (rest.drop ds.length)
    | _ => some cs

/-- An offset from Universal Time with an ASCII sign. -/
def zone? : List Char → Option (List Char)
  | '\u2212' :: _ => none
  | cs => (offset? cs).map (·.2)

/-- A calendar date. -/
def date? (cs : List Char) : Option (List Char) := do
  let (year, cs) ← fixed? 4 cs
  let cs ← skip? ['-'] cs
  let (month, cs) ← fixed? 2 cs
  let cs ← skip? ['-'] cs
  let (day, cs) ← fixed? 2 cs
  if (Time.Date.mk year month day).IsValid then some cs else none

/-- A date, a time, or both, with an offset or without. -/
def moment? (cs : List Char) : Option (Value × List Char) :=
  let rest := match date? cs with
    | some rest =>
      match (skip? ['T', 't', ' '] rest).bind clock? with
      | some rest => some ((zone? rest).getD rest)
      | none => some rest
    | none => clock? cs
  rest.map fun rest => (.moment (String.ofList (cs.take (cs.length - rest.length))), rest)

end StubServer.Toml
