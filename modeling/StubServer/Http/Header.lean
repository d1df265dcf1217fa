import StubServer.Text.Utf8

/-!
# Header fields

A field name is a token: one or more letters, digits and certain marks; case does not matter in it, so it
is kept in lower case. A field value is any text without control characters other than the tab.

A list of fields can hold a name several times. `set` makes a field the only one of its name, `add` puts
it after those of its name.
-/

namespace StubServer.Http

/-- The marks that a token may contain besides letters and digits. -/
def tokenMarks : List Char :=
  "!#$%&'*+-.^_\x60|~".toList

/-- A letter or digit of ASCII, or a mark. -/
def isTokenChar (c : Char) : Bool :=
  c.isAlphanum || c ∈ tokenMarks

/-- One or more token characters. -/
def isToken (s : String) : Bool :=
  !s.isEmpty && s.toList.all isTokenChar

/-- The longest field name, in octets. -/
def maxNameLength : Nat := 65535

/-- The field name that a text writes, in lower case. -/
def fieldName? (s : String) : Option String :=
  if isToken s && s.toList.length ≤ maxNameLength then some (String.ofList (s.toList.map Char.toLower))
  else none

/-- A character that may stand in a field value. -/
def isValueChar (c : Char) : Bool :=
  c == '\t' || (0x20 ≤ c.toNat && c.toNat != 0x7F)

/-- A text that can be sent as a field value. -/
def isFieldValue (s : String) : Bool :=
  s.toList.all isValueChar

/-! ## Lists of fields -/

abbrev Fields := List (String × String)

namespace Fields

/-- The values of a name, in their order. -/
def values (fields : Fields) (name : String) : List String :=
  (fields.filter (·.1 == name)).map (·.2)

/-- Whether a name has a field. -/
def has (fields : Fields) (name : String) : Bool :=
  fields.any (·.1 == name)

/-- The list in which a field is the only one of its name. -/
def set (fields : Fields) (name value : String) : Fields :=
  fields.filter (·.1 != name) ++ [(name, value)]

/-- The list with one more field. -/
def add (fields : Fields) (name value : String) : Fields :=
  fields ++ [(name, value)]

/-- The list with a field that stands only if its name had none. -/
def setIfMissing (fields : Fields) (name value : String) : Fields :=
  if fields.has name then fields else fields.add name value

end Fields

/-! ## Request identifiers -/

/-- The field that carries the identifier of a request. -/
def requestIdName : String := "x-request-id"

/-- An octet that can be shown in a log line. -/
def isVisible (b : UInt8) : Bool :=
  b == 0x09 || (0x20 ≤ b && b < 0x7F)

/-- The identifier of a request for the log: the first one sent, if all its octets can be shown. -/
def loggedId (headers : List (String × List UInt8)) : String :=
  match headers.find? fun h => h.1.toList.map Char.toLower == requestIdName.toList with
  | some (_, value) =>
    if value.all isVisible then String.ofList (value.map fun b => Char.ofNat b.toNat) else "unknown"
  | none => "unknown"

end StubServer.Http
