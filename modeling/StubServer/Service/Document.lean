import StubServer.Text.Utf8

/-!
# Documents in JSON

The values that the status pages are made of, and their text. Members keep their order.
-/

namespace StubServer

inductive Document
  | null
  | boolean (value : Bool)
  | number (value : Nat)
  | text (value : String)
  | list (items : List Document)
  | object (members : List (String × Document))

namespace Document

/-- A hexadecimal digit in lower case. -/
def hexDigit (n : Nat) : Char :=
  Nat.digitChar n

/-- What stands for a character in a quoted text. -/
def escape (c : Char) : List Char :=
  if c = '"' then ['\\', '"']
  else if c = '\\' then ['\\', '\\']
  else if c = '\n' then ['\\', 'n']
  else if c = '\r' then ['\\', 'r']
  else if c = '\t' then ['\\', 't']
  else if c = '\x08' then ['\\', 'b']
  else if c = '\x0c' then ['\\', 'f']
  else if c.toNat < 0x20 then
    ['\\', 'u', '0', '0', hexDigit (c.toNat / 16), hexDigit (c.toNat % 16)]
  else [c]

/-- A text in quotes. -/
def quote (s : String) : String :=
  String.ofList ('"' :: s.toList.flatMap escape ++ ['"'])

mutual

/-- The text of a document, without blanks. -/
def render : Document → String
  | null => "null"
  | boolean value => if value then "true" else "false"
  | number value => toString value
  | text value => quote value
  | list items => "[" ++ ",".intercalate (renderAll items) ++ "]"
  | object members => "\x7b" ++ ",".intercalate (renderMembers members) ++ "\x7d"

/-- The texts of the items of a list. -/
def renderAll : List Document → List String
  | [] => []
  | item :: rest => item.render :: renderAll rest

/-- The texts of the members of an object. -/
def renderMembers : List (String × Document) → List String
  | [] => []
  | (name, value) :: rest => (quote name ++ ":" ++ value.render) :: renderMembers rest

end

/-- A text that may be missing. -/
def ofText? : Option String → Document
  | some s => text s
  | none => null

/-- A number that may be missing. -/
def ofNumber? : Option Nat → Document
  | some n => number n
  | none => null

end Document

end StubServer
