import StubServer.Text.Unprintable

/-!
# Quoted text

Messages show a text from the user between double quotes. Inside, a quote and a backslash follow a
backslash, the common controls have their letters, and every other unprintable character is written
`\u{…}` with its code point in lower-case hexadecimal.
-/

namespace StubServer.Text

/-- A code point in braces, in hexadecimal without filling. -/
def escapeCode (c : Char) : List Char :=
  ['\\', 'u', '\x7b'] ++ Nat.toDigits 16 c.toNat ++ ['\x7d']

/-- What stands for a character between the quotes. -/
def escape (c : Char) : List Char :=
  if c = '\x00' then ['\\', '0']
  else if c = '\t' then ['\\', 't']
  else if c = '\r' then ['\\', 'r']
  else if c = '\n' then ['\\', 'n']
  else if c = '"' then ['\\', '"']
  else if c = '\\' then ['\\', '\\']
  else if isUnprintable c then escapeCode c
  else [c]

/-- A text between double quotes. -/
def quoted (s : String) : String :=
  String.ofList ('"' :: s.toList.flatMap escape ++ ['"'])

end StubServer.Text
