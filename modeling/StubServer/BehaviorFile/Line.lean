import StubServer.Text.Blank
import StubServer.Text.Cut

/-!
# The lines of a behavior file

A line is read by itself: nothing before or after it decides what it is. After trimming it is a section
header if it stands in brackets, a property if it has an equals sign, and otherwise means nothing, as do
blank lines and comments. A header may lack a name and a property a key; the reader of the whole file
refuses them, because only it knows where they stand.
-/

namespace StubServer.BehaviorFile

open Text

inductive Line
  | skipped
  | header (name : String)
  | property (key value : String)
  deriving DecidableEq, Repr

/-- A comment starts with a number sign or a semicolon. -/
def isComment : List Char → Bool
  | '#' :: _ => true
  | ';' :: _ => true
  | _ => false

/-- What stands between an opening bracket at the start and a closing one at the end. -/
def bracketed? : List Char → Option (List Char)
  | '[' :: rest => if rest.getLast? = some ']' then some rest.dropLast else none
  | _ => none

/-- A text without its surrounding blanks, as it is kept. -/
def kept (cs : List Char) : String :=
  String.ofList (trim cs)

/-- What a trimmed line is: the first `=` of a property separates the key from the value. -/
def Line.ofTrimmed (cs : List Char) : Line :=
  if cs.isEmpty || isComment cs then .skipped
  else
    match bracketed? cs with
    | some inner => .header (kept inner)
    | none =>
      match cut '=' cs with
      | some (key, value) => .property (kept key) (kept value)
      | none => .skipped

/-- What a line of the file is. -/
def Line.ofText (raw : List Char) : Line :=
  .ofTrimmed (trim raw)

end StubServer.BehaviorFile
