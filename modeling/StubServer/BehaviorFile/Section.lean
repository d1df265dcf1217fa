import StubServer.BehaviorFile.Line
import StubServer.System
import StubServer.Text.Utf8

/-!
# The sections of a behavior file

A file is a list of sections, each with the properties below its header. Properties before the first
header belong to an implicit section `default`, which is always there and always first. A header whose
name was seen before either starts another section of that name or returns to the first one; the
`DuplicatePolicy` says which.

The reader goes through the lines once. It keeps the section that is being filled between the sections
before and after it in the list, so a return to an earlier section needs no index and a property always
has a place to go.
-/

namespace StubServer.BehaviorFile

structure Property where
  name : String
  value : String
  line : Nat
  deriving DecidableEq, Repr

structure Section where
  name : String
  line : Nat
  properties : List Property
  deriving DecidableEq, Repr

/-- The name of the section that holds the response to unmatched requests. -/
def defaultName : String := "default"

/-- What a header does whose name was seen before. -/
inductive DuplicatePolicy
  | keepApart
  | merge
  deriving DecidableEq, Repr

/-- Why a file has no sections. -/
inductive ReadError
  | emptySectionName
  | emptyKey (sectionName : String)
  | system (error : SystemError)
  deriving DecidableEq, Repr

/-- The wording of a read error. -/
def ReadError.message : ReadError → String
  | emptySectionName => "empty section name"
  | emptyKey name => s!"empty key in section [{name}]"
  | system error => error.message

/-! ## A file in the making -/

/-- The sections so far, around the one that is being filled. -/
structure Draft where
  before : List Section
  current : Section
  after : List Section
  deriving DecidableEq, Repr

namespace Draft

/-- All sections of the draft, in order. -/
def sections (d : Draft) : List Section :=
  d.before ++ d.current :: d.after

/-- Before the first line there is only the implicit section. -/
def start : Draft :=
  ⟨[], ⟨defaultName, 0, []⟩, []⟩

/-- The draft with a new empty section at its end. -/
def append (d : Draft) (name : String) (line : Nat) : Draft :=
  ⟨d.sections, ⟨name, line, []⟩, []⟩

/-- The draft at its first section of the given name; a new section if there is none. -/
def returnTo (d : Draft) (name : String) (line : Nat) : Draft :=
  match d.sections.dropWhile (·.name != name) with
  | [] => d.append name line
  | found :: rest => ⟨d.sections.takeWhile (·.name != name), found, rest⟩

/-- The draft at the section that a header names. -/
def openSection (policy : DuplicatePolicy) (d : Draft) (name : String) (line : Nat) : Draft :=
  match policy with
  | .keepApart => d.append name line
  | .merge => d.returnTo name line

/-- The draft with one more property in the current section. -/
def put (d : Draft) (p : Property) : Draft :=
  { d with current := { d.current with properties := d.current.properties ++ [p] } }

/-- The draft after one more line of the file. -/
def read (policy : DuplicatePolicy) (d : Draft) (number : Nat) : Line → Except ReadError Draft
  | .skipped => .ok d
  | .header name =>
    if name.isEmpty then .error .emptySectionName else .ok (d.openSection policy name number)
  | .property key value =>
    if key.isEmpty then .error (.emptyKey d.current.name) else .ok (d.put ⟨key, value, number⟩)

/-- The draft after the remaining lines, the first of which has the given number. A line that is not
text stops the reading there, so a fault further up is the one that is reported. -/
def readAll (policy : DuplicatePolicy) (d : Draft) (number : Nat) :
    List (Option (List Char)) → Except ReadError Draft
  | [] => .ok d
  | none :: _ => .error (.system .notText)
  | some raw :: rest => do
    let next ← d.read policy number (.ofText raw)
    next.readAll policy (number + 1) rest

end Draft

/-! ## Reading a file -/

/-- The sections that a sequence of lines makes; lines are numbered from one. -/
def ofLines (policy : DuplicatePolicy) (lines : List (Option (List Char))) :
    Except ReadError (List Section) :=
  (Draft.start.readAll policy 1 lines).map Draft.sections

/-- The sections of a text. -/
def ofText (policy : DuplicatePolicy) (text : String) : Except ReadError (List Section) :=
  ofLines policy ((text.toList.splitOn '\n').map some)

/-- The sections of a file, given by its octets; each line is decoded for itself. -/
def ofBytes (policy : DuplicatePolicy) (bytes : List UInt8) : Except ReadError (List Section) :=
  ofLines policy ((bytes.splitOn 0x0A).map Text.Utf8.decode)

end StubServer.BehaviorFile
