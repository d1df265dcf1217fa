import StubServer.BehaviorFile.Section

/-!
# Sections in writing

The text of a list of sections: a header line for each, and a line `key = value` for each of its
properties. `groupByName` collects the sections of one name in the place of the first of them.
-/

namespace StubServer.BehaviorFile

/-- The line of a property. -/
def Property.written (p : Property) : String :=
  p.name ++ " = " ++ p.value

/-- The lines of a section: its header and its properties. -/
def Section.written (s : Section) : List String :=
  ("[" ++ s.name ++ "]") :: s.properties.map Property.written

/-- The text of a list of sections; every line ends in a line feed. -/
def written (sections : List Section) : String :=
  String.join ((sections.flatMap Section.written).map (· ++ "\n"))

/-- The sections with one more, which joins the first section of its name if there is one. -/
def join : List Section → Section → List Section
  | [], s => [s]
  | t :: rest, s =>
    if t.name = s.name then { t with properties := t.properties ++ s.properties } :: rest
    else t :: join rest s

/-- One section for each name, in the order of their first occurrence. -/
def groupByName (sections : List Section) : List Section :=
  sections.foldl join []

end StubServer.BehaviorFile
