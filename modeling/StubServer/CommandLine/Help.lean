import StubServer.CommandLine.Arguments

/-!
# Help texts

The description of a program or command: what it is for, how it is called, and its operands, commands and
options in columns. No description is broken. When the spellings leave little room on a page and some
description has not enough of it, every option of that list has its description on a line of its own.
-/

namespace StubServer.CommandLine

structure HelpPage where
  about : String
  usage : String
  operands : List (String × String) := []
  commands : List (String × String) := []
  options : List OptionSpec := []
  deriving DecidableEq, Repr

/-- The option that every program has. -/
def helpOption : OptionSpec where
  long := "help"
  short := some 'h'
  kind := .help
  description := "Print help"

/-- The spelling of an option, aligned for those without a letter. -/
def OptionSpec.spelling (o : OptionSpec) : String :=
  let letter := match o.short with
    | some c => String.ofList ['-', c, ',', ' ']
    | none => "    "
  let value := match o.kind with
    | .value name => s!" <{name}>"
    | _ => ""
  letter ++ "--" ++ o.long ++ value

/-- A text filled with blanks up to a width. -/
def column (width : Nat) (text : String) : String :=
  text ++ String.ofList (List.replicate (width - text.length) ' ')

/-- The lines of a list in two columns. -/
def columns (entries : List (String × String)) : List String :=
  let width := (entries.map (·.1.length)).foldl max 0
  entries.map fun entry => s!"  {column width entry.1}  {entry.2}"

/-- The width of a page. -/
def pageWidth : Nat := 100

/-- Whether a list of options has no room for two columns: the spellings, with two blanks on either side, take
more than two fifths of the page, and some description is longer than the rest of it. -/
def isCramped (options : List OptionSpec) : Bool :=
  let taken := (options.map (·.spelling.length)).foldl max 0 + 4
  2 * pageWidth < 5 * taken && options.any (pageWidth - taken < ·.description.length)

/-- The lines of a list of options. -/
def optionLines (options : List OptionSpec) : List String :=
  if isCramped options then options.flatMap fun o => ["  " ++ o.spelling, "          " ++ o.description]
  else columns (options.map fun o => (o.spelling, o.description))

/-- A list under a heading, if there is anything in it. -/
def block (heading : String) (lines : List String) : List String :=
  if lines.isEmpty then [] else "" :: heading :: lines

/-- The text of a page. -/
def HelpPage.text (page : HelpPage) : String :=
  let lines := [page.about, "", "Usage: " ++ page.usage] ++
    block "Commands:" (columns page.commands) ++ block "Arguments:" (columns page.operands) ++
    block "Options:" (optionLines page.options)
  String.join (lines.map (· ++ "\n"))

end StubServer.CommandLine
