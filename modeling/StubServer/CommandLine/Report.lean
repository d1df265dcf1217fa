import StubServer.Service.Basic
import StubServer.Settings.Load

/-!
# Reports of failures

When a program fails it reports the cause as a term: the name of the case, and its parts in braces with
their names or in brackets without. Texts are quoted.
-/

namespace StubServer

open Text (quoted)

/-- A term with named parts. -/
def namedTerm (name : String) (parts : List (String × String)) : String :=
  name ++ " \x7b " ++ ", ".intercalate (parts.map fun p => p.1 ++ ": " ++ p.2) ++ " \x7d"

/-- A term with one part. -/
def term (name part : String) : String :=
  name ++ "(" ++ part ++ ")"

/-- A text that may be missing, as a term. -/
def optionTerm : Option String → String
  | some s => term "Some" (quoted s)
  | none => "None"

/-- The report of an error of the system. -/
def SystemError.report (e : SystemError) : String :=
  match e.code? with
  | some code =>
    namedTerm "Os" [("code", toString code), ("kind", e.kind), ("message", quoted e.description)]
  | none => namedTerm "Error" [("kind", e.kind), ("message", quoted e.description)]

/-- The report of a read error. -/
def BehaviorFile.ReadError.report : BehaviorFile.ReadError → String
  | emptySectionName => "EmptySectionName"
  | emptyKey name => namedTerm "EmptyKey" [("section", quoted name)]
  | system error => term "Io" error.report

/-- The report of a compile error. -/
def CompileError.report (e : CompileError) : String :=
  let name := match e with
    | header .. => "MalformedBehaviorHeader"
    | property .. => "MalformedProperty"
  namedTerm name
    [("line_index", toString e.line), ("line", quoted e.text), ("details", optionTerm e.details?)]

/-- The report of a fault in the settings. -/
def SettingsFault.report : SettingsFault → String
  | address setting value =>
    namedTerm "InvalidAddress" [("field", quoted setting.name), ("value", quoted value)]
  | zero setting => namedTerm "Zero" [("field", quoted setting.name)]
  | logLevel value => term "LogLevel" (quoted value)

/-- The report of missing settings. -/
def SettingsError.report : SettingsError → String
  | system error => term "Io" error.report
  | syntaxError => term "Parse" "Error"
  | invalid faults =>
    term "Validation" ("[" ++ ", ".intercalate (faults.map SettingsFault.report) ++ "]")
  | listenAddress value => term "ListenAddress" (quoted value)

end StubServer
