import StubServer.Behavior.Edit

/-!
# From sections to behaviors

Every section but `default` describes one behavior: its name is the method and the path, its properties
are applied in order to an empty draft. All sections named `default` describe the one fallback response;
each goes on where the one before stopped, but starts without an open cookie. The first fault, in the order
of the sections and of their properties, ends the compilation.
-/

namespace StubServer

open BehaviorFile (Property Section)

/-! ## Errors -/

/-- What is wrong with the name of a section. -/
inductive HeaderFault
  | noSeparator
  | noPath
  | unknownMethod (method : String)
  deriving DecidableEq, Repr

/-- The wording of a fault; a header without a space speaks for itself. -/
def HeaderFault.details? : HeaderFault → Option String
  | noSeparator => none
  | noPath => some "URL cannot be empty"
  | unknownMethod method => some s!"Invalid HTTP method: {method}"

/-- A fault and the line of the file where it is. -/
inductive CompileError
  | header (line : Nat) (text : String) (fault : HeaderFault)
  | property (line : Nat) (text : String) (fault : PropertyFault)
  deriving DecidableEq, Repr

namespace CompileError

/-- The number of the faulty line. -/
def line : CompileError → Nat
  | header line _ _ => line
  | property line _ _ => line

/-- The faulty line as it was understood. -/
def text : CompileError → String
  | header _ text _ => text
  | property _ text _ => text

/-- What is wrong with the line. -/
def details? : CompileError → Option String
  | header _ _ fault => fault.details?
  | property _ _ fault => some fault.message

/-- What kind of line is faulty. -/
def subject : CompileError → String
  | header .. => "behavior header"
  | property .. => "property"

/-- The wording of the error. -/
def message (e : CompileError) : String :=
  let suffix := match e.details? with
    | some details => " - " ++ details
    | none => ""
  s!"Malformed {e.subject} at line {e.line}: {e.text}{suffix}"

end CompileError

/-! ## Headers -/

/-- A bracket of either kind. -/
def isBracket (c : Char) : Bool :=
  c == '[' || c == ']'

/-- A text without the brackets at either end. -/
def withoutBrackets (cs : List Char) : List Char :=
  ((cs.dropWhile isBracket).reverse.dropWhile isBracket).reverse

/-- The method and the path of a section's name, which stand around its first space. -/
def routeOf (name : String) : Except HeaderFault (Http.Method × String) :=
  match Text.cut ' ' (withoutBrackets name.toList) with
  | none => .error .noSeparator
  | some (method, path) =>
    let path := Text.trim path
    if path.head? = some '/' then
      match Http.Method.ofText? (String.ofList method) with
      | some m => .ok (m, String.ofList path)
      | none => .error (.unknownMethod (String.ofList method))
    else .error .noPath

/-! ## Sections -/

/-- A property as it is shown in an error. -/
def shown (p : Property) : String :=
  p.name ++ "=" ++ p.value

/-- The draft after one more property. -/
def Draft.put (now : Time.Instant) (d : Draft) (p : Property) : Except CompileError Draft :=
  match Edit.read now d.hasCookie p with
  | .ok edit => .ok (edit.apply d)
  | .error fault => .error (.property p.line (shown p) fault)

/-- The draft after a list of properties. -/
def Draft.putAll (now : Time.Instant) (d : Draft) : List Property → Except CompileError Draft
  | [] => .ok d
  | p :: rest => do
    let next ← d.put now p
    next.putAll now rest

/-- The behavior that a section describes. -/
def Behavior.ofSection (now : Time.Instant) (s : Section) : Except CompileError Behavior :=
  match routeOf s.name with
  | .error fault => .error (.header s.line s.name fault)
  | .ok (method, path) => do
    let d ← Draft.putAll now {} s.properties
    .ok ⟨method, path, d.repetitions, d.response⟩

/-- The fallback response after one more default section; a repetition count means nothing in it. -/
def Response.withDefaults (now : Time.Instant) (fallback : Option Response) (s : Section) :
    Except CompileError Response := do
  let d ← Draft.putAll now { response := fallback.getD {} } s.properties
  .ok d.response

namespace BehaviorSet

/-- The set after one more section. -/
def add (now : Time.Instant) (set : BehaviorSet) (s : Section) : Except CompileError BehaviorSet :=
  if s.name = BehaviorFile.defaultName then do
    let response ← Response.withDefaults now set.fallback s
    .ok { set with fallback := some response }
  else do
    let behavior ← Behavior.ofSection now s
    .ok { set with behaviors := set.behaviors ++ [behavior] }

/-- The set after a list of sections. -/
def addAll (now : Time.Instant) (set : BehaviorSet) : List Section → Except CompileError BehaviorSet
  | [] => .ok set
  | s :: rest => do
    let next ← set.add now s
    next.addAll now rest

/-- The set that a list of sections describes; cookies that expire after a while do so from `now` on. -/
def compile (now : Time.Instant) (sections : List Section) : Except CompileError BehaviorSet :=
  addAll now {} sections

end BehaviorSet

end StubServer
