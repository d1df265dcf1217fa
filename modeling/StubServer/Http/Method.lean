/-!
# Request methods

The seven methods that a behavior can answer. A behavior file may write them in any mix of cases, while
a request must use the standard spelling: methods are case-sensitive on the wire.
-/

namespace StubServer.Http

inductive Method
  | get
  | post
  | put
  | delete
  | patch
  | head
  | options
  deriving DecidableEq, Repr

namespace Method

/-- All methods, in the order of their declaration. -/
def all : List Method :=
  [get, post, put, delete, patch, head, options]

/-- The standard spelling. -/
def text : Method → String
  | get => "GET"
  | post => "POST"
  | put => "PUT"
  | delete => "DELETE"
  | patch => "PATCH"
  | head => "HEAD"
  | options => "OPTIONS"

/-- The method of a given word, in any mix of cases. -/
def ofText? (s : String) : Option Method :=
  all.find? fun m => s.toList.map Char.toUpper == m.text.toList

/-- Whether a request with a given method is meant. -/
def matchesRequest (m : Method) (request : String) : Bool :=
  request == m.text

@[simp] theorem ofText?_text (m : Method) : ofText? m.text = some m := by
  cases m <;> decide

end Method

end StubServer.Http
