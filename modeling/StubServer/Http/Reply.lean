import StubServer.Dispatch.Registry
import StubServer.Http.Header

/-!
# Replies

A reply is what goes over the wire: a status, header fields and a body. `Reply.render` writes an answer
out. A redirect leaves no body; otherwise a stream sends its body line by line as events; otherwise the
body is sent as it is. Configured fields come first and cookies follow, so that what the kind of the body
demands overrides them. A field that cannot be sent is left out.
-/

namespace StubServer.Http

inductive Body
  | empty
  | whole (text : String)
  | events (lines : List String)
  deriving DecidableEq, Repr

namespace Body

/-- An event that carries one line. -/
def event (line : String) : String :=
  "data: " ++ line ++ "\n\n"

/-- The pieces in which the body is sent; each event is one. -/
def chunks : Body → List String
  | empty => []
  | whole text => if text.isEmpty then [] else [text]
  | events lines => lines.map event

/-- The number of octets, if it is known before the body is sent. -/
def length? : Body → Option Nat
  | empty => some 0
  | whole text => some text.utf8ByteSize
  | events _ => none

end Body

structure Reply where
  status : Nat
  fields : Fields := []
  body : Body := .empty
  deriving DecidableEq, Repr

/-- The lines of a text, each an event of a stream; no text has none. -/
def eventLines : Option String → List String
  | some text => (text.toList.splitOn '\n').map String.ofList
  | none => []

namespace Reply

/-- The body that a response has. -/
def bodyOf (r : Response) : Body :=
  if r.redirect.isSome then .empty
  else if r.stream then .events (eventLines r.body)
  else
    match r.body with
    | some text => .whole text
    | none => .empty

/-- The fields with a configured one, if it can be sent. -/
def putConfigured (fields : Fields) (name value : String) : Fields :=
  match fieldName? name with
  | some name => if isFieldValue value then fields.set name value else fields
  | none => fields

/-- The fields with a cookie, if its line can be sent. -/
def putCookie (fields : Fields) (c : Cookie) : Fields :=
  if isFieldValue c.line then fields.add "set-cookie" c.line else fields

/-- The fields with those that the kind of the body demands. -/
def putKind (r : Response) (fields : Fields) : Fields :=
  match r.redirect with
  | some target => if isFieldValue target then fields.set "location" target else fields
  | none =>
    if r.stream then
      (fields.set "content-type" "text/event-stream").set "cache-control" "no-cache"
    else fields

/-- The fields that a response has. -/
def fieldsOf (r : Response) : Fields :=
  let configured := r.headers.foldl (fun fields h => putConfigured fields h.1 h.2) []
  putKind r (r.cookies.foldl putCookie configured)

/-- The reply that writes an answer out. -/
def render (d : Dispatch) : Reply :=
  ⟨d.status, fieldsOf d.response, bodyOf d.response⟩

end Reply

end StubServer.Http
