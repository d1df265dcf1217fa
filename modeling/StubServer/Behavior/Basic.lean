import StubServer.Cookie.Basic
import StubServer.Http.Method

/-!
# Behaviors

A behavior answers the requests of one method and one path with one response, a limited number of times
if it has a repetition count. A `BehaviorSet` is what a behavior file means: the behaviors in the order of
the file, and the response to requests that none of them answers.
-/

namespace StubServer

/-- The configured part of a response. The header names are in lower case and in increasing order. -/
structure Response where
  status : Option Nat := none
  body : Option String := none
  delay : Option Nat := none
  headers : List (String × String) := []
  cookies : List Cookie := []
  redirect : Option String := none
  stream : Bool := false
  deriving DecidableEq, Repr

structure Behavior where
  method : Http.Method
  path : String
  repetitions : Option Nat := none
  response : Response := {}
  deriving DecidableEq, Repr

structure BehaviorSet where
  fallback : Option Response := none
  behaviors : List Behavior := []
  deriving DecidableEq, Repr

/-- The table of headers with one more, which replaces the one of its name. -/
def Response.putHeader (name value : String) : List (String × String) → List (String × String)
  | [] => [(name, value)]
  | (n, v) :: rest =>
    if name = n then (name, value) :: rest
    else if name < n then (name, value) :: (n, v) :: rest
    else (n, v) :: putHeader name value rest

end StubServer
