import StubServer.Behavior.Basic
import StubServer.Dispatch.Budget

/-!
# The active behaviors

The registry holds the behaviors of the set that was published last, as long as their budgets last. A
request goes to the first of them with its method and path that still grants an answer; if that was its
last one, it leaves the registry and may uncover a later behavior of the same route. Nothing else in the
registry changes. A request without a behavior gets the fallback response.

Two behaviors of a set may be equal in every field and are still two: a route is known by its place in the
published set, and it is by its place that it is charged and taken away.
-/

namespace StubServer

/-- A published behavior, its place in the published set, and what is left of its budget. -/
structure Route where
  place : Nat
  method : Http.Method
  path : String
  response : Response
  budget : Budget
  deriving DecidableEq, Repr

namespace Route

/-- The route of a behavior that has not answered yet. -/
def ofBehavior (place : Nat) (b : Behavior) : Route :=
  ⟨place, b.method, b.path, b.response, .ofCount b.repetitions⟩

/-- Whether a request is meant for a route. -/
def accepts (r : Route) (method path : String) : Bool :=
  r.method.matchesRequest method && r.path == path

/-- Whether a route answers a request: the request is meant for it, and its budget grants an answer. -/
def answers (r : Route) (method path : String) : Bool :=
  r.accepts method path && r.budget.acquire.1.isGranted

/-- The route after an answer. -/
def charged (r : Route) : Route :=
  { r with budget := r.budget.acquire.2 }

/-- Whether the next answer of a route is its last. -/
def isLast (r : Route) : Bool :=
  r.budget.acquire.1 == .last

/-- The routes after an answer of the one at a place. -/
def chargeAt (place : Nat) (routes : List Route) : List Route :=
  routes.map fun r => if r.place = place then r.charged else r

/-- The routes without the one at a place. -/
def retireAt (place : Nat) (routes : List Route) : List Route :=
  routes.filter (·.place != place)

end Route

/-- The answer to a request, before it is written out. -/
structure Dispatch where
  response : Response
  status : Nat
  matched : Bool
  deriving DecidableEq, Repr

namespace Dispatch

/-- A number that can be sent as a status. -/
def isStatus (code : Nat) : Bool :=
  100 ≤ code && code ≤ 999

/-- The answer of a behavior, with status 200 unless it has one that can be sent. -/
def ofMatch (response : Response) : Dispatch :=
  ⟨response, (response.status.filter isStatus).getD 200, true⟩

/-- The answer where no behavior has one; its status is always 404. -/
def ofFallback (fallback : Option Response) : Dispatch :=
  ⟨fallback.getD {}, 404, false⟩

end Dispatch

structure Registry where
  generation : Nat := 0
  fallback : Option Response := none
  routes : List Route := []
  deriving DecidableEq, Repr

/-- A behavior in a listing of the registry. -/
structure RouteSummary where
  method : Http.Method
  path : String
  remaining : Option Nat
  deriving DecidableEq, Repr

namespace Registry

/-- The registry after the publication of a set. A behavior that may answer no request is left out. -/
def publish (registry : Registry) (set : BehaviorSet) : Registry where
  generation := registry.generation + 1
  fallback := set.fallback
  routes :=
    (set.behaviors.zipIdx.filter (·.1.repetitions != some 0)).map fun entry =>
      .ofBehavior entry.2 entry.1

/-- The outcome of a request: the answer, the registry afterwards, the place of the behavior that answered,
and whether it left the registry. -/
structure Outcome where
  answer : Dispatch
  registry : Registry
  place : Option Nat
  retired : Bool
  deriving DecidableEq, Repr

/-- Answers a request. -/
def dispatch (registry : Registry) (method path : String) : Outcome :=
  match registry.routes.find? (·.answers method path) with
  | some r =>
    let routes := Route.chargeAt r.place registry.routes
    let routes := if r.isLast then Route.retireAt r.place routes else routes
    ⟨.ofMatch r.response, { registry with routes }, some r.place, r.isLast⟩
  | none => ⟨.ofFallback registry.fallback, registry, none, false⟩

/-- The number of behaviors that can still answer. -/
def size (registry : Registry) : Nat :=
  registry.routes.length

/-- Whether no behavior can answer any more. -/
def isEmpty (registry : Registry) : Bool :=
  registry.size == 0

/-- The behaviors that can still answer, in order. -/
def summaries (registry : Registry) : List RouteSummary :=
  registry.routes.map fun r => ⟨r.method, r.path, r.budget.remaining⟩

end Registry

end StubServer
