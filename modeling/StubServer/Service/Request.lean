import StubServer.Http.Reply
import StubServer.Http.Target
import StubServer.Service.Basic

/-!
# Requests over HTTP

A request is dispatched first; what it costs the registry is settled before anything can go wrong. Then the
delay of the answer runs. If it does not end before the time limit, the request is given up with status 408,
and no metric counts it. The delay and the time limit are timers. A timer runs in whole milliseconds, so the
delay is rounded up before the comparison, and it runs for thirty years at most.

Every reply carries an identifier of the request: the one configured in the response, else the first that
the client sent, else a fresh one. The length of the body is announced when it is known. The reply to a
`HEAD` request has the fields of its body but not the body.
-/

namespace StubServer

structure Request where
  method : String
  target : String
  headers : Http.Fields := []
  deriving DecidableEq, Repr

/-- A reply with the time that it took, in milliseconds. -/
structure Exchange where
  reply : Http.Reply
  waited : Nat
  deriving DecidableEq, Repr

namespace Service

open Http

/-- A number of nanoseconds in whole milliseconds, rounded up. -/
def milliseconds (nanos : Nat) : Nat :=
  (nanos + 999999) / 1000000

/-- Thirty years of 365 days in milliseconds, after which every timer ends. -/
def longestTimer : Nat := 30 * 365 * 24 * 60 * 60 * 1000

/-- The time that a timer of a number of milliseconds runs. -/
def timer (millis : Nat) : Nat :=
  min millis longestTimer

/-- The delay of an answer in milliseconds. -/
def delayOf (d : Dispatch) : Nat :=
  timer (milliseconds (d.response.delay.getD 0))

/-- A time limit of a number of seconds in milliseconds. -/
def limitOf (limit : Nat) : Nat :=
  timer (limit * 1000)

/-- Whether the time limit, in seconds, ends a request; a limit of zero never does. -/
def timesOut (limit : Nat) (d : Dispatch) : Bool :=
  limit != 0 && limitOf limit ≤ delayOf d

/-- The identifier of a request, for its reply. -/
def requestId (fresh : String) (headers : Fields) : String :=
  match headers.find? fun h => h.1.toList.map Char.toLower == requestIdName.toList with
  | some h => h.2
  | none => fresh

/-- The reply as it leaves the server. -/
def finish (fresh : String) (r : Request) (reply : Reply) : Reply :=
  let sized := match reply.body.length? with
    | some n => reply.fields.setIfMissing "content-length" (toString n)
    | none => reply.fields
  { reply with
    fields := sized.setIfMissing requestIdName (requestId fresh r.headers)
    body := if r.method = Method.head.text then .empty else reply.body }

/-- Answers a request for a given path. -/
def answer (limit : Nat) (s : Service) (method path : String) : Exchange × Service :=
  let (d, s) := s.dispatch method path
  if timesOut limit d then (⟨⟨408, [], .empty⟩, limitOf limit⟩, s)
  else
    let metrics := (s.metrics.bump (.request method d.status d.matched)).bump (.timed d.matched)
    (⟨.render d, delayOf d⟩, { s with metrics })

/-- Answers a request. A target without a path reaches no behavior. -/
def request (limit : Nat) (fresh : String) (s : Service) (r : Request) : Exchange × Service :=
  match rawPath? r.target.toList with
  | none => (⟨finish fresh r ⟨404, [], .empty⟩, 0⟩, s)
  | some raw =>
    let (exchange, s) := s.answer limit r.method (String.ofList (decodePath raw))
    ({ exchange with reply := finish fresh r exchange.reply }, s)

end Service

end StubServer
