import StubServer.Proofs.Http.Fields
import StubServer.Service.Request

/-!
# Requests are dispatches

A request over HTTP reaches the registry by way of one dispatch, and nothing that happens
afterwards can take the dispatch back:

> the registry after a request is the registry after the dispatch of its method and
> decoded path, whether the request is answered in time or given up.

What does depend on the time limit are the reply and the request metrics. The two branches
of `answer` are described by `answer_inTime` and `answer_late`, and what is done to every
reply by `finish_fields` and `finish_ids`; `request_refines` puts them together.
-/

namespace StubServer

/-- Whether a counter counts the answers to requests. -/
def Counter.isRequest : Counter → Bool
  | .request .. | .timed _ => true
  | _ => false

namespace Service

open Http

/-! ## In time or not -/

/-- Thirty years of 365 days, in seconds. -/
def thirtyYears : Nat := 946080000

/-- Whether an answer with a delay in nanoseconds is in time for a limit in seconds: there
is no limit, or the delay ends a millisecond before it, and before thirty years are over. -/
def isInTime (limit delay : Nat) : Bool :=
  limit == 0 || delay + 1000000 ≤ min limit thirtyYears * 1000000000

/-- The timers end the requests whose answers are not in time. -/
theorem timesOut_eq (limit : Nat) (d : Dispatch) :
    timesOut limit d = !isInTime limit (d.response.delay.getD 0) := by
  generalize hdelay : d.response.delay.getD 0 = delay
  unfold timesOut isInTime limitOf delayOf timer milliseconds longestTimer thirtyYears
  rw [hdelay, Bool.eq_iff_iff]
  -- a delay that is rounded up stays below whole seconds when a millisecond is left
  simp only [Bool.and_eq_true, bne_iff_ne, decide_eq_true_eq, Bool.not_eq_true',
    Bool.or_eq_false_iff, beq_eq_false_iff_ne, decide_eq_false_iff_not]
  omega

/-! ## The reply -/

/-- The identifiers that a client sent, in order. -/
def sentIds (headers : Fields) : List String :=
  (headers.filter fun h => h.1.toList.map Char.toLower == requestIdName.toList).map (·.2)

theorem requestId_eq (fresh : String) (headers : Fields) :
    [requestId fresh headers] = (sentIds headers ++ [fresh]).take 1 := by
  unfold requestId sentIds
  induction headers with
  | nil => rfl
  | cons h rest ih =>
    rw [List.find?_cons, List.filter_cons]
    cases h.1.toList.map Char.toLower == requestIdName.toList with
    | true => rfl
    | false => exact ih

/-- What is added to the fields of a reply: the length of its body, if that is known, and
an identifier of the request, each only if there is none. -/
def added (fresh : String) (r : Request) (reply : Reply) : Fields :=
  (match reply.body.length? with
    | some n =>
      if reply.fields.values "content-length" = [] then [("content-length", toString n)]
      else []
    | none => []) ++
  if reply.fields.values requestIdName = [] then [(requestIdName, requestId fresh r.headers)]
  else []

theorem finish_fields (fresh : String) (r : Request) (reply : Reply) :
    (finish fresh r reply).fields = reply.fields ++ added fresh r reply := by
  unfold finish added
  dsimp only
  rw [Fields.setIfMissing_eq, ← List.append_assoc]
  cases reply.body.length? with
  | none =>
    dsimp only
    rw [List.append_nil]
  | some n =>
    dsimp only
    rw [Fields.values_setIfMissing_ne (by decide), Fields.setIfMissing_eq]

/-- An identifier is added where there is none. -/
theorem added_ids (fresh : String) (r : Request) (reply : Reply) :
    (added fresh r reply).values requestIdName =
      if reply.fields.values requestIdName = [] then [requestId fresh r.headers] else [] := by
  have hlength : ∀ n : String, Fields.values
      (if reply.fields.values "content-length" = [] then [("content-length", n)] else [])
        requestIdName = [] := by
    intro n
    split
    next => exact Fields.values_singleton_ne (by decide)
    next => rfl
  have hid : Fields.values
      (if reply.fields.values requestIdName = [] then [(requestIdName, requestId fresh r.headers)]
        else []) requestIdName =
      if reply.fields.values requestIdName = [] then [requestId fresh r.headers] else [] := by
    split
    next => exact Fields.values_singleton_self
    next => rfl
  unfold added
  rw [Fields.values_append, hid]
  cases reply.body.length? with
  | none => rfl
  | some n =>
    dsimp only
    rw [hlength, List.nil_append]

/-- A reply has one identifier: the one that it was made with, else the first that the
client sent, else a fresh one. -/
theorem finish_ids (fresh : String) (r : Request) {reply : Reply} (h : reply.fields.Single) :
    (finish fresh r reply).fields.values requestIdName =
      (reply.fields.values requestIdName ++ sentIds r.headers ++ [fresh]).take 1 := by
  have hsingle := h requestIdName (by decide)
  rw [finish_fields, Fields.values_append, added_ids]
  -- either list has the identifier and the other is empty
  cases hids : reply.fields.values requestIdName with
  | nil =>
    rw [if_pos rfl, List.nil_append, List.nil_append]
    exact requestId_eq fresh r.headers
  | cons id rest =>
    rw [hids] at hsingle
    have hrest : rest = [] := List.eq_nil_of_length_eq_zero (by simpa using hsingle)
    rw [if_neg (by simp), hrest]
    rfl

/-! ## The two branches -/

/-- A dispatch counts no answer. -/
theorem dispatch_count (s : Service) (method path : String) {c : Counter} (h : c.isRequest = true) :
    (s.dispatch method path).2.metrics.count c = s.metrics.count c := by
  unfold dispatch
  dsimp only
  split
  next =>
    rw [Metrics.count_bump, if_neg]
    · rfl
    · rintro rfl
      cases h
  next => rfl

/-- An answer is counted once by its status and once by its time, and by no other counter. -/
theorem count_answered (m : Metrics) (method : String) (d : Dispatch) (c : Counter) :
    ((m.bump (.request method d.status d.matched)).bump (.timed d.matched)).count c =
      m.count c + if c = .request method d.status d.matched ∨ c = .timed d.matched then 1 else 0 := by
  rw [Metrics.count_bump, Metrics.count_bump]
  cases c <;> simp

variable {limit : Nat} {s : Service} {method path : String}

/-- An answer in time is written out and counted. -/
theorem answer_inTime
    (h : isInTime limit ((s.registry.dispatch method path).answer.response.delay.getD 0) = true) :
    let d := (s.registry.dispatch method path).answer
    let after := (s.dispatch method path).2
    s.answer limit method path =
      (⟨.render d, delayOf d⟩,
        { after with
          metrics := (after.metrics.bump (.request method d.status d.matched)).bump
            (.timed d.matched) }) := by
  have hintime : timesOut limit (s.registry.dispatch method path).answer = false := by
    rw [timesOut_eq, h]
    rfl
  show (if timesOut limit (s.registry.dispatch method path).answer = true then _ else _ :
    Exchange × Service) = _
  rw [hintime, if_neg (by simp)]
  rfl

/-- A request that is not answered in time is given up, and all that is left of it is its
dispatch. -/
theorem answer_late
    (h : isInTime limit ((s.registry.dispatch method path).answer.response.delay.getD 0) = false) :
    s.answer limit method path =
      (⟨⟨408, [], .empty⟩, limitOf limit⟩, (s.dispatch method path).2) := by
  have hlate : timesOut limit (s.registry.dispatch method path).answer = true := by
    rw [timesOut_eq, h]
    rfl
  show (if timesOut limit (s.registry.dispatch method path).answer = true then _ else _ :
    Exchange × Service) = _
  rw [hlate, if_pos rfl]
  rfl

theorem request_of_path {fresh : String} {r : Request} {raw : List Char}
    (h : rawPath? r.target.toList = some raw) :
    let out := s.answer limit r.method (String.ofList (decodePath raw))
    s.request limit fresh r = ({ out.1 with reply := finish fresh r out.1.reply }, out.2) := by
  unfold request
  rw [h]

/-! ## Requests and dispatches -/

/-- What a request to a path does, in terms of the dispatch of its method and that path. -/
structure Refines (limit : Nat) (fresh : String) (s : Service) (r : Request) (path : String)
    (d : Dispatch) (reply : Reply) (after : Service) : Prop where
  registry : after.registry = (s.registry.dispatch r.method path).registry
  log : after.log = s.log
  active : after.metrics.active = (s.dispatch r.method path).2.metrics.active
  others : ∀ c : Counter, c.isRequest = false →
    after.metrics.count c = (s.dispatch r.method path).2.metrics.count c
  answered : isInTime limit (d.response.delay.getD 0) = true →
    reply.status = d.status ∧
    reply.fields = (Reply.render d).fields ++ added fresh r (.render d) ∧
    reply.body = if r.method = "HEAD" then .empty else (Reply.render d).body
  counted : isInTime limit (d.response.delay.getD 0) = true → ∀ c : Counter, c.isRequest = true →
    after.metrics.count c =
      s.metrics.count c +
        if c = .request r.method d.status d.matched ∨ c = .timed d.matched then 1 else 0
  abandoned : isInTime limit (d.response.delay.getD 0) = false →
    reply.status = 408 ∧ reply.fields = added fresh r ⟨408, [], .empty⟩ ∧ reply.body = .empty
  uncounted : isInTime limit (d.response.delay.getD 0) = false → ∀ c : Counter, c.isRequest = true →
    after.metrics.count c = s.metrics.count c
  /-- There is one identifier: that of the response, if it was written out with one, else
  the first that the client sent, else a fresh one. -/
  identified : reply.fields.values requestIdName =
    ((if isInTime limit (d.response.delay.getD 0) then
        (Reply.render d).fields.values requestIdName
      else []) ++ sentIds r.headers ++ [fresh]).take 1

theorem refines_inTime (fresh : String) (r : Request)
    (h : isInTime limit
      ((s.registry.dispatch r.method path).answer.response.delay.getD 0) = true) :
    Refines limit fresh s r path (s.registry.dispatch r.method path).answer
      (finish fresh r (s.answer limit r.method path).1.reply) (s.answer limit r.method path).2 := by
  rw [answer_inTime h]
  refine ⟨rfl, rfl, rfl, ?_, fun _ => ⟨rfl, ?_, rfl⟩, ?_, ?_, ?_, ?_⟩
  · intro c hc
    rw [count_answered, if_neg, Nat.add_zero]
    rintro (rfl | rfl)
    · cases hc
    · cases hc
  · exact finish_fields fresh r _
  · intro _ c hc
    rw [count_answered, dispatch_count s r.method path hc]
  · intro hlate
    rw [h] at hlate
    cases hlate
  · intro hlate
    rw [h] at hlate
    cases hlate
  · rw [if_pos h]
    exact finish_ids fresh r (Reply.fieldsOf_single _)

theorem refines_late (fresh : String) (r : Request)
    (h : isInTime limit
      ((s.registry.dispatch r.method path).answer.response.delay.getD 0) = false) :
    Refines limit fresh s r path (s.registry.dispatch r.method path).answer
      (finish fresh r (s.answer limit r.method path).1.reply) (s.answer limit r.method path).2 := by
  rw [answer_late h]
  refine ⟨rfl, rfl, rfl, fun _ _ => rfl, ?_, ?_, fun _ => ⟨rfl, ?_, ?_⟩, ?_, ?_⟩
  · intro hintime
    rw [h] at hintime
    cases hintime
  · intro hintime
    rw [h] at hintime
    cases hintime
  · exact finish_fields fresh r _
  · show (if r.method = Method.head.text then Body.empty else .empty) = _
    rw [ite_self]
  · intro _ c hc
    exact dispatch_count s r.method path hc
  · rw [h, if_neg (by simp)]
    exact finish_ids fresh r Fields.single_nil

/-- **A request is its dispatch.** Whatever the time limit, the registry after a request
is the one after the dispatch of its method and decoded path. An answer in time leaves as
it was rendered and is counted once; a request that is given up leaves with status 408 and
is not counted. -/
theorem request_refines (limit : Nat) (fresh : String) (s : Service) (r : Request) {raw : List Char}
    (h : rawPath? r.target.toList = some raw) :
    let path := String.ofList (decodePath raw)
    Refines limit fresh s r path (s.registry.dispatch r.method path).answer
      (s.request limit fresh r).1.reply (s.request limit fresh r).2 := by
  intro path
  rw [request_of_path h]
  cases hintime : isInTime limit
      ((s.registry.dispatch r.method path).answer.response.delay.getD 0) with
  | true => exact refines_inTime fresh r hintime
  | false => exact refines_late fresh r hintime

/-- A target with an escape and a query, and nothing to answer it. -/
theorem request_refines_escaped :
    rawPath? "/a%20b?q".toList = some "/a%20b".toList ∧
      Refines 30 "fresh" {} ⟨"GET", "/a%20b?q", []⟩ "/a b" ⟨{}, 404, false⟩
        (request 30 "fresh" {} ⟨"GET", "/a%20b?q", []⟩).1.reply
        (request 30 "fresh" {} ⟨"GET", "/a%20b?q", []⟩).2 := by
  have hraw : rawPath? "/a%20b?q".toList = some "/a%20b".toList := by decide
  have hpath : decodePath "/a%20b".toList = "/a b".toList := by decide +kernel
  have hrefines := request_refines 30 "fresh" {} ⟨"GET", "/a%20b?q", []⟩ hraw
  rw [hpath, String.ofList_toList] at hrefines
  exact ⟨hraw, hrefines⟩

/-- What one might expect of every answer whose delay is below the limit: that it is sent
as it was rendered. -/
def SentVerbatim (limit : Nat) (s : Service) (r : Request) : Prop :=
  ∀ raw, rawPath? r.target.toList = some raw →
    let d := (s.registry.dispatch r.method (String.ofList (decodePath raw))).answer
    limit = 0 ∨ d.response.delay.getD 0 < limit * 1000000000 →
      (s.request limit "fresh" r).1.reply.status = d.status ∧
        (s.request limit "fresh" r).1.reply.body = (Reply.render d).body

/-- The service with one behavior. -/
def serving (method : Method) (response : Response) : Service :=
  publish {} { behaviors := [⟨method, "/a", none, response⟩] }

/-- There are three exceptions: the last millisecond before the limit, a limit of over
thirty years, and the reply to a `HEAD` request. -/
theorem not_sentVerbatim :
    ¬SentVerbatim 2 (serving .get { delay := some 1999999900 }) ⟨"GET", "/a", []⟩ ∧
      ¬SentVerbatim 99999999999 (serving .get { delay := some 946080000000000000 })
        ⟨"GET", "/a", []⟩ ∧
      ¬SentVerbatim 30 (serving .head { body := some "x" }) ⟨"HEAD", "/a", []⟩ := by
  refine ⟨fun h => ?_, fun h => ?_, fun h => ?_⟩
  · exact absurd (h "/a".toList (by decide) (Or.inr (by decide +kernel))).1 (by decide +kernel)
  · exact absurd (h "/a".toList (by decide) (Or.inr (by decide +kernel))).1 (by decide +kernel)
  · exact absurd (h "/a".toList (by decide) (Or.inr (by decide +kernel))).2 (by decide +kernel)

end Service

end StubServer
