import StubServer.Proofs.Dispatch.Account
import StubServer.Proofs.Http.Fields

/-!
# Requests that no behavior answers

They get the response of the default sections, always with status 404. That response is
written out like any other, so its own status does not matter, but a redirect in it does: it
takes the place of the body, and a `Location` goes out with the 404. What is said here is
therefore said twice over:

> `Unanswered.plain`: without a redirect the reply is that of the `contributed` part of the
> fallback, its body, headers, cookies, delay and kind of body.
>
> `Unanswered.redirected`: with one it has no body and, if the target can be sent, points
> there; its other fields are those of the contributed part, as if that were no stream.

`unanswered_afterCalls` is about every state that a run can reach: the fallback in it is
that of the last published set.
-/

namespace StubServer

/-- What a fallback is meant to give to a request: all but its status and its redirect. -/
def Response.contributed (fallback : Response) : Response :=
  { fallback with status := none, redirect := none }

/-! ## Replies -/

namespace Http.Reply

/-- What the reply to an unanswered request is made of. -/
structure Unanswered (fallback : Response) (reply : Reply) : Prop where
  status : reply.status = 404
  plain : fallback.redirect = none → reply = render ⟨fallback.contributed, 404, false⟩
  redirected : ∀ target, fallback.redirect = some target → reply.body = .empty ∧
    ∀ name, reply.fields.values name =
      if name = "location" ∧ isFieldValue target = true then [target]
      else (fieldsOf { fallback.contributed with stream := false }).values name

/-- The fields of a response that is neither a redirect nor a stream. -/
theorem fieldsOf_whole {r : Response} (hredirect : r.redirect = none) (hstream : r.stream = false) :
    fieldsOf r =
      r.cookies.foldl putCookie (r.headers.foldl (fun fields h => putConfigured fields h.1 h.2) []) := by
  unfold fieldsOf putKind
  rw [hredirect, hstream]
  rfl

/-- A fallback is written out with its redirect, and is not looked at for its status. -/
theorem unanswered_render (fallback : Response) :
    Unanswered fallback (render ⟨fallback, 404, false⟩) := by
  refine ⟨rfl, fun hredirect => ?_, fun target hredirect => ⟨?_, fun name => ?_⟩⟩
  · obtain ⟨status, body, delay, headers, cookies, redirect, stream⟩ := fallback
    obtain rfl : redirect = none := hredirect
    rfl
  · show bodyOf fallback = .empty
    unfold bodyOf
    rw [hredirect]
    rfl
  · -- the location is set last, over a configured one of that name
    show (fieldsOf fallback).values name = _
    rw [fieldsOf_whole (r := { fallback.contributed with stream := false }) rfl rfl]
    unfold fieldsOf putKind
    rw [hredirect]
    dsimp only
    by_cases hvalue : isFieldValue target = true
    · rw [if_pos hvalue]
      by_cases hname : name = "location"
      · rw [if_pos ⟨hname, hvalue⟩, hname, Fields.values_set_self]
      · rw [if_neg (fun h => hname h.1), Fields.values_set_ne hname]
        rfl
    · rw [if_neg hvalue, if_neg (fun h => hvalue h.2)]
      rfl

end Http.Reply

/-! ## Requests -/

/-- An answer that is not a behavior's is the fallback, and leaves the registry as it is. -/
theorem Registry.dispatch_unmatched {registry : Registry} {method path : String}
    (h : (registry.dispatch method path).answer.matched = false) :
    registry.dispatch method path = ⟨.ofFallback registry.fallback, registry, none, false⟩ := by
  unfold dispatch at h ⊢
  split at h
  next => cases h
  next => rfl

namespace Service

/-- The fallback of the last published set, which is empty if there is none. -/
def lastFallback (calls : List Call) : Response :=
  ((calls.filterMap Call.published?).getLast?.bind (·.fallback)).getD {}

theorem fallback_afterCalls (calls : List Call) :
    (afterCalls {} calls).registry.fallback.getD {} = lastFallback calls := by
  have hsets := chronicle_sets calls {} []
  rw [List.map_nil, List.append_nil] at hsets
  rw [(balanced_afterCalls calls balanced_start).serves.fallback]
  unfold lastFallback
  -- the current epoch is that of the last set
  cases hepochs : chronicle {} [] calls with
  | nil =>
    rw [hepochs] at hsets
    rw [List.reverse_eq_nil_iff.mp hsets.symm]
    rfl
  | cons e past =>
    rw [hepochs, List.map_cons] at hsets
    rw [← List.head?_reverse, ← hsets]
    rfl

/-- **What an unanswered request gets.** After any sequence of publications and queries, a
request that no behavior answers changes nothing and gets the fallback of the last published
set with status 404. The reply is that of the contributed part of the fallback, unless this
has a redirect, which takes the place of its body. -/
theorem unanswered_afterCalls (calls : List Call) {method path : String}
    (h : ((afterCalls {} calls).registry.dispatch method path).answer.matched = false) :
    ((afterCalls {} calls).registry.dispatch method path).answer = ⟨lastFallback calls, 404, false⟩ ∧
      ((afterCalls {} calls).registry.dispatch method path).registry =
        (afterCalls {} calls).registry ∧
      Http.Reply.Unanswered (lastFallback calls)
        (Http.Reply.render ((afterCalls {} calls).registry.dispatch method path).answer) := by
  have hanswer : ((afterCalls {} calls).registry.dispatch method path).answer =
      ⟨lastFallback calls, 404, false⟩ := by
    rw [Registry.dispatch_unmatched h, ← fallback_afterCalls]
    rfl
  refine ⟨hanswer, by rw [Registry.dispatch_unmatched h], ?_⟩
  rw [hanswer]
  exact Http.Reply.unanswered_render _

/-- A set with a fallback and no behavior. -/
def onlyFallback : BehaviorSet :=
  { fallback := some { status := some 500, body := some "hi" } }

/-- The status of the fallback does not show. -/
theorem unanswered_afterCalls_single :
    ((afterCalls {} [.publish onlyFallback]).registry.dispatch "GET" "/a").answer.matched = false ∧
      Http.Reply.Unanswered { status := some 500, body := some "hi" }
        (Http.Reply.render
          ((afterCalls {} [.publish onlyFallback]).registry.dispatch "GET" "/a").answer) :=
  have h : ((afterCalls {} [.publish onlyFallback]).registry.dispatch "GET" "/a").answer.matched =
      false := by decide
  ⟨h, (unanswered_afterCalls _ h).2.2⟩

/-- A file whose default section has a redirect and a body: the reply is a 404 that points
somewhere, and the body is not sent. -/
theorem not_contributed_redirect :
    ∃ sections set,
      BehaviorFile.ofText .merge "[default]\nredirect = /x\nbody = hi\n" = .ok sections ∧
      BehaviorSet.compile .epoch sections = .ok set ∧
      ((Registry.publish {} set).dispatch "GET" "/a").answer.matched = false ∧
      Http.Reply.render ((Registry.publish {} set).dispatch "GET" "/a").answer =
        ⟨404, [("location", "/x")], .empty⟩ ∧
      Http.Reply.render ⟨(set.fallback.getD {}).contributed, 404, false⟩ =
        ⟨404, [], .whole "hi"⟩ := by
  refine ⟨[⟨"default", 0, [⟨"redirect", "/x", 2⟩, ⟨"body", "hi", 3⟩]⟩],
    { fallback := some { redirect := some "/x", body := some "hi" } }, ?_, ?_, ?_, ?_, ?_⟩
  · decide +kernel
  · decide +kernel
  · decide +kernel
  · decide +kernel
  · decide +kernel

end Service

end StubServer
