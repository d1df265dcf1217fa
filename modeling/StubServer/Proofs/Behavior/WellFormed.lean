import Mathlib
import StubServer.Proofs.BehaviorFile.Lines
import StubServer.Proofs.Dispatch.Succession
import StubServer.Proofs.Duration.Value
import StubServer.Proofs.Http.Cookies

/-!
# Compiled sets are served as they are written

A renderer checks what it sends: a status that is none becomes 200, and a header or a redirect
target that cannot be sent is left out. None of these checks ever fails on what a file was
compiled to, because the compiler made them first:

> `Response.WellFormed`, `Behavior.WellFormed`, `BehaviorSet.WellFormed`: every value is in the
> range that its property has, whatever properties there were and in which order.

Each clause is an invariant of single edits (`compile_keeps`), and the path and the count of a
behavior come from its own section. The second half follows from the first alone: for a
well-formed response the checks can be struck out of the renderer (`fieldsOf_eq`), so its reply
is `Complete`. `compile_wellFormed` joins the two over every dispatch of a set.
-/

namespace StubServer

open BehaviorFile (Property Section)

/-! ## What can be written -/

theorem waitingTime?_le {value : String} {nanos : Nat} (h : waitingTime? value = some nanos) :
    nanos ≤ Duration.maxNanos := by
  unfold waitingTime? at h
  split at h
  next n hparse =>
    obtain ⟨hpos, hnanos⟩ := Option.ite_none_right_eq_some.mp h
    have hrange := Duration.natAbs_le_of_parse hparse
    have hvalue : n.toNat = nanos := Option.some.inj hnanos
    omega
  next => cases h

theorem repetitionCount?_lt {value : String} {count : Nat} (h : repetitionCount? value = some count) :
    count < Text.wordSize 63 := by
  unfold repetitionCount? at h
  obtain ⟨n, hn, rfl⟩ := Option.map_eq_some_iff.mp h
  obtain ⟨hword, hpos⟩ := Option.filter_eq_some_iff.mp hn
  have hfits := (Option.filter_eq_some_iff.mp hword).2
  simp only [Text.fitsInt64, Bool.and_eq_true, decide_eq_true_eq] at hfits hpos
  omega

/-- A path begins with a slash and has no blanks around it. -/
theorem routeOf_path {name path : String} {method : Http.Method}
    (h : routeOf name = .ok (method, path)) :
    path.toList.head? = some '/' ∧ Text.trim path.toList = path.toList := by
  unfold routeOf at h
  split at h
  case h_1 => cases h
  case h_2 word rest _ =>
    dsimp only at h
    split at h
    case isFalse => cases h
    case isTrue hslash =>
      split at h
      case h_2 => cases h
      case h_1 m _ =>
        obtain ⟨-, rfl⟩ := Prod.mk.inj (Except.ok.inj h)
        rw [String.toList_ofList]
        exact ⟨hslash, Text.trim_trim rest⟩

/-- The text of a header has something in it and no blanks around it. -/
theorem headerField_trimmed {value name text : String} (h : headerField value = .ok (name, text)) :
    text ≠ "" ∧ Text.trim text.toList = text.toList := by
  obtain ⟨key, rest, -, -, rfl, hne, -⟩ := headerField_eq_ok h
  refine ⟨hne, ?_⟩
  unfold BehaviorFile.kept
  rw [String.toList_ofList, Text.trim_trim]

namespace Http

/-- A field name in lower case, as it is kept. -/
structure IsLowerName (name : String) : Prop where
  token : isToken name = true
  lower : ∀ c ∈ name.toList, c.isUpper = false
  length : name.toList.length ≤ maxNameLength

/-- These are the names that write themselves. -/
theorem isLowerName_iff {name : String} : IsLowerName name ↔ fieldName? name = some name := by
  unfold fieldName?
  constructor
  · intro h
    have hlower : name.toList.map Char.toLower = name.toList := by
      refine (List.map_congr_left fun c hc => ?_).trans (List.map_id _)
      exact Char.toLower_eq_of_not_isUpper (by simp [h.lower c hc])
    rw [h.token, decide_eq_true h.length, hlower, String.ofList_toList]
    rfl
  · intro h
    obtain ⟨hlegal, hname⟩ := Option.ite_none_right_eq_some.mp h
    simp only [Bool.and_eq_true, decide_eq_true_eq] at hlegal
    refine ⟨hlegal.1, fun c hc => ?_, hlegal.2⟩
    rw [← Option.some.inj hname, String.toList_ofList] at hc
    obtain ⟨c', -, rfl⟩ := List.mem_map.mp hc
    exact Char.isUpper_toLower_eq_false c'

end Http

/-! ## Well-formed sets -/

/-- A response whose values are all in range. -/
structure Response.WellFormed (r : Response) : Prop where
  status : ∀ code, r.status = some code → 100 ≤ code ∧ code ≤ 599
  delay : ∀ nanos, r.delay = some nanos → nanos ≤ 2 ^ 63 - 1
  distinct : (r.headers.map (·.1)).Nodup
  names : ∀ h ∈ r.headers, Http.IsLowerName h.1
  values : ∀ h ∈ r.headers, h.2 ≠ "" ∧ Text.trim h.2.toList = h.2.toList ∧
    Http.isFieldValue h.2 = true
  redirect : ∀ target, r.redirect = some target → Http.isFieldValue target = true

/-- Its headers pass the checks of the renderer. -/
theorem Response.WellFormed.legal {r : Response} (hr : r.WellFormed) :
    ∀ h ∈ r.headers, Http.fieldName? h.1 = some h.1 ∧ Http.isFieldValue h.2 = true :=
  fun h hmem => ⟨Http.isLowerName_iff.mp (hr.names h hmem), (hr.values h hmem).2.2⟩

structure Behavior.WellFormed (b : Behavior) : Prop where
  slash : b.path.toList.head? = some '/'
  trimmed : Text.trim b.path.toList = b.path.toList
  repetitions : ∀ count, b.repetitions = some count → count ≤ 2 ^ 63 - 1
  response : b.response.WellFormed

structure BehaviorSet.WellFormed (set : BehaviorSet) : Prop where
  fallback : ∀ r, set.fallback = some r → r.WellFormed
  behaviors : ∀ b ∈ set.behaviors, b.WellFormed

theorem Response.wellFormed_empty : Response.WellFormed {} := by
  refine ⟨?_, ?_, List.nodup_nil, ?_, ?_, ?_⟩
  · intro code h; cases h
  · intro nanos h; cases h
  · intro h hh; cases hh
  · intro h hh; cases hh
  · intro target h; cases h

section Invariants

variable {now : Time.Instant} {sections : List Section} {set : BehaviorSet}

theorem BehaviorSet.compile_delay (h : compile now sections = .ok set) :
    set.Every fun r => ∀ nanos, r.delay = some nanos → nanos ≤ Duration.maxNanos := by
  refine compile_keeps (by intro nanos hnanos; cases hnanos) ?_ h
  intro hasCookie p edit d hread hd nanos hnanos
  cases edit with
  | delay n =>
    obtain rfl : n = nanos := Option.some.inj hnanos
    exact waitingTime?_le (Edit.read_eq_ok.mp hread).1.2
  | _ => exact hd nanos hnanos

theorem BehaviorSet.compile_headerTexts (h : compile now sections = .ok set) :
    set.Every fun r => ∀ h ∈ r.headers, h.2 ≠ "" ∧ Text.trim h.2.toList = h.2.toList := by
  refine compile_keeps (by intro h hmem; cases hmem) ?_ h
  intro hasCookie p edit d hread hd
  cases edit with
  | header name value =>
    intro h hmem
    rcases Response.mem_putHeader hmem with rfl | hold
    · exact headerField_trimmed (Edit.read_eq_ok.mp hread).1.2
    · exact hd h hold
  | _ => exact hd

theorem BehaviorSet.compile_redirect (h : compile now sections = .ok set) :
    set.Every fun r => ∀ target, r.redirect = some target → Http.isFieldValue target = true := by
  refine compile_keeps (by intro target htarget; cases htarget) ?_ h
  intro hasCookie p edit d hread hd target htarget
  cases edit with
  | redirect text =>
    obtain ⟨-, hvalue, hsame⟩ := (Edit.read_eq_ok.mp hread).1
    rw [← Option.some.inj htarget, ← hsame]
    exact hvalue
  | _ => exact hd target htarget

/-- The count of a draft is one that some property wrote. -/
theorem Draft.putAll_repetitions (properties : List Property) {d : Draft}
    (h : Draft.putAll now {} properties = .ok d) :
    ∀ count, d.repetitions = some count → count < Text.wordSize 63 := by
  refine putAll_keeps (P := fun d => ∀ count, d.repetitions = some count → count < Text.wordSize 63)
    ?_ properties (by intro count hcount; cases hcount) h
  intro hasCookie p edit d hread hd count hcount
  cases edit with
  | repetitions n =>
    obtain rfl : n = count := Option.some.inj hcount
    exact repetitionCount?_lt (Edit.read_eq_ok.mp hread).1.2
  | _ => exact hd count hcount

/-- The responses of a compiled set are well formed. -/
theorem BehaviorSet.compile_responses (h : compile now sections = .ok set) :
    set.Every Response.WellFormed := by
  have hjoin : ∀ {r : Response}, r.HasLegalHeaders → (∀ code, r.status = some code → 100 ≤ code ∧ code ≤ 599) →
      (∀ nanos, r.delay = some nanos → nanos ≤ Duration.maxNanos) →
      (∀ h ∈ r.headers, h.2 ≠ "" ∧ Text.trim h.2.toList = h.2.toList) →
      (∀ target, r.redirect = some target → Http.isFieldValue target = true) → r.WellFormed := by
    intro r hlegal hstatus hdelay htexts hredirect
    refine ⟨hstatus, hdelay, hlegal.distinct, ?_, ?_, hredirect⟩
    · exact fun h hmem => Http.isLowerName_iff.mpr (hlegal.legal h hmem).1
    · exact fun h hmem => ⟨(htexts h hmem).1, (htexts h hmem).2, (hlegal.legal h hmem).2⟩
  have hlegal := compile_legalHeaders h
  have hstatus := compile_status_bounds h
  have hdelay := compile_delay h
  have htexts := compile_headerTexts h
  have hredirect := compile_redirect h
  constructor
  · intro r hr
    exact hjoin (hlegal.1 r hr) (hstatus.1 r hr) (hdelay.1 r hr) (htexts.1 r hr) (hredirect.1 r hr)
  · intro b hb
    exact hjoin (hlegal.2 b hb) (hstatus.2 b hb) (hdelay.2 b hb) (htexts.2 b hb) (hredirect.2 b hb)

theorem BehaviorSet.compile_set (h : compile now sections = .ok set) : set.WellFormed := by
  have hresponses := compile_responses h
  refine ⟨hresponses.1, fun b hb => ?_⟩
  obtain ⟨s, hs⟩ := compile_behaviors h b hb
  obtain ⟨method, path, d, hroute, hd, rfl⟩ := Behavior.ofSection_eq_ok hs
  obtain ⟨hslash, htrimmed⟩ := routeOf_path hroute
  refine ⟨hslash, htrimmed, fun count hcount => ?_, hresponses.2 _ hb⟩
  exact Nat.le_sub_one_of_lt (Draft.putAll_repetitions s.properties hd count hcount)

end Invariants

/-! ## What is sent of them -/

namespace Http

/-- The fields after each of a list was set, in its order. -/
def Fields.setAll (fields demanded : Fields) : Fields :=
  demanded.foldl (fun fields f => Fields.set fields f.1 f.2) fields

/-- A field stands as long as no other field of its name is set. -/
theorem Fields.mem_setAll {h : String × String} : ∀ (demanded : Fields) {fields : Fields},
    h ∈ fields → h.1 ∉ demanded.map (·.1) → h ∈ fields.setAll demanded
  | [], _, hmem, _ => hmem
  | f :: rest, fields, hmem, hname => by
    obtain ⟨hfirst, hrest⟩ := not_or.mp (fun hin => hname (List.mem_cons.mpr hin))
    have hkept : h ∈ fields.set f.1 f.2 := by
      unfold Fields.set
      exact List.mem_append_left _ (List.mem_filter.mpr ⟨hmem, by simpa using hfirst⟩)
    exact mem_setAll rest hkept hrest

namespace Reply

/-- The fields that the kind of the body demands. -/
def kindFields (r : Response) : Fields :=
  match r.redirect with
  | some target => [("location", target)]
  | none =>
    if r.stream then [("content-type", "text/event-stream"), ("cache-control", "no-cache")] else []

/-- A well-formed response has its headers, its cookies and then what its kind demands, each of
these as the only field of its name. -/
theorem fieldsOf_eq {r : Response} (hr : r.WellFormed) : fieldsOf r = Fields.setAll
    (r.headers ++ (r.cookies.filter (·.isSendable)).map fun c => ("set-cookie", c.line))
    (kindFields r) := by
  rw [fieldsOf_legal hr.distinct hr.legal]
  unfold putKind kindFields
  cases hredirect : r.redirect with
  | some target => exact if_pos (hr.redirect target hredirect)
  | none => cases r.stream <;> rfl

/-- A reply that leaves out nothing that was configured, but cookies that cannot be sent. -/
structure Complete (r : Response) (reply : Reply) : Prop where
  /-- No header is skipped when its turn comes, whatever was put before it. -/
  unskipped : ∀ h ∈ r.headers, ∀ fields, putConfigured fields h.1 h.2 = Fields.set fields h.1 h.2
  /-- The fields, as they would be without a check. -/
  fields : reply.fields = Fields.setAll
    (r.headers ++ (r.cookies.filter (·.isSendable)).map fun c => ("set-cookie", c.line))
    (kindFields r)
  /-- Each header is there in the end, unless the kind of the body demands a field of its name. -/
  headers : ∀ h ∈ r.headers, h.1 ∉ (kindFields r).map (·.1) → h ∈ reply.fields
  redirect : ∀ target, r.redirect = some target → reply.fields.values "location" = [target]

theorem render_complete {r : Response} (hr : r.WellFormed) (status : Nat) (matched : Bool) :
    Complete r (render ⟨r, status, matched⟩) := by
  have hfields : (render ⟨r, status, matched⟩).fields = _ := fieldsOf_eq hr
  refine ⟨fun h hmem fields => ?_, hfields, fun h hmem hname => ?_, fun target htarget => ?_⟩
  · exact putConfigured_legal (hr.legal h hmem).1 (hr.legal h hmem).2 fields
  · rw [hfields]
    exact Fields.mem_setAll _ (List.mem_append_left _ hmem) hname
  · have hkind : kindFields r = [("location", target)] := by
      unfold kindFields
      rw [htarget]
    rw [hfields, hkind]
    exact Fields.values_set_self

end Reply

end Http

/-! ## Serving a set -/

/-- The answers that a set gives to a request. -/
inductive BehaviorSet.Gives (set : BehaviorSet) (method path : String) : Dispatch → Prop
  /-- A behavior answers with its own status, or 200 if it has none. -/
  | matched (b : Behavior) (mem : b ∈ set.behaviors) (accepts : b.accepts method path = true) :
    set.Gives method path ⟨b.response, b.response.status.getD 200, true⟩
  | unmatched : set.Gives method path ⟨set.fallback.getD {}, 404, false⟩

/-- A status in range is sent as it is. -/
theorem Dispatch.ofMatch_eq {r : Response} (hr : r.WellFormed) :
    ofMatch r = ⟨r, r.status.getD 200, true⟩ := by
  have hkept : r.status.filter isStatus = r.status := by
    cases hstatus : r.status with
    | none => rfl
    | some code =>
      have hrange := hr.status code hstatus
      refine Option.filter_some_pos ?_
      simp only [isStatus, Bool.and_eq_true, decide_eq_true_eq]
      omega
  unfold ofMatch
  rw [hkept]

/-- Whatever was asked of a published set before, it gives one of its answers. -/
theorem Registry.dispatch_gives (registry : Registry) {set : BehaviorSet} (hset : set.WellFormed)
    (queries : List Query) (method path : String) :
    set.Gives method path (((registry.publish set).afterQueries queries).dispatch method path).answer := by
  obtain ⟨e, he, hserves, -⟩ := afterQueries_shared method path queries
    (registry.serves_publish set) (Shared.start _)
  cases hnext : e.next method path with
  | none =>
    rw [dispatch_miss hserves hnext, he]
    exact .unmatched
  | some entry =>
    obtain ⟨b, place⟩ := entry
    have hmem : b ∈ set.behaviors := by
      have hentry := Epoch.next_mem hnext
      rw [he] at hentry
      exact List.mem_of_getElem? (List.mk_mem_zipIdx_iff_getElem?.mp hentry)
    obtain ⟨after, hdispatch, -, -⟩ := dispatch_hit hserves hnext
    rw [hdispatch, Dispatch.ofMatch_eq (hset.behaviors b hmem).response]
    exact .matched b hmem (Epoch.next_accepts hnext).1

theorem BehaviorSet.Gives.wellFormed {set : BehaviorSet} (hset : set.WellFormed)
    {method path : String} {a : Dispatch} (h : set.Gives method path a) : a.response.WellFormed := by
  cases h with
  | matched b mem _ => exact (hset.behaviors b mem).response
  | unmatched =>
    cases hfallback : set.fallback with
    | none => exact Response.wellFormed_empty
    | some r => exact hset.fallback r hfallback

/-- **A compiled set is well formed, and served as it is written.** Whatever sections it was
compiled from, all its values are in range. So wherever it is published and whatever was asked
before, a request gets a behavior's response with exactly its status, or 200 if it has none, or
the fallback with 404; and the reply has every header and the redirect target of that response. -/
theorem BehaviorSet.compile_wellFormed {now : Time.Instant} {sections : List Section}
    {set : BehaviorSet} (h : compile now sections = .ok set) :
    set.WellFormed ∧ ∀ (registry : Registry) (queries : List Query) (method path : String),
      let answer := (((registry.publish set).afterQueries queries).dispatch method path).answer
      set.Gives method path answer ∧
        Http.Reply.Complete answer.response (Http.Reply.render answer) := by
  have hset := compile_set h
  refine ⟨hset, fun registry queries method path => ?_⟩
  have hgives := registry.dispatch_gives hset queries method path
  exact ⟨hgives, Http.Reply.render_complete (hgives.wellFormed hset) _ _⟩

/-- A redirect with a header, a waiting time and a count, asked for twice. -/
theorem BehaviorSet.compile_wellFormed_redirect :
    ∃ set, compile .epoch [⟨"default", 0, []⟩, ⟨"GET /a", 1, [⟨"status_code", "302", 2⟩,
        ⟨"header", "X-Kind :  \t a b ", 3⟩, ⟨"delay", "1.5s", 4⟩, ⟨"redirect", "/b", 5⟩,
        ⟨"repeat", "2", 6⟩]⟩] = .ok set ∧ set.WellFormed ∧
      let answer := (((Registry.publish {} set).afterQueries [.dispatch "GET" "/a"]).dispatch
        "GET" "/a").answer
      answer.status = 302 ∧ set.Gives "GET" "/a" answer ∧
        Http.Reply.Complete answer.response (Http.Reply.render answer) :=
  have h : compile .epoch [⟨"default", 0, []⟩, ⟨"GET /a", 1, [⟨"status_code", "302", 2⟩,
      ⟨"header", "X-Kind :  \t a b ", 3⟩, ⟨"delay", "1.5s", 4⟩, ⟨"redirect", "/b", 5⟩,
      ⟨"repeat", "2", 6⟩]⟩] = .ok { fallback := some {}, behaviors := [⟨.get, "/a", some 2,
        { status := some 302, delay := some 1500000000, headers := [("x-kind", "a b")],
          redirect := some "/b" }⟩] } := by
    decide +kernel
  have hserved := compile_wellFormed h
  ⟨_, h, hserved.1, by decide +kernel, hserved.2 {} [.dispatch "GET" "/a"] "GET" "/a"⟩

end StubServer
