import Mathlib.Control.Monad.Basic
import StubServer.Behavior.Compile
import StubServer.Http.Reply
import StubServer.Proofs.BehaviorFile.Reading

/-!
# What an event stream delivers

A client of an event stream reads lines, and a line ends at a line feed, at a carriage return, or
at both in a row. The lines that begin with `data:` are collected, and a blank line delivers what
was collected as one event. The server knows line feeds only: the body is split there, and each
of its lines is sent as an event of its own.

The client starts afresh after the blank line that ends an event, so it reads each event by itself
(`received_events`), and what a whole stream delivers is what its lines carry one by one. A line
without a carriage return carries itself (`carried_eq`). A line with one carries what stands before
it, and the rest is read as lines of the stream (`carried_cut`); no event that is delivered has a
carriage return (`return_notMem_received`). So a body arrives if and only if it has none.
-/

namespace StubServer.Http

open Text

/-! ## A client -/

/-- The lines of a stream as its client reads them, after the beginning of the first one. A last
line that is not ended is not read. -/
def streamLines : List Char → List Char → List (List Char)
  | _, [] => []
  | begun, '\r' :: '\n' :: rest => begun :: streamLines [] rest
  | begun, c :: rest =>
    if c = '\n' ∨ c = '\r' then begun :: streamLines [] rest else streamLines (begun ++ [c]) rest

/-- The text of a data line, which may stand after one space. -/
def dataOf? (line : List Char) : Option (List Char) :=
  (after? "data:".toList line).map fun text => (after? [' '] text).getD text

/-- The event of the texts that were collected; there is none if nothing was. -/
def eventOf (collected : List (List Char)) : List String :=
  if collected = [] then [] else [String.ofList (['\n'].intercalate collected)]

/-- The events that the lines of a stream deliver after some texts were collected. -/
def deliver : List (List Char) → List (List Char) → List String
  | _, [] => []
  | collected, [] :: rest => eventOf collected ++ deliver [] rest
  | collected, line :: rest => deliver (collected ++ (dataOf? line).toList) rest

/-- The events that a client receives from the pieces of a body. -/
def received (chunks : List String) : List String :=
  deliver [] (streamLines [] (chunks.flatMap String.toList))

/-- The events that a client receives for one line of a body. -/
def carried (line : String) : List String :=
  received [Body.event line]

/-! ## Lines -/

/-- The characters of a text in parts are those of its parts, but for the separators. -/
theorem mem_intercalate {c sep : Char} (hc : c ≠ sep) : ∀ (parts : List (List Char)),
    c ∈ [sep].intercalate parts ↔ ∃ part ∈ parts, c ∈ part
  | [] => by
    rw [List.intercalate_nil]
    simp only [List.not_mem_nil, false_and, exists_false]
  | [part] => by
    rw [List.intercalate_singleton]
    simp only [List.mem_singleton, exists_eq_left]
  | part :: next :: rest => by
    rw [List.intercalate_cons_cons, List.mem_append, List.mem_append,
      mem_intercalate hc (next :: rest), List.mem_singleton, or_iff_left hc]
    simp only [List.mem_cons, exists_eq_or_imp]

section Lines

variable {begun l : List Char}

/-- The first character of a text, unless it belongs to a pair. -/
theorem streamLines_cons {c : Char} {rest : List Char} (h : c = '\r' → rest.head? ≠ some '\n') :
    streamLines begun (c :: rest) =
      if c = '\n' ∨ c = '\r' then begun :: streamLines [] rest
      else streamLines (begun ++ [c]) rest := by
  rw [streamLines]
  rintro rest rfl rfl
  exact h rfl rfl

/-- A text that ends no line is part of the next one. -/
theorem streamLines_append (hfeed : '\n' ∉ l) (hreturn : '\r' ∉ l) (rest : List Char) :
    streamLines begun (l ++ rest) = streamLines (begun ++ l) rest := by
  induction l generalizing begun with
  | nil => rw [List.nil_append, List.append_nil]
  | cons c l ih =>
    obtain ⟨hc, hl⟩ := not_or.mp fun h => hfeed (List.mem_cons.mpr h)
    obtain ⟨hc', hl'⟩ := not_or.mp fun h => hreturn (List.mem_cons.mpr h)
    rw [List.cons_append, streamLines_cons (fun h => absurd h.symm hc'),
      if_neg (not_or.mpr ⟨Ne.symm hc, Ne.symm hc'⟩), ih hl hl', List.append_assoc,
      List.singleton_append]

/-- After a line feed the client starts afresh, whatever was before. -/
theorem streamLines_feed (begun text rest : List Char) :
    streamLines begun (text ++ '\n' :: rest) =
      streamLines begun (text ++ ['\n']) ++ streamLines [] rest := by
  induction begun, text using streamLines.induct with
  | case1 begun => rfl
  | case2 begun text ih => exact congrArg (begun :: ·) ih
  | case3 begun c text hpair hends ih =>
    cases text with
    | nil => rcases hends with rfl | rfl <;> rfl
    | cons d text =>
      have hnext : c = '\r' → some d ≠ some '\n' := fun hc hd =>
        hpair text hc (by rw [Option.some.inj hd])
      show streamLines begun (c :: (d :: text ++ '\n' :: rest)) =
        streamLines begun (c :: (d :: text ++ ['\n'])) ++ _
      rw [streamLines_cons hnext, streamLines_cons hnext, if_pos hends, if_pos hends, ih]
      rfl
  | case4 begun c text hpair hends ih =>
    have hc : c ≠ '\r' := fun hc => hends (.inr hc)
    rw [List.cons_append, List.cons_append, streamLines_cons (absurd · hc),
      streamLines_cons (absurd · hc), if_neg hends, if_neg hends, ih]

/-- No line of a stream has a carriage return. -/
theorem return_notMem_streamLines (text : List Char) (hbegun : '\r' ∉ begun) :
    ∀ line ∈ streamLines begun text, '\r' ∉ line := by
  induction begun, text using streamLines.induct with
  | case1 begun => exact fun line hline => absurd hline List.not_mem_nil
  | case2 begun text ih => exact List.forall_mem_cons.mpr ⟨hbegun, ih List.not_mem_nil⟩
  | case3 begun c text hpair hends ih =>
    rw [streamLines, if_pos hends]
    · exact List.forall_mem_cons.mpr ⟨hbegun, ih List.not_mem_nil⟩
    · exact hpair
  | case4 begun c text hpair hends ih =>
    rw [streamLines, if_neg hends]
    · refine ih fun hmem => ?_
      rcases List.mem_append.mp hmem with hmem | hmem
      · exact hbegun hmem
      · exact hends (.inr (List.mem_singleton.mp hmem).symm)
    · exact hpair

end Lines

/-! ## Events -/

section Events

variable {collected : List (List Char)}

/-- After a blank line nothing is collected. -/
theorem deliver_append_blank (lines rest : List (List Char)) :
    deliver collected (lines ++ [] :: rest) =
      deliver collected (lines ++ [[]]) ++ deliver [] rest := by
  induction collected, lines using deliver.induct with
  | case1 collected =>
    show eventOf collected ++ deliver [] rest = (eventOf collected ++ []) ++ deliver [] rest
    rw [List.append_nil]
  | case2 collected lines ih =>
    show eventOf collected ++ deliver [] (lines ++ [] :: rest) =
      (eventOf collected ++ deliver [] (lines ++ [[]])) ++ deliver [] rest
    rw [ih, List.append_assoc]
  | case3 collected line lines hline ih =>
    rw [List.cons_append, List.cons_append, deliver.eq_3 _ _ _ hline, deliver.eq_3 _ _ _ hline, ih]

/-- The text of a data line is the end of that line. -/
theorem suffix_of_dataOf? {line text : List Char} (h : dataOf? line = some text) :
    text <:+ line := by
  obtain ⟨rest, hrest, rfl⟩ := Option.map_eq_some_iff.mp h
  have hline := after?_eq_some hrest
  cases hspace : after? [' '] rest with
  | none => exact ⟨_, hline.symm⟩
  | some text =>
    refine ⟨"data:".toList ++ [' '], ?_⟩
    rw [hline, after?_eq_some hspace, List.append_assoc]
    rfl

/-- No event that lines deliver has a character that none of them has, other than a line feed. -/
theorem notMem_of_mem_deliver {c : Char} (hc : c ≠ '\n') {lines : List (List Char)}
    (hlines : ∀ line ∈ lines, c ∉ line) (hcollected : ∀ text ∈ collected, c ∉ text) :
    ∀ e ∈ deliver collected lines, c ∉ e.toList := by
  induction collected, lines using deliver.induct with
  | case1 collected => exact fun e he => absurd he List.not_mem_nil
  | case2 collected lines ih =>
    intro e he hmem
    rcases List.mem_append.mp he with he | he
    · unfold eventOf at he
      split at he
      next => exact List.not_mem_nil he
      next =>
        rw [List.mem_singleton.mp he, String.toList_ofList] at hmem
        obtain ⟨text, htext, hct⟩ := (mem_intercalate hc collected).mp hmem
        exact hcollected text htext hct
    · exact ih (List.forall_mem_cons.mp hlines).2 (fun _ h => absurd h List.not_mem_nil) e he hmem
  | case3 collected line lines hline ih =>
    rw [deliver.eq_3 _ _ _ hline]
    obtain ⟨hfirst, hothers⟩ := List.forall_mem_cons.mp hlines
    refine ih hothers fun text htext => ?_
    rcases List.mem_append.mp htext with htext | htext
    · exact hcollected text htext
    · exact fun hmem => hfirst ((suffix_of_dataOf? (Option.mem_toList.mp htext)).subset hmem)

end Events

/-! ## What a line carries -/

section Carried

variable {line : String} {l r : List Char}

/-- No event that a client receives has a carriage return. -/
theorem return_notMem_received (chunks : List String) : ∀ e ∈ received chunks, '\r' ∉ e.toList :=
  notMem_of_mem_deliver (by decide) (return_notMem_streamLines _ List.not_mem_nil)
    (fun _ h => absurd h List.not_mem_nil)

/-- An event is a data line and a blank one, and the client starts afresh after it. -/
theorem streamLines_event (line : String) (rest : List Char) :
    streamLines [] ((Body.event line).toList ++ rest) =
      streamLines [] ("data: ".toList ++ line.toList ++ ['\n']) ++ [] :: streamLines [] rest := by
  have hevent : (Body.event line).toList ++ rest =
      ("data: ".toList ++ line.toList) ++ '\n' :: '\n' :: rest := by
    unfold Body.event
    rw [String.toList_append, String.toList_append, List.append_assoc]
    rfl
  rw [hevent, streamLines_feed]
  rfl

theorem carried_eq_deliver (line : String) :
    carried line = deliver [] (streamLines [] ("data: ".toList ++ line.toList ++ ['\n']) ++ [[]]) := by
  unfold carried received
  rw [List.flatMap_singleton, ← List.append_nil (Body.event line).toList, streamLines_event]
  rfl

/-- The client reads each event by itself. -/
theorem received_events (lines : List String) :
    received (lines.map Body.event) = lines.flatMap carried := by
  induction lines with
  | nil => rfl
  | cons line lines ih =>
    rw [List.map_cons, List.flatMap_cons, ← ih, carried_eq_deliver]
    unfold received
    rw [List.flatMap_cons, streamLines_event, deliver_append_blank]

theorem dataOf?_data (text : List Char) : dataOf? ("data: ".toList ++ text) = some text := by
  unfold dataOf?
  rw [show "data: ".toList ++ text = "data:".toList ++ ' ' :: text from rfl, after?_append]
  rfl

/-- The text of a data line is collected. -/
theorem deliver_data (text : List Char) (lines : List (List Char)) :
    deliver [] (("data: ".toList ++ text) :: lines) = deliver [text] lines := by
  show deliver ([] ++ (dataOf? ("data: ".toList ++ text)).toList) lines = _
  rw [dataOf?_data]
  rfl

/-- The data line of a text that ends no line. -/
theorem streamLines_data (hfeed : '\n' ∉ l) (hreturn : '\r' ∉ l) (rest : List Char) :
    streamLines [] ("data: ".toList ++ l ++ rest) = streamLines ("data: ".toList ++ l) rest := by
  have hdata : ∀ c, c ∉ "data: ".toList → c ∉ l → c ∉ "data: ".toList ++ l := by
    intro c hc hl hmem
    exact (List.mem_append.mp hmem).elim hc hl
  rw [streamLines_append (hdata _ (by decide) hfeed) (hdata _ (by decide) hreturn), List.nil_append]

/-- A line without a carriage return carries itself. -/
theorem carried_eq (hfeed : '\n' ∉ line.toList) (hreturn : '\r' ∉ line.toList) :
    carried line = [line] := by
  rw [carried_eq_deliver, streamLines_data hfeed hreturn]
  show deliver [] (("data: ".toList ++ line.toList) :: [[]]) = [line]
  rw [deliver_data]
  show [String.ofList (['\n'].intercalate [line.toList])] = [line]
  rw [List.intercalate_singleton, String.ofList_toList]

/-- A line with a carriage return carries what stands before it, and what follows is read as lines
of the stream. -/
theorem carried_cut (hfeed : '\n' ∉ line.toList) (hline : line.toList = l ++ '\r' :: r)
    (hreturn : '\r' ∉ l) :
    carried line = deliver [l] (streamLines [] (r ++ ['\n', '\n'])) := by
  rw [hline] at hfeed
  have hl : '\n' ∉ l := fun h => hfeed (List.mem_append_left _ h)
  have hr : '\n' ∉ r := fun h => hfeed (List.mem_append_right _ (List.mem_cons_of_mem _ h))
  rw [carried_eq_deliver, hline, ← List.append_assoc, List.append_assoc _ ('\r' :: r),
    streamLines_data hl hreturn]
  cases r with
  | nil => exact deliver_data l [[]]
  | cons c r =>
    have hpair : '\r' = '\r' → some c ≠ some '\n' := by
      rintro - hc
      exact hr (by rw [Option.some.inj hc]; exact List.mem_cons_self)
    show deliver [] (streamLines _ ('\r' :: (c :: r ++ ['\n'])) ++ [[]]) = _
    rw [streamLines_cons hpair, if_pos (.inr rfl), List.cons_append, deliver_data,
      streamLines_feed [] (c :: r) ['\n']]
    rfl

end Carried

/-! ## Streams -/

/-- A body has a carriage return if and only if one of its lines has one. -/
theorem return_notMem_iff (text : String) :
    '\r' ∉ text.toList ↔ ∀ line ∈ eventLines (some text), '\r' ∉ line.toList := by
  have hjoin : ['\n'].intercalate (text.toList.splitOn '\n') = text.toList :=
    List.intercalate_splitOn '\n'
  rw [← hjoin, mem_intercalate (by decide), eventLines, List.forall_mem_map]
  simp only [String.toList_ofList, not_exists, not_and]

/-- No line has a line feed. -/
theorem newline_notMem_eventLines (body : Option String) :
    ∀ line ∈ eventLines body, '\n' ∉ line.toList := by
  cases body with
  | none => exact fun line hline => absurd hline List.not_mem_nil
  | some text =>
    intro line hline
    obtain ⟨line, hmem, rfl⟩ := List.mem_map.mp hline
    rw [String.toList_ofList]
    exact BehaviorFile.notMem_of_mem_splitOn '\n' text.toList line hmem

/-- What a client receives of a body that is sent in pieces. -/
structure Streamed (body : Option String) (chunks : List String) : Prop where
  /-- Each line is sent in a piece of its own, so nothing is sent if there is no body. -/
  length : chunks.length = (eventLines body).length
  /-- The pieces that have been sent deliver what their lines carry. -/
  stepwise : ∀ n, received (chunks.take n) = ((eventLines body).take n).flatMap carried
  /-- A line without a carriage return arrives as one event. -/
  verbatim : ∀ line ∈ eventLines body, '\r' ∉ line.toList → carried line = [line]
  /-- Of a line with one only what stands before it surely arrives, for the rest is read as lines of
  the stream. -/
  cut : ∀ line ∈ eventLines body, ∀ l r, line.toList = l ++ '\r' :: r → '\r' ∉ l →
    carried line = deliver [l] (streamLines [] (r ++ ['\n', '\n']))
  /-- So the lines of a body arrive as they are if and only if it has no carriage return. -/
  complete : received chunks = eventLines body ↔ ∀ text ∈ body, '\r' ∉ text.toList

/-- Lines arrive as they are if and only if none of them has a carriage return. -/
theorem flatMap_carried_eq_iff {lines : List String} (hfeed : ∀ line ∈ lines, '\n' ∉ line.toList) :
    lines.flatMap carried = lines ↔ ∀ line ∈ lines, '\r' ∉ line.toList := by
  constructor
  · intro h line hline
    rw [← h] at hline
    obtain ⟨source, -, hcarried⟩ := List.mem_flatMap.mp hline
    exact return_notMem_received _ line hcarried
  · intro h
    have hcarried : lines.map carried = lines.map ([·]) :=
      List.map_congr_left fun line hline => carried_eq (hfeed line hline) (h line hline)
    rw [List.flatMap_def, hcarried, ← List.flatMap_def, List.flatMap_singleton']

theorem streamed (body : Option String) : Streamed body ((eventLines body).map Body.event) := by
  have hfeed := newline_notMem_eventLines body
  constructor
  case length => rw [List.length_map]
  case stepwise =>
    intro n
    rw [← List.map_take, received_events]
  case verbatim => exact fun line hline => carried_eq (hfeed line hline)
  case cut => exact fun line hline _ _ => carried_cut (hfeed line hline)
  case complete =>
    rw [received_events, flatMap_carried_eq_iff hfeed]
    cases body with
    | none => exact iff_of_true (fun _ h => absurd h List.not_mem_nil) (fun _ h => nomatch h)
    | some text =>
      rw [← return_notMem_iff]
      exact ⟨fun h _ htext => Option.some.inj htext ▸ h, fun h => h text rfl⟩

/-- **What an event stream delivers.** A stream that is no redirect is sent line by line, and each
line is delivered as one event as soon as it is sent, if it has no carriage return. -/
theorem Reply.render_events (d : Dispatch) (hredirect : d.response.redirect = none)
    (hstream : d.response.stream = true) :
    Streamed d.response.body (render d).body.chunks := by
  have hbody : (render d).body = .events (eventLines d.response.body) := by
    show bodyOf d.response = _
    unfold bodyOf
    rw [hredirect, hstream]
    rfl
  rw [hbody]
  exact streamed d.response.body

/-- A body with an empty line, a line that begins with a space, one that looks like a field, and a
line feed at its end. -/
theorem Reply.render_events_lines :
    let r : Response := { body := some "\n a\ndata: b\n", stream := true }
    r.redirect = none ∧ r.stream = true ∧
      received (render ⟨r, 200, true⟩).body.chunks = ["", " a", "data: b", ""] := by
  intro r
  refine ⟨rfl, rfl, ?_⟩
  have hlines : eventLines r.body = ["", " a", "data: b", ""] := by decide +kernel
  rw [← hlines, (render_events ⟨r, 200, true⟩ rfl rfl).complete]
  rintro text ⟨⟩
  decide

/-- A file with a stream whose body is one line with a carriage return: its client receives the
beginning of the line and nothing of the rest. -/
theorem Reply.not_delivered_return :
    ∃ sections set,
      BehaviorFile.ofText .merge "[GET /a]\nstream = true\nbody = a\rb\n" = .ok sections ∧
      BehaviorSet.compile .epoch sections = .ok set ∧
      ((Registry.publish {} set).dispatch "GET" "/a").answer =
        ⟨{ body := some "a\rb", stream := true }, 200, true⟩ ∧
      eventLines (some "a\rb") = ["a\rb"] ∧
      received (render ((Registry.publish {} set).dispatch "GET" "/a").answer).body.chunks =
        ["a"] := by
  refine ⟨[⟨"default", 0, []⟩,
      ⟨"GET /a", 1, [⟨"stream", "true", 2⟩, ⟨"body", "a\rb", 3⟩]⟩],
    { fallback := some {}
      behaviors := [⟨.get, "/a", none, { body := some "a\rb", stream := true }⟩] }, ?_, ?_, ?_, ?_, ?_⟩
  · decide +kernel
  · decide +kernel
  · decide +kernel
  · decide +kernel
  · decide +kernel

end StubServer.Http
