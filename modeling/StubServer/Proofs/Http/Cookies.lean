import Mathlib
import StubServer.Proofs.Behavior.CookieGroups
import StubServer.Proofs.Cookie.Line
import StubServer.Proofs.Http.Fields

/-!
# Cookies that are sent

A reply leaves out what cannot be sent as a header field. The headers of a compiled behavior
were checked when it was read, so all of them are sent (`compile_legalHeaders`). The texts of
its cookies were not, so a cookie can be lost on the way: `compile_cookies` says which ones
are not.

> `CookiesSent`: a response has one cookie for each name that its sections give, in that order,
> and its replies have the lines of those that are `isSendable`, in the same order and after a
> configured `set-cookie` header.
-/

namespace StubServer

open BehaviorFile (Property Section propertiesOf)

/-! ## The headers of a response -/

namespace Http

theorem isTokenChar_toLower {c : Char} (h : isTokenChar c = true) : isTokenChar c.toLower = true := by
  by_cases hupper : c.isUpper = true
  · have halpha : c.toLower.isAlpha = true := by
      rw [Char.isAlpha_toLower_eq_isAlpha]
      unfold Char.isAlpha
      rw [hupper, Bool.true_or]
    unfold isTokenChar Char.isAlphanum
    rw [halpha, Bool.true_or, Bool.true_or]
  · rw [Char.toLower_eq_of_not_isUpper hupper]
    exact h

/-- A field name is one that writes itself. -/
theorem fieldName?_self {text name : String} (h : fieldName? text = some name) :
    fieldName? name = some name := by
  unfold fieldName? at h
  split at h
  case isFalse => cases h
  case isTrue hname =>
    simp only [isToken, Bool.and_eq_true, Bool.not_eq_true', decide_eq_true_eq] at hname
    obtain ⟨⟨hne, hchars⟩, hlength⟩ := hname
    obtain rfl := Option.some.inj h
    unfold fieldName? isToken
    rw [String.toList_ofList, List.length_map, List.map_map, if_pos]
    · congr 2
      exact List.map_congr_left fun c _ => Char.toLower_toLower_eq_toLower c
    · simp only [Bool.and_eq_true, Bool.not_eq_true', decide_eq_true_eq]
      refine ⟨⟨?_, List.all_eq_true.mpr fun c hc => ?_⟩, hlength⟩
      · rw [String.isEmpty_eq_false_iff] at hne ⊢
        intro hempty
        exact hne (String.toList_eq_nil_iff.mp
          (List.map_eq_nil_iff.mp (String.ofList_eq_empty_iff.mp hempty)))
      · obtain ⟨c', hc', rfl⟩ := List.mem_map.mp hc
        exact isTokenChar_toLower (List.all_eq_true.mp hchars c' hc')

end Http

/-- The headers of a response stand under distinct names and can all be sent. -/
structure Response.HasLegalHeaders (r : Response) : Prop where
  increasing : r.headers.Pairwise (·.1 < ·.1)
  legal : ∀ h ∈ r.headers, Http.fieldName? h.1 = some h.1 ∧ Http.isFieldValue h.2 = true

theorem Response.HasLegalHeaders.distinct {r : Response} (h : r.HasLegalHeaders) :
    (r.headers.map (·.1)).Nodup := by
  refine List.Pairwise.map _ ?_ h.increasing
  intro header header' hlt he
  exact String.lt_irrefl _ (he ▸ hlt)

theorem headerField_legal {value name text : String} (h : headerField value = .ok (name, text)) :
    Http.fieldName? name = some name ∧ Http.isFieldValue text = true := by
  obtain ⟨key, rest, -, hname, -, -, htext⟩ := headerField_eq_ok h
  exact ⟨Http.fieldName?_self hname, htext⟩

/-- The headers of a compiled set were checked one by one when it was read. -/
theorem BehaviorSet.compile_legalHeaders {now : Time.Instant} {sections : List Section}
    {set : BehaviorSet} (h : compile now sections = .ok set) : set.Every Response.HasLegalHeaders := by
  refine compile_keeps ⟨List.Pairwise.nil, fun _ h => absurd h (by simp)⟩ ?_ h
  intro hasCookie p edit d hread hd
  cases edit with
  | header name value =>
    refine ⟨Response.putHeader_increasing name value hd.increasing, fun h hmem => ?_⟩
    rcases Response.mem_putHeader hmem with rfl | hold
    · exact headerField_legal (Edit.read_eq_ok.mp hread).1.2
    · exact hd.legal h hold
  | _ => exact ⟨hd.increasing, hd.legal⟩

/-! ## Replies with cookies -/

namespace Http.Reply

/-- A header that can be sent replaces whatever had its name. -/
theorem putConfigured_legal {name value : String} (hname : fieldName? name = some name)
    (hvalue : isFieldValue value = true) (fields : Fields) :
    putConfigured fields name value = fields.set name value := by
  unfold putConfigured
  rw [hname]
  exact if_pos hvalue

/-- Headers that can be sent, under new names, are the fields that come next. -/
theorem foldl_putConfigured : ∀ {table : List (String × String)} (fields : Fields),
    ((fields ++ table).map (·.1)).Nodup →
    (∀ h ∈ table, fieldName? h.1 = some h.1 ∧ isFieldValue h.2 = true) →
    table.foldl (fun fields h => putConfigured fields h.1 h.2) fields = fields ++ table
  | [], fields, _, _ => (List.append_nil fields).symm
  | (n, v) :: rest, fields, hdistinct, hlegal => by
    obtain ⟨hn, hv⟩ := hlegal (n, v) (List.mem_cons_self ..)
    have hnew : ∀ f ∈ fields, (f.1 != n) = true := by
      intro f hf
      rw [List.map_append] at hdistinct
      have hne := (List.nodup_append.mp hdistinct).2.2 f.1 (List.mem_map.mpr ⟨f, hf, rfl⟩) n
        (List.mem_cons_self ..)
      simpa using hne
    have hput : putConfigured fields n v = fields ++ [(n, v)] := by
      rw [putConfigured_legal hn hv, Fields.set, List.filter_eq_self.mpr hnew]
    rw [List.append_cons] at hdistinct
    rw [List.foldl_cons, hput, foldl_putConfigured _ hdistinct
      (fun h hmem => hlegal h (List.mem_cons_of_mem _ hmem)), ← List.append_cons]

/-- Cookies that can be sent come next, in their order. -/
theorem foldl_putCookie : ∀ (cookies : List Cookie) (fields : Fields),
    cookies.foldl putCookie fields =
      fields ++ (cookies.filter (·.isSendable)).map fun c => ("set-cookie", c.line)
  | [], fields => (List.append_nil fields).symm
  | c :: rest, fields => by
    rw [List.foldl_cons, foldl_putCookie rest, List.filter_cons]
    unfold putCookie
    rw [Cookie.isFieldValue_line]
    cases c.isSendable with
    | true =>
      rw [if_pos rfl, if_pos rfl, List.map_cons, List.append_cons]
      rfl
    | false => rfl

/-- So the table of headers is sent as it is, and the cookies after it. -/
theorem fieldsOf_legal {r : Response} (hdistinct : (r.headers.map (·.1)).Nodup)
    (hlegal : ∀ h ∈ r.headers, fieldName? h.1 = some h.1 ∧ isFieldValue h.2 = true) :
    fieldsOf r = putKind r
      (r.headers ++ (r.cookies.filter (·.isSendable)).map fun c => ("set-cookie", c.line)) := by
  have hconfigured : r.headers.foldl (fun fields h => putConfigured fields h.1 h.2) [] = r.headers :=
    foldl_putConfigured [] hdistinct hlegal
  show putKind r (r.cookies.foldl putCookie (r.headers.foldl _ [])) = _
  rw [hconfigured, foldl_putCookie]

/-- What the kind of the body demands is nothing about cookies. -/
theorem values_putKind_cookie (r : Response) (fields : Fields) :
    (putKind r fields).values "set-cookie" = fields.values "set-cookie" := by
  unfold putKind
  split
  next =>
    split
    next => exact Fields.values_set_ne (by decide)
    next => rfl
  next =>
    split
    next => rw [Fields.values_set_ne (by decide), Fields.values_set_ne (by decide)]
    next => rfl

/-- The fields of cookies have one name, and their lines as its values. -/
theorem values_cookieFields (cookies : List Cookie) (name : String) :
    Fields.values (cookies.map fun c => ("set-cookie", c.line)) name =
      if name = "set-cookie" then cookies.map (·.line) else [] := by
  unfold Fields.values
  split
  next hname =>
    rw [hname, List.filter_eq_self.mpr (by simp), List.map_map]
    rfl
  next hname => rw [List.filter_eq_nil_iff.mpr (by simp [Ne.symm hname]), List.map_nil]

/-- The values of `set-cookie`: a configured one, then the cookies that can be sent. -/
theorem values_fieldsOf_cookie {r : Response} (h : r.HasLegalHeaders) :
    (fieldsOf r).values "set-cookie" =
      (r.header? "set-cookie").toList ++ (r.cookies.filter (·.isSendable)).map (·.line) := by
  rw [fieldsOf_legal h.distinct h.legal, values_putKind_cookie, Fields.values_append,
    values_cookieFields, if_pos rfl, Fields.values_eq_find? h.distinct]
  rfl

end Http.Reply

/-! ## The cookies of a file -/

section Names

variable {now : Time.Instant}

/-- The names that a list of properties gives to cookies, in their order. -/
def cookieNames (properties : List Property) : List String :=
  (properties.filter (·.name == "cookie.name")).map (·.value)

theorem cookieNames_append (xs ys : List Property) :
    cookieNames (xs ++ ys) = cookieNames xs ++ cookieNames ys := by
  unfold cookieNames
  rw [List.filter_append, List.map_append]

/-- A name for each group. -/
theorem cookieNames_groups : ∀ properties : List Property,
    (cookieGroups properties).map (·.name) = cookieNames properties
  | [] => rfl
  | p :: rest => by
    have ih := cookieNames_groups rest
    unfold cookieNames at ih ⊢
    rw [cookieGroups, List.filter_cons]
    by_cases hname : p.name = "cookie.name"
    · rw [if_pos hname, if_pos (by simpa using hname), List.map_cons, List.map_cons, ih]
    · rw [if_neg hname, if_neg (by simpa using hname), ih]

/-- The cookies that a list of properties makes have the names that it gives. -/
theorem MakesAll.names {properties : List Property} {cookies : List Cookie}
    (h : MakesAll now (cookieGroups properties) cookies) :
    cookies.map (·.name) = cookieNames properties := by
  rw [← cookieNames_groups]
  generalize cookieGroups properties = groups at h
  induction h with
  | nil => rfl
  | cons hmakes _ ih => rw [List.map_cons, List.map_cons, hmakes.name, ih]

theorem MakesAll.names_flatten {sections : List Section} {added : List (List Cookie)}
    (h : List.Forall₂ (fun s cookies => MakesAll now (cookieGroups s.properties) cookies)
      sections added) :
    added.flatten.map (·.name) = cookieNames (propertiesOf sections) := by
  induction h with
  | nil => rfl
  | @cons s own rest added hown _ ih =>
    rw [List.flatten_cons, List.map_append, MakesAll.names hown, ih, ← cookieNames_append]
    rfl

end Names

namespace BehaviorSet

variable {now : Time.Instant}

/-- What becomes of the cookies of a file. -/
structure CookiesSent (sections : List Section) (set : BehaviorSet) : Prop where
  /-- A behavior has one cookie for each name that its section gives, in the order given. -/
  behaviors : List.Forall₂
    (fun s b => b.response.cookies.map (·.name) = cookieNames s.properties)
    (described sections) set.behaviors
  fallback : (set.fallback.getD {}).cookies.map (·.name) =
    cookieNames (propertiesOf (defaults sections))
  /-- A reply has those that can be sent, after a header that was configured under that name. -/
  sent : set.Every fun r => ∀ status matched,
    (Http.Reply.render ⟨r, status, matched⟩).fields.values "set-cookie" =
      (r.header? "set-cookie").toList ++ (r.cookies.filter (·.isSendable)).map (·.line)
  /-- So each cookie has its line if and only if no text of a cookie has a control character. -/
  complete : set.Every fun r => ∀ status matched,
    (Http.Reply.render ⟨r, status, matched⟩).fields.values "set-cookie" =
        (r.header? "set-cookie").toList ++ r.cookies.map (·.line) ↔
      ∀ c ∈ r.cookies, c.isSendable = true

/-- **Which cookies are sent.** In the replies of a compiled set each response has the lines of
its cookies, in the order in which the file names them and after a configured header, but
not of those with a control character in a text. -/
theorem compile_cookies {sections : List Section} {set : BehaviorSet}
    (h : compile now sections = .ok set) : CookiesSent sections set := by
  obtain ⟨hfallback, hbehaviors⟩ := compile_eq_ok.mp h
  have hsent := (compile_legalHeaders h).imp fun hr => Http.Reply.values_fieldsOf_cookie hr
  refine ⟨?_, ?_, hsent.imp fun hr _ _ => hr, hsent.imp fun hr _ _ => ?_⟩
  · exact hbehaviors.imp fun _ _ hb => (Behavior.ofSection_groups hb).2.names
  · obtain ⟨-, added, hadded, hcookies⟩ := Response.withAllDefaults_groups _ hfallback
    rw [hcookies]
    exact MakesAll.names_flatten hadded
  · rw [show (Http.Reply.render ⟨_, _, _⟩).fields.values "set-cookie" = _ from hr,
      List.append_cancel_left_eq]
    constructor
    · intro hlines
      have hlength := congrArg List.length hlines
      rw [List.length_map, List.length_map] at hlength
      exact List.length_filter_eq_length_iff.mp hlength
    · intro hall
      rw [List.filter_eq_self.mpr hall]

/-- A configured header, a cookie that is sent and one with a control character in its domain. -/
theorem compile_cookies_control :
    CookiesSent
      [⟨"default", 0, []⟩,
        ⟨"GET /a", 1, [⟨"header", "Set-Cookie: x=1", 2⟩, ⟨"cookie.name", "c", 3⟩,
          ⟨"cookie.name", "d", 4⟩, ⟨"cookie.domain", "\x01", 5⟩]⟩]
      { fallback := some {}
        behaviors := [⟨.get, "/a", none,
          { headers := [("set-cookie", "x=1")]
            cookies := [{ name := "c" }, { name := "d", domain := some "\x01" }] }⟩] } :=
  @compile_cookies .epoch _ _ (by decide +kernel)

/-- A file with one cookie, in whose name stands a control character: it is read and compiled
without a fault, and its replies set no cookie. -/
theorem not_sent_control :
    ∃ sections set,
      BehaviorFile.ofText .merge "[GET /a]\ncookie.name = a\x01b\n" = .ok sections ∧
      compile .epoch sections = .ok set ∧
      ((Registry.publish {} set).dispatch "GET" "/a").answer =
        ⟨{ cookies := [{ name := "a\x01b" }] }, 200, true⟩ ∧
      (Http.Reply.render ((Registry.publish {} set).dispatch "GET" "/a").answer).fields.values
        "set-cookie" = [] := by
  refine ⟨[⟨"default", 0, []⟩, ⟨"GET /a", 1, [⟨"cookie.name", "a\x01b", 2⟩]⟩],
    { fallback := some {}
      behaviors := [⟨.get, "/a", none, { cookies := [{ name := "a\x01b" }] }⟩] }, ?_, ?_, ?_, ?_⟩
  · decide +kernel
  · decide +kernel
  · decide +kernel
  · decide +kernel

end BehaviorSet

end StubServer
