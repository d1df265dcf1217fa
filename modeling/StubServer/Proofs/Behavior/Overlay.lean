import Mathlib.Data.List.Basic
import StubServer.Proofs.Behavior.Compiled

/-!
# Properties on top of others

The same properties can be applied to an empty draft, or to one that other properties have
filled. Almost nothing in a property depends on which of the two it is: only a cookie's
attribute asks whether a cookie is open. So a run of properties that succeeds on one draft
succeeds on every other that has a cookie open whenever the first one has
(`Simulation.putAll`), and what remains is to say how the two drafts are related at the
end. There are two such relations:

> `Resumes`: the response is the same, and whatever cookie one draft has open, the other
> has open too. It carries a default section that starts without an open cookie over to one
> that goes on.
>
> `Atop base`: each field of the draft is that of the section's own draft where it has one,
> and that of the base elsewhere; its cookies follow those of the base, and the open cookie
> is the same one. It carries a section over to one that merges it with those before.

A flag that is not set is no different from one that is set to false, so `stream` is not a
matter of the two drafts. `putAll_stream` reads it off the properties.
-/

namespace StubServer

open BehaviorFile (Property Section)

/-- The last member of a list about something is that of the tail, if there is one. -/
theorem getD_getLast?_filter_cons {α γ : Type} (about : α → Bool) (given : α → γ) (before : γ)
    (a : α) (rest : List α) :
    (((a :: rest).filter about).getLast?.map given).getD before =
      ((rest.filter about).getLast?.map given).getD (if about a then given a else before) := by
  rw [List.filter_cons]
  cases about a with
  | false => rfl
  | true =>
    rw [if_pos rfl, if_pos rfl, List.getLast?_cons]
    cases (rest.filter about).getLast? <;> rfl

/-! ## Headers -/

/-- The value of a configured header. -/
def Response.header? (r : Response) (name : String) : Option String :=
  (r.headers.find? (·.1 == name)).map (·.2)

/-- A look-up in front of a table finds the new header or looks further. -/
theorem Response.find?_front (name value other : String) (table : List (String × String)) :
    (((name, value) :: table).find? (·.1 == other)).map (·.2) =
      if other = name then some value else (table.find? (·.1 == other)).map (·.2) := by
  by_cases h : other = name
  · rw [if_pos h, List.find?_cons_of_pos (by simpa using h.symm)]
    rfl
  · rw [if_neg h, List.find?_cons_of_neg (by simpa using Ne.symm h)]

/-- A header that is put into a table is the one of its name, and leaves the others alone. -/
theorem Response.find?_putHeader (name value other : String) :
    ∀ (table : List (String × String)),
      ((putHeader name value table).find? (·.1 == other)).map (·.2) =
        if other = name then some value else (table.find? (·.1 == other)).map (·.2)
  | [] => find?_front name value other []
  | (n, v) :: rest => by
    rw [putHeader]
    split
    next hn =>
      -- the new header stands where the old one of its name did
      subst hn
      rw [find?_front, find?_front]
      by_cases h : other = name
      · rw [if_pos h, if_pos h]
      · rw [if_neg h, if_neg h, if_neg h]
    next hn =>
      split
      next => exact find?_front name value other _
      next =>
        rw [find?_front, find?_front, find?_putHeader name value other rest]
        by_cases h : other = name
        · rw [if_pos h, if_pos h, if_neg (fun he => hn (h.symm.trans he))]
        · rw [if_neg h, if_neg h]

theorem Response.mem_putHeader {name value : String} {field : String × String} :
    ∀ {table : List (String × String)}, field ∈ putHeader name value table →
      field = (name, value) ∨ field ∈ table
  | [], h => Or.inl (List.mem_singleton.mp h)
  | (n, v) :: rest, h => by
    rw [putHeader] at h
    split at h
    next =>
      rcases List.mem_cons.mp h with hnew | hold
      · exact Or.inl hnew
      · exact Or.inr (List.mem_cons_of_mem _ hold)
    next =>
      split at h
      next => exact List.mem_cons.mp h
      next =>
        rcases List.mem_cons.mp h with hfirst | hlater
        · exact Or.inr (hfirst ▸ List.mem_cons_self ..)
        · rcases mem_putHeader hlater with hnew | hold
          · exact Or.inl hnew
          · exact Or.inr (List.mem_cons_of_mem _ hold)

/-- The names of a table stay in increasing order, and so distinct. -/
theorem Response.putHeader_increasing (name value : String) :
    ∀ {table : List (String × String)}, table.Pairwise (·.1 < ·.1) →
      (putHeader name value table).Pairwise (·.1 < ·.1)
  | [], _ => List.pairwise_singleton _ _
  | (n, v) :: rest, h => by
    obtain ⟨hfirst, hrest⟩ := List.pairwise_cons.mp h
    rw [putHeader]
    split
    next hn =>
      subst hn
      exact List.pairwise_cons.mpr ⟨hfirst, hrest⟩
    next hn =>
      split
      next hlt =>
        refine List.pairwise_cons.mpr ⟨?_, h⟩
        intro field hfield
        rcases List.mem_cons.mp hfield with rfl | hlater
        · exact hlt
        · exact String.lt_trans hlt (hfirst field hlater)
      next hge =>
        refine List.pairwise_cons.mpr ⟨?_, putHeader_increasing name value hrest⟩
        intro field hfield
        rcases mem_putHeader hfield with rfl | hold
        · exact Std.lt_of_le_of_ne (String.not_lt.mp hge) (Ne.symm hn)
        · exact hfirst field hold

/-! ## Runs of properties -/

section Reading

variable {now : Time.Instant} {hasCookie : Bool} {p : Property} {edit : Edit}

/-- A property that can be read without a cookie can be read with one. -/
theorem Edit.read_mono {hasCookie' : Bool} (h : Edit.read now hasCookie p = .ok edit)
    (hmore : hasCookie = true → hasCookie' = true) : Edit.read now hasCookie' p = .ok edit := by
  obtain ⟨hreads, hneeds⟩ := Edit.read_eq_ok.mp h
  exact Edit.read_eq_ok.mpr ⟨hreads, fun hcookie => hmore (hneeds hcookie)⟩

/-- The one word that writes a key. The keys of cookie attributes share their first half, and
an unknown key has any word that is left. -/
def PropertyKey.word? : PropertyKey → Option String
  | status => some "status_code"
  | body => some "body"
  | delay => some "delay"
  | header => some "header"
  | redirect => some "redirect"
  | stream => some "stream"
  | repetitions => some "repeat"
  | cookieName => some "cookie.name"
  | cookie _ | unknown => none

theorem PropertyKey.ofText_eq_iff {key : PropertyKey} {word name : String} (h : key.word? = some word) :
    ofText name = key ↔ name = word := by
  constructor
  · rintro rfl
    unfold ofText at h
    split at h
    -- a name that is none of the words writes a key that has none
    case h_9 => split at h <;> cases h
    all_goals exact Option.some.inj h
  · rintro rfl
    cases key <;> cases h <;> rfl

/-- Only a property of that name changes the stream flag. -/
theorem Edit.read_stream {d : Draft} (h : Edit.read now hasCookie p = .ok edit) :
    (edit.apply d).response.stream =
      if p.name = "stream" then isTrue p.value else d.response.stream := by
  by_cases hname : p.name = "stream"
  · have hstream : Edit.read now hasCookie p = .ok (.stream (isTrue p.value)) := by
      unfold Edit.read
      rw [hname]
      rfl
    rw [if_pos hname, ← Except.ok.inj (hstream.symm.trans h)]
    rfl
  · rw [if_neg hname]
    obtain ⟨hreads, -⟩ := Edit.read_eq_ok.mp h
    cases edit with
    | stream flag => exact absurd ((PropertyKey.ofText_eq_iff rfl).mp hreads.1) hname
    | _ => rfl

/-- An edit keeps the table of headers in increasing order. -/
theorem Edit.apply_increasing (edit : Edit) {d : Draft}
    (h : d.response.headers.Pairwise (·.1 < ·.1)) :
    (edit.apply d).response.headers.Pairwise (·.1 < ·.1) := by
  cases edit with
  | header name value => exact Response.putHeader_increasing name value h
  | _ => exact h

end Reading

namespace Draft

variable {now : Time.Instant} {d d' : Draft}

/-- A cookie is open when the cursor is on one of the cookies. -/
theorem hasCookie_iff : d.hasCookie = true ↔
    ∃ place, d.cursor.place = some place ∧ place < d.response.cookies.length := by
  unfold hasCookie Cookie.Cursor.current?
  cases hplace : d.cursor.place with
  | none => simp
  | some place => simp

/-- A list of properties keeps the table of headers in increasing order. -/
theorem putAll_increasing (properties : List Property)
    (hd : d.response.headers.Pairwise (·.1 < ·.1)) (h : d.putAll now properties = .ok d') :
    d'.response.headers.Pairwise (·.1 < ·.1) :=
  putAll_keeps (P := fun d => d.response.headers.Pairwise (·.1 < ·.1))
    (fun {_ _ edit _} _ hnext => edit.apply_increasing hnext) properties hd h

/-! ## One draft after another -/

/-- A relation between drafts that edits keep, and in which a cookie that is open in the
first draft is open in the second. -/
structure Simulation (R : Draft → Draft → Prop) : Prop where
  hasCookie : ∀ {own d : Draft}, R own d → own.hasCookie = true → d.hasCookie = true
  apply : ∀ {own d : Draft} (edit : Edit), R own d →
    (edit.needsCookie = true → own.hasCookie = true) → R (edit.apply own) (edit.apply d)

/-- Properties that the first draft takes are taken by the second. -/
theorem Simulation.putAll {R : Draft → Draft → Prop} (hR : Simulation R) :
    ∀ (properties : List Property) {own own' d : Draft}, R own d →
      own.putAll now properties = .ok own' → ∃ d', d.putAll now properties = .ok d' ∧ R own' d' := by
  intro properties
  induction properties with
  | nil =>
    intro own own' d h hown
    rw [← Except.ok.inj hown]
    exact ⟨d, rfl, h⟩
  | cons p rest ih =>
    intro own own' d h hown
    obtain ⟨edit, hread, hrest⟩ := putAll_cons_eq_ok.mp hown
    have hread' : Edit.read now d.hasCookie p = .ok edit := Edit.read_mono hread (hR.hasCookie h)
    obtain ⟨d', hd', hR'⟩ := ih (hR.apply edit h (Edit.read_eq_ok.mp hread).2) hrest
    exact ⟨d', putAll_cons_eq_ok.mpr ⟨edit, hread', hd'⟩, hR'⟩

/-- The same response, and at least the cookie that the first draft has open. -/
structure Resumes (own d : Draft) : Prop where
  response : d.response = own.response
  cursor : ∀ place, own.cursor.place = some place → d.cursor.place = some place

theorem resumes_simulation : Simulation Resumes where
  hasCookie := by
    intro own d h hown
    obtain ⟨place, hplace, hlt⟩ := hasCookie_iff.mp hown
    exact hasCookie_iff.mpr ⟨place, h.cursor place hplace, by rw [h.response]; exact hlt⟩
  apply := by
    intro own d edit h hneeds
    obtain ⟨response, repetitions, ⟨place⟩⟩ := own
    obtain ⟨response', repetitions', ⟨place'⟩⟩ := d
    obtain ⟨hresponse, hcursor⟩ := h
    obtain rfl : response' = response := hresponse
    cases edit with
    | openCookie name => exact ⟨rfl, fun _ hplace => hplace⟩
    | cookie change =>
      -- the edit goes to the same cookie, because the first draft has one open
      obtain ⟨i, hplace, -⟩ := hasCookie_iff.mp (hneeds rfl)
      obtain rfl : place = some i := hplace
      obtain rfl : place' = some i := hcursor i rfl
      exact ⟨rfl, hcursor⟩
    | _ => exact ⟨rfl, hcursor⟩

/-- A draft with the fields of a section's own draft on top of those of a base. -/
structure Atop (base own d : Draft) : Prop where
  status : d.response.status = own.response.status.or base.response.status
  body : d.response.body = own.response.body.or base.response.body
  delay : d.response.delay = own.response.delay.or base.response.delay
  headers : ∀ name, d.response.header? name =
    (own.response.header? name).or (base.response.header? name)
  cookies : d.response.cookies = base.response.cookies ++ own.response.cookies
  redirect : d.response.redirect = own.response.redirect.or base.response.redirect
  repetitions : d.repetitions = own.repetitions.or base.repetitions
  cursor : ∀ place, own.cursor.place = some place →
    d.cursor.place = some (base.response.cookies.length + place)

/-- Nothing on top of a base is the base, whatever cookie it has open. -/
theorem atop_empty (base : Draft) : Atop base {} base := by
  refine ⟨rfl, rfl, rfl, fun _ => rfl, (List.append_nil _).symm, rfl, rfl, ?_⟩
  intro place hplace
  cases hplace

theorem atop_simulation (base : Draft) : Simulation (Atop base) where
  hasCookie := by
    intro own d h hown
    obtain ⟨place, hplace, hlt⟩ := hasCookie_iff.mp hown
    refine hasCookie_iff.mpr ⟨_, h.cursor place hplace, ?_⟩
    rw [h.cookies, List.length_append]
    omega
  apply := by
    intro own d edit h hneeds
    cases edit with
    | status code => exact { h with status := rfl }
    | body text => exact { h with body := rfl }
    | delay nanos => exact { h with delay := rfl }
    | redirect target => exact { h with redirect := rfl }
    | repetitions count => exact { h with repetitions := rfl }
    | stream flag => exact { h with }
    | header name value =>
      refine { h with headers := ?_ }
      intro other
      show ((Response.putHeader name value d.response.headers).find? _).map _ =
        (((Response.putHeader name value own.response.headers).find? _).map _).or _
      rw [Response.find?_putHeader, Response.find?_putHeader]
      by_cases hname : other = name
      · rw [if_pos hname, if_pos hname]
        rfl
      · rw [if_neg hname, if_neg hname]
        exact h.headers other
    | openCookie name =>
      refine { h with cookies := ?_, cursor := ?_ }
      · show d.response.cookies ++ [_] = base.response.cookies ++ (own.response.cookies ++ [_])
        rw [h.cookies, List.append_assoc]
      · intro place hplace
        obtain rfl : own.response.cookies.length = place := Option.some.inj hplace
        show some d.response.cookies.length = _
        rw [h.cookies, List.length_append]
    | cookie change =>
      obtain ⟨place, hplace, -⟩ := hasCookie_iff.mp (hneeds rfl)
      refine { h with cookies := ?_ }
      show d.cursor.modify change.apply d.response.cookies =
        base.response.cookies ++ own.cursor.modify change.apply own.response.cookies
      unfold Cookie.Cursor.modify
      rw [h.cursor place hplace, hplace, h.cookies]
      exact List.modifyTailIdx_add _ _ _ _

/-! ## Last values -/

/-- A part of a draft that some properties set has the value that the last of them gives it. -/
theorem putAll_last {γ : Type} (get : Draft → γ) (about : Property → Bool) (given : Property → γ)
    (hput : ∀ {hasCookie p edit} (d : Draft), Edit.read now hasCookie p = .ok edit →
      get (edit.apply d) = if about p then given p else get d) :
    ∀ (properties : List Property) {d d' : Draft}, d.putAll now properties = .ok d' →
      get d' = ((properties.filter about).getLast?.map given).getD (get d) := by
  intro properties
  induction properties with
  | nil =>
    intro d d' h
    rw [← Except.ok.inj h]
    rfl
  | cons p rest ih =>
    intro d d' h
    obtain ⟨edit, hread, hrest⟩ := putAll_cons_eq_ok.mp h
    rw [ih hrest, hput d hread, getD_getLast?_filter_cons]

/-- What the last `stream` property says. -/
def lastStream (properties : List Property) : Option Bool :=
  ((properties.filter (·.name == "stream")).getLast?).map (isTrue ·.value)

/-- The stream flag is whatever the last property about it says. -/
theorem putAll_stream (properties : List Property) (h : d.putAll now properties = .ok d') :
    d'.response.stream = (lastStream properties).getD d.response.stream := by
  refine putAll_last (·.response.stream) (·.name == "stream") (isTrue ·.value) ?_ properties h
  intro hasCookie p edit d hread
  simp only [beq_iff_eq]
  exact Edit.read_stream hread

end Draft

end StubServer
