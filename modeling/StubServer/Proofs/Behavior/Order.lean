import Mathlib.Data.List.Perm.Basic
import StubServer.Proofs.Behavior.Merging
import StubServer.Proofs.Behavior.Separation
import StubServer.Proofs.BehaviorFile.Rereading

/-!
# The order of properties

Each property belongs to a slot: a field of the behavior, a header, or the cookies. The order of
two properties matters only if they share one. The cookies are a slot of their own because they
are written in groups; of any other slot only the last property counts.

> `LastValues`: what each of these slots holds after a list of properties.
>
> `Draft.putAll_readable`: whether a list of properties that are not about cookies is taken
> depends on each of them alone.

A draft is its slots (`Draft.eq_of_slots`), so two lists that agree slot by slot have the same
effect (`Draft.putAll_inSlots`). Line numbers do not count: a property that stands in another
line is still the same.
-/

namespace StubServer

open BehaviorFile (Property Section)

/-! ## Slots -/

/-- A part of a behavior that is set independently of the others. -/
inductive Slot
  | status
  | body
  | delay
  | redirect
  | stream
  | repetitions
  | header (name : String)
  | cookies
  deriving DecidableEq, Repr

/-- The name of the header that a value is about, in lower case. -/
def headerName? (value : String) : Option String :=
  (Text.cut ':' value.toList).bind fun field => Http.fieldName? (BehaviorFile.kept field.1)

/-- The text of the header that a value gives. -/
def headerText? (value : String) : Option String :=
  (Text.cut ':' value.toList).map fun field => BehaviorFile.kept field.2

/-- The slot of a property; one that means nothing has none. -/
def slotOf? (p : Property) : Option Slot :=
  match PropertyKey.ofText p.name with
  | .status => some .status
  | .body => some .body
  | .delay => some .delay
  | .header => (headerName? p.value).map .header
  | .redirect => some .redirect
  | .stream => some .stream
  | .repetitions => some .repetitions
  | .cookieName | .cookie _ => some .cookies
  | .unknown => none

/-- The properties of a slot. -/
def inSlot (slot : Slot) (properties : List Property) : List Property :=
  properties.filter (slotOf? · == some slot)

/-- The value of the last property of a slot. -/
def lastIn (slot : Slot) (properties : List Property) : Option String :=
  (inSlot slot properties).getLast?.map (·.value)

/-- The slot that an edit changes. -/
def Edit.slot : Edit → Slot
  | status _ => .status
  | body _ => .body
  | delay _ => .delay
  | header name _ => .header name
  | redirect _ => .redirect
  | stream _ => .stream
  | repetitions _ => .repetitions
  | openCookie _ | cookie _ => .cookies

section Slots

variable {now : Time.Instant} {p : Property} {edit : Edit}

/-- An edit changes the slot of the property that it was read from. -/
theorem Edit.Reads.slot (h : edit.Reads now p) : slotOf? p = some edit.slot := by
  unfold slotOf?
  cases edit with
  | header name value =>
    obtain ⟨hkey, hfield⟩ := h
    obtain ⟨key, rest, hcut, hname, -, -, -⟩ := headerField_eq_ok hfield
    rw [hkey]
    show (headerName? p.value).map Slot.header = some (.header name)
    rw [headerName?, hcut, Option.bind_some, hname]
    rfl
  | cookie change =>
    obtain ⟨attr, hkey, -⟩ := h
    rw [hkey]
    rfl
  | _ =>
    rw [h.1]
    rfl

/-- The cookies are what the properties about cookies change. -/
theorem slotOf?_eq_cookies : slotOf? p = some .cookies ↔ isCookieProperty p = true := by
  unfold isCookieProperty slotOf?
  rw [← PropertyKey.isCookie_ofText]
  cases PropertyKey.ofText p.name with
  | header => cases headerName? p.value <;> simp [PropertyKey.isCookie]
  | _ => simp [PropertyKey.isCookie]

theorem inSlot_cookies (properties : List Property) :
    inSlot .cookies properties = properties.filter isCookieProperty := by
  unfold inSlot
  refine List.filter_congr fun p _ => ?_
  rw [Bool.eq_iff_iff, beq_iff_eq, slotOf?_eq_cookies]

end Slots

/-! ## Last values -/

/-- Every slot of a response but the cookies holds the value of its last property, or what it
held before if it has none. -/
structure LastValues (properties : List Property) (before after : Response) : Prop where
  status : after.status = (lastIn .status properties).elim before.status statusCode?
  body : after.body = (lastIn .body properties).elim before.body some
  delay : after.delay = (lastIn .delay properties).elim before.delay waitingTime?
  redirect : after.redirect = (lastIn .redirect properties).elim before.redirect some
  stream : after.stream = (lastIn .stream properties).elim before.stream isTrue
  headers : ∀ name, after.header? name =
    (lastIn (.header name) properties).elim (before.header? name) headerText?

namespace Draft

variable {now : Time.Instant} {properties : List Property} {d d' : Draft}

/-- A slot that each of its edits overwrites, and no other edit changes. -/
theorem putAll_slot {γ : Type} (slot : Slot) (get : Draft → γ) (given : String → γ)
    (hput : ∀ {p : Property} {edit : Edit} (d : Draft), edit.Reads now p →
      get (edit.apply d) = if edit.slot = slot then given p.value else get d)
    (h : d.putAll now properties = .ok d') :
    get d' = (lastIn slot properties).elim (get d) given := by
  have hlast := putAll_last get (slotOf? · == some slot) (fun p => given p.value)
    (fun d hread => by
      have hreads := (Edit.read_eq_ok.mp hread).1
      rw [hput d hreads, hreads.slot]
      simp only [beq_iff_eq, Option.some.injEq]) properties h
  rw [hlast]
  unfold lastIn inSlot
  cases (properties.filter (slotOf? · == some slot)).getLast? <;> rfl

theorem putAll_lastRepetitions (h : d.putAll now properties = .ok d') :
    d'.repetitions = (lastIn .repetitions properties).elim d.repetitions repetitionCount? := by
  refine putAll_slot .repetitions (·.repetitions) repetitionCount? (fun {p edit} d hreads => ?_) h
  cases edit with
  | repetitions count => exact hreads.2.symm
  | _ => rfl

/-- Later properties of a slot replace earlier ones. -/
theorem putAll_lastValues (h : d.putAll now properties = .ok d') :
    LastValues properties d.response d'.response where
  status := by
    refine putAll_slot .status (·.response.status) statusCode? (fun {p edit} d hreads => ?_) h
    cases edit with
    | status code => exact hreads.2.symm
    | _ => rfl
  body := by
    refine putAll_slot .body (·.response.body) some (fun {p edit} d hreads => ?_) h
    cases edit with
    | body text => exact congrArg some hreads.2.symm
    | _ => rfl
  delay := by
    refine putAll_slot .delay (·.response.delay) waitingTime? (fun {p edit} d hreads => ?_) h
    cases edit with
    | delay nanos => exact hreads.2.symm
    | _ => rfl
  redirect := by
    refine putAll_slot .redirect (·.response.redirect) some (fun {p edit} d hreads => ?_) h
    cases edit with
    | redirect target => exact congrArg some hreads.2.2.symm
    | _ => rfl
  stream := by
    refine putAll_slot .stream (·.response.stream) isTrue (fun {p edit} d hreads => ?_) h
    cases edit with
    | stream flag => exact hreads.2.symm
    | _ => rfl
  headers := by
    intro name
    refine putAll_slot (.header name) (·.response.header? name) headerText?
      (fun {p edit} d hreads => ?_) h
    cases edit with
    | header other text =>
      obtain ⟨key, rest, hcut, -, htext, -, -⟩ := headerField_eq_ok hreads.2
      show ((Response.putHeader other text d.response.headers).find? _).map _ = _
      rw [Response.find?_putHeader, headerText?, hcut, Option.map_some, htext]
      simp only [Edit.slot, Slot.header.injEq, eq_comm]
      rfl
    | _ => rfl

/-! ## Which lists are taken -/

/-- A list of properties that are not about cookies is taken if each of them can be read, in
whatever order they stand. -/
theorem putAll_readable : ∀ {properties : List Property} {d : Draft},
    (∀ p ∈ properties, isCookieProperty p = false) →
      ((∃ d', d.putAll now properties = .ok d') ↔
        ∀ p ∈ properties, ∃ edit : Edit, edit.Reads now p)
  | [], d, _ => ⟨fun _ p hp => absurd hp List.not_mem_nil, fun _ => ⟨d, rfl⟩⟩
  | p :: rest, d, hother => by
    obtain ⟨hp, hrest⟩ := List.forall_mem_cons.mp hother
    rw [List.forall_mem_cons]
    constructor
    · rintro ⟨d', h⟩
      obtain ⟨edit, hread, hlater⟩ := putAll_cons_eq_ok.mp h
      exact ⟨⟨edit, (Edit.read_eq_ok.mp hread).1⟩, (putAll_readable hrest).mp ⟨d', hlater⟩⟩
    · rintro ⟨⟨edit, hreads⟩, hlater⟩
      have hread : Edit.read now d.hasCookie p = .ok edit :=
        Edit.read_of_not_cookie hp _ (Edit.read_eq_ok.mpr ⟨hreads, fun _ => rfl⟩)
      obtain ⟨d', hd'⟩ := (putAll_readable (d := edit.apply d) hrest).mpr hlater
      exact ⟨d', putAll_cons_eq_ok.mpr ⟨edit, hread, hd'⟩⟩

/-- Line numbers do not count. -/
theorem putAll_unnumbered : ∀ (properties : List Property) {d d' : Draft},
    d.putAll now (properties.map (·.unnumbered)) = .ok d' ↔ d.putAll now properties = .ok d'
  | [], _, _ => Iff.rfl
  | p :: rest, d, d' => by
    rw [List.map_cons, putAll_cons_eq_ok, putAll_cons_eq_ok]
    exact exists_congr fun edit => and_congr Iff.rfl (putAll_unnumbered rest)

end Draft

/-! ## Drafts as slots -/

section Tables

/-- In a table with distinct names a look-up finds whatever is there. -/
theorem Response.header?_eq_some {r : Response} (h : r.headers.Pairwise (·.1 < ·.1))
    {name value : String} : r.header? name = some value ↔ (name, value) ∈ r.headers := by
  unfold header?
  generalize r.headers = table at h ⊢
  induction table with
  | nil => simp
  | cons field rest ih =>
    obtain ⟨n, v⟩ := field
    obtain ⟨hfirst, hrest⟩ := List.pairwise_cons.mp h
    rw [find?_front, List.mem_cons, Prod.mk.injEq]
    by_cases hname : name = n
    · subst hname
      rw [if_pos rfl, Option.some.injEq]
      constructor
      · rintro rfl
        exact Or.inl ⟨rfl, rfl⟩
      · rintro (⟨-, rfl⟩ | hlater)
        · rfl
        · exact absurd (hfirst _ hlater) (String.lt_irrefl _)
    · rw [if_neg hname, ih hrest]
      exact ⟨Or.inr, fun hmem => hmem.resolve_left fun he => hname he.1⟩

/-- Tables in increasing order are equal if they have the same headers. -/
theorem Response.headers_eq {r r' : Response} (h : r.headers.Pairwise (·.1 < ·.1))
    (h' : r'.headers.Pairwise (·.1 < ·.1)) (hsame : ∀ name, r.header? name = r'.header? name) :
    r.headers = r'.headers := by
  have hnodup : ∀ {table : List (String × String)}, table.Pairwise (·.1 < ·.1) → table.Nodup := by
    intro table htable
    refine htable.imp ?_
    rintro field _ hlt rfl
    exact String.lt_irrefl _ hlt
  have hperm : r.headers.Perm r'.headers := by
    refine (List.perm_ext_iff_of_nodup (hnodup h) (hnodup h')).mpr fun field => ?_
    rw [← header?_eq_some h, ← header?_eq_some h', hsame]
  refine hperm.eq_of_pairwise (fun _ _ _ _ hlt hgt => ?_) h h'
  exact absurd (String.lt_trans hlt hgt) (String.lt_irrefl _)

end Tables

/-- The same properties, whatever lines they stand in, in an order that is the same within each
slot. -/
structure Reordered (xs ys : List Property) : Prop where
  perm : (xs.map (·.unnumbered)).Perm (ys.map (·.unnumbered))
  order : ∀ slot, inSlot slot (xs.map (·.unnumbered)) = inSlot slot (ys.map (·.unnumbered))

theorem Reordered.symm {xs ys : List Property} (h : Reordered xs ys) : Reordered ys xs :=
  ⟨h.perm.symm, fun slot => (h.order slot).symm⟩

/-- Only slots that occur have an order to keep. -/
theorem reordered_iff {xs ys : List Property} : Reordered xs ys ↔
    (xs.map (·.unnumbered)).Perm (ys.map (·.unnumbered)) ∧
      ∀ slot ∈ (xs.map (·.unnumbered)).filterMap slotOf?,
        inSlot slot (xs.map (·.unnumbered)) = inSlot slot (ys.map (·.unnumbered)) := by
  constructor
  · intro h
    exact ⟨h.perm, fun slot _ => h.order slot⟩
  · rintro ⟨hperm, horder⟩
    refine ⟨hperm, fun slot => ?_⟩
    by_cases hslot : slot ∈ (xs.map (·.unnumbered)).filterMap slotOf?
    · exact horder slot hslot
    · -- a slot that does not occur is empty in both lists
      have hnone : inSlot slot (xs.map (·.unnumbered)) = [] := by
        refine List.filter_eq_nil_iff.mpr fun p hp hmatch => hslot ?_
        exact List.mem_filterMap.mpr ⟨p, hp, beq_iff_eq.mp hmatch⟩
      have hsame := hperm.filter (slotOf? · == some slot)
      unfold inSlot at hnone ⊢
      rw [hnone] at hsame ⊢
      exact (List.nil_perm.mp hsame).symm

instance (xs ys : List Property) : Decidable (Reordered xs ys) :=
  decidable_of_iff' _ reordered_iff

namespace Draft

variable {now : Time.Instant} {xs ys : List Property} {d d' : Draft}

/-- Two lists that set the same slots to the same values leave the same draft, cookies apart. -/
theorem eq_of_slots {d₁ d₂ : Draft} (hsorted : d.response.headers.Pairwise (·.1 < ·.1))
    (hslots : ∀ slot, inSlot slot xs = inSlot slot ys)
    (h₁ : d.putAll now xs = .ok d₁) (h₂ : d.putAll now ys = .ok d₂) :
    ∀ c : Draft, d₁.withCookiesOf c = d₂.withCookiesOf c := by
  have hlast : ∀ slot, lastIn slot xs = lastIn slot ys := fun slot =>
    congrArg (fun properties => properties.getLast?.map (·.value)) (hslots slot)
  have hv₁ := putAll_lastValues h₁
  have hv₂ := putAll_lastValues h₂
  have hheaders : d₁.response.headers = d₂.response.headers :=
    Response.headers_eq (putAll_increasing xs hsorted h₁) (putAll_increasing ys hsorted h₂)
      fun name => by rw [hv₁.headers, hv₂.headers, hlast]
  intro c
  simp only [withCookiesOf, mk.injEq, Response.mk.injEq]
  rw [putAll_lastRepetitions h₁, putAll_lastRepetitions h₂, hv₁.status, hv₂.status, hv₁.body,
    hv₂.body, hv₁.delay, hv₂.delay, hv₁.redirect, hv₂.redirect, hv₁.stream, hv₂.stream, hheaders]
  simp only [hlast, and_self]

/-- A draft takes the properties of a list in any order that is the same within each slot. -/
theorem putAll_inSlots (hsorted : d.response.headers.Pairwise (·.1 < ·.1)) (hperm : xs.Perm ys)
    (hslots : ∀ slot, inSlot slot xs = inSlot slot ys) (h : d.putAll now xs = .ok d') :
    d.putAll now ys = .ok d' := by
  obtain ⟨e, c, he, hc, rfl⟩ := (putAll_separate (d := d) (c := d) xs).mp h
  have hother : ∀ properties : List Property, ∀ p ∈ properties.filter (!isCookieProperty ·),
      isCookieProperty p = false := by
    intro properties p hp
    simpa using (List.mem_filter.mp hp).2
  -- the other properties can be read in the first list, so they can be read in the second
  have hreads := (putAll_readable (hother xs)).mp ⟨e, he⟩
  obtain ⟨e', he'⟩ := (putAll_readable (d := d) (hother ys)).mpr fun p hp =>
    hreads p ((hperm.filter _).mem_iff.mpr hp)
  rw [← inSlot_cookies, hslots, inSlot_cookies] at hc
  have hys := (putAll_separate (d := d) (c := d) ys).mpr ⟨e', c, he', hc, rfl⟩
  have hsame : e.withCookiesOf c = e'.withCookiesOf c := eq_of_slots hsorted hslots h hys c
  rw [hsame]
  exact hys

theorem putAll_reordered (hsorted : d.response.headers.Pairwise (·.1 < ·.1)) (h : Reordered xs ys) :
    d.putAll now xs = .ok d' ↔ d.putAll now ys = .ok d' := by
  rw [← putAll_unnumbered xs, ← putAll_unnumbered ys]
  exact ⟨putAll_inSlots hsorted h.perm h.order, putAll_inSlots hsorted h.perm.symm h.symm.order⟩

end Draft

/-! ## Sections -/

section Sections

variable {now : Time.Instant} {s t : Section}

theorem Behavior.ofSection_reordered (hname : s.name = t.name)
    (h : Reordered s.properties t.properties) (b : Behavior) :
    ofSection now s = .ok b ↔ ofSection now t = .ok b := by
  unfold ofSection
  rw [hname]
  cases routeOf t.name with
  | error fault =>
    constructor
    · intro hs; cases hs
    · intro ht; cases ht
  | ok route => simp only [bind_eq_ok, Draft.putAll_reordered (d := {}) List.Pairwise.nil h]

theorem Response.withDefaults_reordered {fallback : Option Response}
    (hsorted : (fallback.getD {}).headers.Pairwise (·.1 < ·.1))
    (h : Reordered s.properties t.properties) (r : Response) :
    withDefaults now fallback s = .ok r ↔ withDefaults now fallback t = .ok r := by
  unfold withDefaults
  simp only [bind_eq_ok, Draft.putAll_reordered (d := { response := fallback.getD {} }) hsorted h]

end Sections

namespace BehaviorSet

variable {now : Time.Instant} {s t : Section}

/-- The headers of a compiled set are in increasing order. -/
theorem compile_increasing {sections : List Section} {set : BehaviorSet}
    (h : compile now sections = .ok set) : set.Every fun r => r.headers.Pairwise (·.1 < ·.1) :=
  compile_keeps List.Pairwise.nil (fun {_ _ edit _} _ hd => edit.apply_increasing hd) h

theorem add_reordered {set : BehaviorSet}
    (hsorted : set.Every fun r => r.headers.Pairwise (·.1 < ·.1)) (hname : s.name = t.name)
    (h : Reordered s.properties t.properties) (next : BehaviorSet) :
    set.add now s = .ok next ↔ set.add now t = .ok next := by
  have hfallback : (set.fallback.getD {}).headers.Pairwise (·.1 < ·.1) := by
    cases hr : set.fallback with
    | none => exact List.Pairwise.nil
    | some r => exact hsorted.1 r hr
  unfold add
  rw [hname]
  split
  · simp only [bind_eq_ok, Response.withDefaults_reordered hfallback h]
  · simp only [bind_eq_ok, Behavior.ofSection_reordered hname h]

/-- What the order of the properties of a section does: `s` is a section, and `t` is the same one
with its properties in another order. -/
structure OrderLaw (now : Time.Instant) (s t : Section) : Prop where
  /-- They describe the same behavior, or both describe none. -/
  behavior : ∀ b, Behavior.ofSection now s = .ok b ↔ Behavior.ofSection now t = .ok b
  /-- Nor does it matter in a file which of them is there, default section or not. -/
  file : ∀ before after set,
    compile now (before ++ s :: after) = .ok set ↔ compile now (before ++ t :: after) = .ok set
  /-- A behavior holds the last value of each slot. -/
  values : ∀ {b}, Behavior.ofSection now s = .ok b →
    LastValues s.properties {} b.response ∧
      b.repetitions = (lastIn .repetitions s.properties).bind repetitionCount?
  /-- The fallback holds those too, and keeps what it held in the others. -/
  fallback : ∀ {before r}, Response.withDefaults now before s = .ok r →
    LastValues s.properties (before.getD {}) r

/-- **Order matters only within one slot.** Two sections with the same properties, in orders
that are the same within each slot, have the same effect; and all that a slot has of its
properties, cookies apart, is the value of the last one. -/
theorem compile_reordered (now : Time.Instant) {s t : Section} (hname : s.name = t.name)
    (h : Reordered s.properties t.properties) : OrderLaw now s t where
  behavior := Behavior.ofSection_reordered hname h
  file := by
    intro before after set
    unfold compile
    rw [addAll_append, addAll_append, bind_eq_ok, bind_eq_ok]
    refine exists_congr fun mid => and_congr_right fun hmid => ?_
    rw [addAll, addAll]
    simp only [bind_eq_ok, add_reordered (compile_increasing hmid) hname h]
  values := by
    intro b hb
    obtain ⟨method, path, d, -, hd, rfl⟩ := Behavior.ofSection_eq_ok hb
    refine ⟨Draft.putAll_lastValues hd, (Draft.putAll_lastRepetitions hd).trans ?_⟩
    cases lastIn .repetitions s.properties <;> rfl
  fallback := by
    intro before r hr
    obtain ⟨d, hd, rfl⟩ := Response.withDefaults_eq_ok hr
    exact Draft.putAll_lastValues hd

/-- A header that is written twice stays in order, and so do the lines about a cookie. -/
theorem compile_reordered_header :
    OrderLaw .epoch
      ⟨"GET /a", 1, [⟨"header", "X-A: 1", 2⟩, ⟨"cookie.name", "c", 3⟩, ⟨"body", "no", 4⟩,
        ⟨"header", "x-a: 2", 5⟩, ⟨"cookie.path", "/", 6⟩]⟩
      ⟨"GET /a", 1, [⟨"body", "no", 2⟩, ⟨"header", "X-A: 1", 3⟩, ⟨"header", "x-a: 2", 4⟩,
        ⟨"cookie.name", "c", 5⟩, ⟨"cookie.path", "/", 6⟩]⟩ :=
  compile_reordered .epoch rfl (by decide +kernel)

end BehaviorSet

end StubServer
