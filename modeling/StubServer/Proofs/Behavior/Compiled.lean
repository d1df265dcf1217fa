import StubServer.Behavior.Compile

/-!
# What compilation guarantees

A compiled set is built section by section and each response edit by edit. `read_eq_ok`
says all that an edit tells about the property that it was read from, and `add_eq_ok` all
that one section can do to a set: a default section replaces the fallback, any other appends
one behavior. `compile_keeps` lifts a property of responses from single edits to whole sets:
what the empty response has and every edit keeps, every response of the set has.

Two consequences are drawn here. `compile_length` counts the behaviors of a set, and
`compile_status_bounds` confines their statuses to what a status property may say.
-/

namespace StubServer

open BehaviorFile (Property Section)

/-- A sequence succeeds when both of its parts do. -/
theorem bind_eq_ok {ε α β : Type} {x : Except ε α} {f : α → Except ε β} {b : β} :
    x >>= f = .ok b ↔ ∃ a, x = .ok a ∧ f a = .ok b := by
  constructor
  · intro h
    cases x with
    | error e => cases h
    | ok a => exact ⟨a, rfl, h⟩
  · rintro ⟨a, rfl, h⟩
    exact h

theorem map_eq_ok {ε α β : Type} {x : Except ε α} {f : α → β} {b : β} :
    x.map f = .ok b ↔ ∃ a, x = .ok a ∧ f a = b := by
  cases x with
  | error e =>
    constructor
    · intro h; cases h
    · rintro ⟨a, h, -⟩; cases h
  | ok a =>
    constructor
    · intro h; exact ⟨a, rfl, Except.ok.inj h⟩
    · rintro ⟨a', h, rfl⟩; rw [← Except.ok.inj h]; rfl

@[simp] theorem orFault_eq_ok {α : Type} {fault : PropertyFault} {o : Option α} {a : α} :
    orFault fault o = .ok a ↔ o = some a := by
  cases o with
  | none =>
    constructor
    · intro h; cases h
    · intro h; cases h
  | some b =>
    constructor
    · intro h; exact congrArg some (Except.ok.inj h)
    · intro h; exact congrArg Except.ok (Option.some.inj h)

/-! ## Edits -/

/-- A header field is a legal name and a legal text, which is not empty, around the first colon. -/
theorem headerField_eq_ok {value name text : String} (h : headerField value = .ok (name, text)) :
    ∃ key rest, Text.cut ':' value.toList = some (key, rest) ∧
      Http.fieldName? (BehaviorFile.kept key) = some name ∧ BehaviorFile.kept rest = text ∧
      text ≠ "" ∧ Http.isFieldValue text = true := by
  unfold headerField at h
  split at h
  case h_1 => cases h
  case h_2 key rest hcut =>
    dsimp only at h
    split at h
    case isTrue => cases h
    case isFalse hempty =>
      rw [Bool.or_eq_true, not_or, String.isEmpty_iff, String.isEmpty_iff] at hempty
      split at h
      case h_1 => cases h
      case h_2 name' hname =>
        split at h
        case isFalse => cases h
        case isTrue htext =>
          obtain ⟨rfl, rfl⟩ := Prod.mk.inj (Except.ok.inj h)
          exact ⟨key, rest, hcut, hname, rfl, hempty.2, htext⟩

/-- What an edit says about the property that it was read from. -/
def Edit.Reads (now : Time.Instant) (p : Property) : Edit → Prop
  | .status code => PropertyKey.ofText p.name = .status ∧ statusCode? p.value = some code
  | .body text => PropertyKey.ofText p.name = .body ∧ p.value = text
  | .delay nanos => PropertyKey.ofText p.name = .delay ∧ waitingTime? p.value = some nanos
  | .header name value =>
    PropertyKey.ofText p.name = .header ∧ headerField p.value = .ok (name, value)
  | .redirect target =>
    PropertyKey.ofText p.name = .redirect ∧ Http.isFieldValue p.value = true ∧ p.value = target
  | .stream flag => PropertyKey.ofText p.name = .stream ∧ isTrue p.value = flag
  | .repetitions count =>
    PropertyKey.ofText p.name = .repetitions ∧ repetitionCount? p.value = some count
  | .openCookie name => PropertyKey.ofText p.name = .cookieName ∧ p.value = name
  | .cookie change => ∃ attr, PropertyKey.ofText p.name = .cookie (some attr) ∧
    CookieEdit.read now attr p.value = .ok change

/-- Whether an edit is one of the open cookie. -/
def Edit.needsCookie : Edit → Bool
  | .cookie _ => true
  | _ => false

/-- An edit is read from a property that says so; a cookie must be open if it is one of the
open cookie. -/
theorem Edit.read_eq_ok {now : Time.Instant} {hasCookie : Bool} {p : Property} {edit : Edit} :
    Edit.read now hasCookie p = .ok edit ↔
      edit.Reads now p ∧ (edit.needsCookie = true → hasCookie = true) := by
  unfold Edit.read
  cases hkey : PropertyKey.ofText p.name with
  | status | delay | repetitions =>
    simp only [orFault_eq_ok, Option.map_eq_some_iff]
    cases edit <;> simp [Reads, needsCookie, hkey]
  | body | stream | cookieName =>
    cases edit <;> simp [Reads, needsCookie, hkey]
  | header =>
    simp only [map_eq_ok, Prod.exists]
    cases edit <;> simp [Reads, needsCookie, hkey]
  | redirect =>
    cases hvalue : Http.isFieldValue p.value <;>
      cases edit <;> simp [Reads, needsCookie, hkey, hvalue]
  | cookie attr =>
    cases attr with
    | none => cases hasCookie <;> cases edit <;> simp [Reads, needsCookie, hkey]
    | some attr =>
      cases hasCookie <;> cases edit <;> simp [Reads, needsCookie, hkey, map_eq_ok]
  | unknown =>
    cases edit <;> simp [Reads, needsCookie, hkey]

/-- A draft takes a property when it can be read to an edit. -/
theorem Draft.put_eq_ok {now : Time.Instant} {d d' : Draft} {p : Property} :
    d.put now p = .ok d' ↔
      ∃ edit, Edit.read now d.hasCookie p = .ok edit ∧ edit.apply d = d' := by
  unfold put
  cases hread : Edit.read now d.hasCookie p with
  | error fault =>
    constructor
    · intro h; cases h
    · rintro ⟨edit, h, -⟩; cases h
  | ok edit =>
    constructor
    · intro h; exact ⟨edit, rfl, Except.ok.inj h⟩
    · rintro ⟨edit', h, hd⟩
      rw [← Except.ok.inj h] at hd
      exact congrArg Except.ok hd

/-- A draft takes a list when it takes the first property and then the others. -/
theorem Draft.putAll_cons_eq_ok {now : Time.Instant} {p : Property} {rest : List Property}
    {d d' : Draft} : d.putAll now (p :: rest) = .ok d' ↔
      ∃ edit, Edit.read now d.hasCookie p = .ok edit ∧ (edit.apply d).putAll now rest = .ok d' := by
  rw [putAll, bind_eq_ok]
  constructor
  · rintro ⟨next, hput, hrest⟩
    obtain ⟨edit, hread, rfl⟩ := put_eq_ok.mp hput
    exact ⟨edit, hread, hrest⟩
  · rintro ⟨edit, hread, hrest⟩
    exact ⟨edit.apply d, put_eq_ok.mpr ⟨edit, hread, rfl⟩, hrest⟩

/-- Properties can be applied in two parts. -/
theorem Draft.putAll_append {now : Time.Instant} : ∀ (xs ys : List Property) (d : Draft),
    d.putAll now (xs ++ ys) = d.putAll now xs >>= fun next => next.putAll now ys
  | [], _, _ => rfl
  | p :: rest, ys, d => by
    rw [List.cons_append, putAll, putAll]
    cases d.put now p with
    | error e => rfl
    | ok next => exact putAll_append rest ys next

/-! ## Responses -/

section Responses

variable {now : Time.Instant}

/-- A list of properties keeps what every edit keeps. -/
theorem Draft.putAll_keeps {P : Draft → Prop}
    (hedit : ∀ {hasCookie p edit d}, Edit.read now hasCookie p = .ok edit → P d → P (edit.apply d)) :
    ∀ (properties : List Property) {d d' : Draft}, P d → d.putAll now properties = .ok d' → P d' := by
  intro properties
  induction properties with
  | nil =>
    intro d d' hd h
    rw [← Except.ok.inj h]
    exact hd
  | cons p rest ih =>
    intro d d' hd h
    obtain ⟨edit, hread, hrest⟩ := Draft.putAll_cons_eq_ok.mp h
    exact ih (hedit hread hd) hrest

/-- A section that describes a behavior is named after a route, and its properties fill an
empty draft. -/
theorem Behavior.ofSection_eq_ok {s : Section} {b : Behavior}
    (h : Behavior.ofSection now s = .ok b) :
    ∃ method path d, routeOf s.name = .ok (method, path) ∧
      Draft.putAll now {} s.properties = .ok d ∧
      b = ⟨method, path, d.repetitions, d.response⟩ := by
  unfold Behavior.ofSection at h
  cases hroute : routeOf s.name with
  | error fault => rw [hroute] at h; cases h
  | ok route =>
    rw [hroute] at h
    obtain ⟨d, hd, hb⟩ := bind_eq_ok.mp h
    exact ⟨route.1, route.2, d, rfl, hd, (Except.ok.inj hb).symm⟩

/-- A default section goes on from the fallback that there is. -/
theorem Response.withDefaults_eq_ok {fallback : Option Response} {s : Section} {r : Response}
    (h : Response.withDefaults now fallback s = .ok r) :
    ∃ d, Draft.putAll now { response := fallback.getD {} } s.properties = .ok d ∧
      r = d.response := by
  obtain ⟨d, hd, hr⟩ := bind_eq_ok.mp h
  exact ⟨d, hd, (Except.ok.inj hr).symm⟩

end Responses

/-! ## Sets -/

namespace BehaviorSet

variable {now : Time.Instant}

/-- All that one section can do to a set. -/
theorem add_eq_ok {set set' : BehaviorSet} {s : Section} (h : set.add now s = .ok set') :
    (s.name = BehaviorFile.defaultName ∧
      ∃ r, Response.withDefaults now set.fallback s = .ok r ∧
        set' = { set with fallback := some r }) ∨
    (s.name ≠ BehaviorFile.defaultName ∧
      ∃ b, Behavior.ofSection now s = .ok b ∧
        set' = { set with behaviors := set.behaviors ++ [b] }) := by
  unfold add at h
  split at h
  next hname =>
    obtain ⟨r, hr, hset⟩ := bind_eq_ok.mp h
    exact Or.inl ⟨hname, r, hr, (Except.ok.inj hset).symm⟩
  next hname =>
    obtain ⟨b, hb, hset⟩ := bind_eq_ok.mp h
    exact Or.inr ⟨hname, b, hb, (Except.ok.inj hset).symm⟩

/-- Sections can be added in two parts. -/
theorem addAll_append : ∀ (xs ys : List Section) (set : BehaviorSet),
    set.addAll now (xs ++ ys) = set.addAll now xs >>= fun next => next.addAll now ys
  | [], _, _ => rfl
  | s :: rest, ys, set => by
    rw [List.cons_append, addAll, addAll]
    cases set.add now s with
    | error e => rfl
    | ok next => exact addAll_append rest ys next

/-- A list of sections keeps what every section keeps. -/
theorem addAll_keeps {Q : BehaviorSet → Prop}
    (hadd : ∀ {set set' s}, Q set → add now set s = .ok set' → Q set') :
    ∀ (sections : List Section) {set set' : BehaviorSet}, Q set →
      set.addAll now sections = .ok set' → Q set' := by
  intro sections
  induction sections with
  | nil =>
    intro set set' hset h
    rw [← Except.ok.inj h]
    exact hset
  | cons s rest ih =>
    intro set set' hset h
    obtain ⟨next, hnext, hrest⟩ := bind_eq_ok.mp h
    exact ih (hadd hset hnext) hrest

/-- Every response of a set has a property. -/
def Every (P : Response → Prop) (set : BehaviorSet) : Prop :=
  (∀ r, set.fallback = some r → P r) ∧ ∀ b ∈ set.behaviors, P b.response

theorem Every.imp {P Q : Response → Prop} {set : BehaviorSet} (h : set.Every P)
    (himp : ∀ {r}, P r → Q r) : set.Every Q :=
  ⟨fun r hr => himp (h.1 r hr), fun b hb => himp (h.2 b hb)⟩

/-- Every response of a compiled set has what the empty response has and every edit keeps. -/
theorem compile_keeps {P : Response → Prop} {sections : List Section} {set : BehaviorSet}
    (hempty : P {})
    (hedit : ∀ {hasCookie p edit d}, Edit.read now hasCookie p = .ok edit → P d.response →
      P (edit.apply d).response)
    (h : compile now sections = .ok set) : set.Every P := by
  have hstart : Every P {} := ⟨fun _ hr => absurd hr (by simp), fun _ hb => absurd hb (by simp)⟩
  refine addAll_keeps (Q := Every P) ?_ sections hstart h
  intro set set' s hset hadd
  rcases add_eq_ok hadd with ⟨-, r, hr, rfl⟩ | ⟨-, b, hb, rfl⟩
  · -- a default section goes on from the fallback so far, or from the empty response
    obtain ⟨d, hd, rfl⟩ := Response.withDefaults_eq_ok hr
    refine ⟨fun r' hr' => ?_, hset.2⟩
    rw [← Option.some.inj hr']
    refine Draft.putAll_keeps (P := fun d => P d.response) hedit s.properties ?_ hd
    cases hfallback : set.fallback with
    | none => exact hempty
    | some r => exact hset.1 r hfallback
  · obtain ⟨method, path, d, -, hd, rfl⟩ := Behavior.ofSection_eq_ok hb
    refine ⟨hset.1, fun b' hb' => ?_⟩
    rcases List.mem_append.mp hb' with hold | hnew
    · exact hset.2 b' hold
    · rw [List.mem_singleton.mp hnew]
      exact Draft.putAll_keeps (P := fun d => P d.response) hedit s.properties hempty hd

/-- Every behavior of a compiled set is that of a section. -/
theorem compile_behaviors {sections : List Section} {set : BehaviorSet}
    (h : compile now sections = .ok set) :
    ∀ b ∈ set.behaviors, ∃ s, Behavior.ofSection now s = .ok b := by
  refine addAll_keeps (Q := fun set => ∀ b ∈ set.behaviors, ∃ s, Behavior.ofSection now s = .ok b)
    ?_ sections (fun b hb => absurd hb List.not_mem_nil) h
  intro set set' s hset hadd
  rcases add_eq_ok hadd with ⟨-, r, -, rfl⟩ | ⟨-, b, hb, rfl⟩
  · exact hset
  · intro b' hb'
    rcases List.mem_append.mp hb' with hold | hnew
    · exact hset b' hold
    · exact ⟨s, List.mem_singleton.mp hnew ▸ hb⟩

/-- The sections that describe a behavior: all but those named `default`. -/
def described (sections : List Section) : List Section :=
  sections.filter (·.name != BehaviorFile.defaultName)

end BehaviorSet

/-! ## Statuses -/

theorem statusCode?_bounds {value : String} {code : Nat} (h : statusCode? value = some code) :
    100 ≤ code ∧ code ≤ 599 := by
  unfold statusCode? at h
  obtain ⟨n, hn, rfl⟩ := Option.map_eq_some_iff.mp h
  have hbounds := (Option.filter_eq_some_iff.mp hn).2
  simp only [Bool.and_eq_true, decide_eq_true_eq] at hbounds
  omega

/-- The statuses of a compiled set are numbers between 100 and 599. -/
theorem BehaviorSet.compile_status_bounds {now : Time.Instant} {sections : List Section}
    {set : BehaviorSet} (h : compile now sections = .ok set) :
    set.Every fun r => ∀ code, r.status = some code → 100 ≤ code ∧ code ≤ 599 := by
  refine compile_keeps (by intro code hcode; cases hcode) ?_ h
  intro hasCookie p edit d hread hd code hcode
  cases edit with
  | status n =>
    obtain rfl : n = code := Option.some.inj hcode
    exact statusCode?_bounds (Edit.read_eq_ok.mp hread).1.2
  | _ => exact hd code hcode

end StubServer
