import StubServer.Proofs.Behavior.CookieGroups
import StubServer.Proofs.Time.Advance

/-!
# What the time of compilation matters for

A set is compiled at some time, from which the cookies expire that do so after a while. Nothing
else may depend on the time. Two runs over the same sections, at two times, are followed side by
side, and `Outcomes` says how they come out at each stage:

> both with results that are the same but for expiries, both with the same fault, or one of
> them with an expiry outside the years that have instants.

Only a property about an expiry can tell the two times apart (`Edit.read_cases`). By how much
the expiries differ is seen from each run by itself: the last word of a cookie's group about its
expiry (`CookieGroup.lastExpiry`) either names a time or counts from the time of compilation.
-/

namespace StubServer

open BehaviorFile (Property Section)
open Time (Instant)

/-! ## Everything but the expiries -/

/-- A cookie without its time of expiry. -/
def Cookie.withoutExpiry (c : Cookie) : Cookie :=
  { c with expires := none }

/-- A response whose cookies have no time of expiry. -/
def Response.withoutExpiries (r : Response) : Response :=
  { r with cookies := r.cookies.map (·.withoutExpiry) }

@[inherit_doc Response.withoutExpiries]
def Behavior.withoutExpiries (b : Behavior) : Behavior :=
  { b with response := b.response.withoutExpiries }

@[inherit_doc Response.withoutExpiries]
def BehaviorSet.withoutExpiries (set : BehaviorSet) : BehaviorSet where
  fallback := set.fallback.map (·.withoutExpiries)
  behaviors := set.behaviors.map (·.withoutExpiries)

@[inherit_doc Response.withoutExpiries]
def Draft.withoutExpiries (d : Draft) : Draft :=
  { d with response := d.response.withoutExpiries }

/-- A change to the open cookie that keeps lists alike, if it keeps single cookies alike. -/
theorem Cookie.Cursor.modify_alike {β : Type} {f : Cookie → β} {change change' : Cookie → Cookie}
    {cookies cookies' : List Cookie} (cursor : Cursor)
    (hchange : ∀ {c c'}, f c = f c' → f (change c) = f (change' c'))
    (hcookies : cookies.map f = cookies'.map f) :
    (cursor.modify change cookies).map f = (cursor.modify change' cookies').map f := by
  obtain ⟨_ | place⟩ := cursor
  · exact hcookies
  · refine List.ext_getElem? fun n => ?_
    have hn := congrArg (·[n]?) hcookies
    simp only [List.getElem?_map] at hn
    show ((cookies.modify place change).map f)[n]? = ((cookies'.modify place change').map f)[n]?
    simp only [List.getElem?_map, List.getElem?_modify]
    revert hn
    rcases cookies[n]? with _ | c <;> rcases cookies'[n]? with _ | c' <;> intro hn
    · rfl
    · cases hn
    · cases hn
    · have hc : f c = f c' := Option.some.inj hn
      by_cases hplace : place = n
      · simpa [hplace] using hchange hc
      · simpa [hplace] using hc

section Drafts

variable {d d' : Draft}

/-- Drafts are alike but for expiries if their cookies are and everything else is the same. -/
theorem Draft.alike_iff : d.withoutExpiries = d'.withoutExpiries ↔
    d.withCookiesOf {} = d'.withCookiesOf {} ∧ d.cursor = d'.cursor ∧
      d.response.cookies.map (·.withoutExpiry) = d'.response.cookies.map (·.withoutExpiry) := by
  constructor
  · intro h
    exact ⟨congrArg (·.withCookiesOf {}) h, congrArg (·.cursor) h, congrArg (·.response.cookies) h⟩
  · rintro ⟨hrest, hcursor, hcookies⟩
    have hparts : ∀ d : Draft, d.withoutExpiries = (d.withCookiesOf {}).withCookiesOf
        { response := { cookies := d.response.cookies.map (·.withoutExpiry) }, cursor := d.cursor } :=
      fun _ => rfl
    rw [hparts, hparts d', hrest, hcursor, hcookies]

theorem Draft.length_alike (h : d.withoutExpiries = d'.withoutExpiries) :
    d.response.cookies.length = d'.response.cookies.length := by
  have hlength := congrArg List.length (alike_iff.mp h).2.2
  rwa [List.length_map, List.length_map] at hlength

/-- Whether a cookie is open is the same in both. -/
theorem Draft.hasCookie_alike (h : d.withoutExpiries = d'.withoutExpiries) :
    d.hasCookie = d'.hasCookie := by
  rw [Bool.eq_iff_iff, hasCookie_iff, hasCookie_iff, (alike_iff.mp h).2.1, length_alike h]

/-- Changes that keep cookies alike keep drafts alike. -/
theorem CookieEdit.apply_alike {change change' : CookieEdit}
    (hchange : ∀ {c c'}, Cookie.withoutExpiry c = Cookie.withoutExpiry c' →
      (change.apply c).withoutExpiry = (change'.apply c').withoutExpiry)
    (h : d.withoutExpiries = d'.withoutExpiries) :
    ((Edit.cookie change).apply d).withoutExpiries =
      ((Edit.cookie change').apply d').withoutExpiries := by
  obtain ⟨hrest, hcursor, hcookies⟩ := Draft.alike_iff.mp h
  refine Draft.alike_iff.mpr ⟨hrest, hcursor, ?_⟩
  show (d.cursor.modify change.apply _).map _ = (d'.cursor.modify change'.apply _).map _
  rw [hcursor]
  exact d'.cursor.modify_alike hchange hcookies

/-- The same edit keeps drafts alike. -/
theorem Edit.apply_alike (edit : Edit) (h : d.withoutExpiries = d'.withoutExpiries) :
    (edit.apply d).withoutExpiries = (edit.apply d').withoutExpiries := by
  obtain ⟨hrest, hcursor, hcookies⟩ := Draft.alike_iff.mp h
  cases edit with
  | openCookie name =>
    refine Draft.alike_iff.mpr ⟨hrest, ?_, ?_⟩
    · exact congrArg (fun n : Nat => (⟨some n⟩ : Cookie.Cursor)) (Draft.length_alike h)
    · show (d.response.cookies ++ _).map _ = (d'.response.cookies ++ _).map _
      rw [List.map_append, hcookies, List.map_append]
  | cookie change =>
    refine CookieEdit.apply_alike (fun {c c'} hc => ?_) h
    -- a change may set the expiry, but none looks at the old one
    have hkeeps : ∀ c, (change.apply c).withoutExpiry =
        (change.apply c.withoutExpiry).withoutExpiry := fun _ => by cases change <;> rfl
    rw [hkeeps, hc, ← hkeeps]
  | _ =>
    refine Draft.alike_iff.mpr ⟨?_, hcursor, hcookies⟩
    rw [← Draft.apply_withCookiesOf_other rfl, hrest, Draft.apply_withCookiesOf_other rfl]

end Drafts

/-! ## Two runs side by side -/

/-- The fault of one of the given properties: an expiry that, counted from `now`, lies outside the
years that have instants. -/
def OutOfRange (now : Instant) (properties : List Property) (e : CompileError) : Prop :=
  ∃ p ∈ properties, p.name = "cookie.expires" ∧ e = .property p.line (shown p) .expires ∧
    ∃ nanos, Duration.parse p.value.toList = .ok nanos ∧ ¬(now.advance nanos).InRange

/-- What is read of an attribute does not depend on the time, unless it is a duration until the
cookie expires. -/
theorem CookieEdit.read_cases (attr : CookieAttribute) (value : String) :
    (∀ now now', read now attr value = read now' attr value) ∨
      (attr = .expires ∧ ∃ nanos, Duration.parse value.toList = .ok nanos ∧
        ∀ now, read now attr value = orFault .expires ((Instant.add? now nanos).map .expires)) := by
  cases attr with
  | expires =>
    cases hparse : Duration.parse value.toList with
    | error fault => exact Or.inl fun _ _ => by simp only [read, expiry?, hparse]
    | ok nanos =>
      exact Or.inr ⟨rfl, nanos, rfl, fun _ => by simp only [read, expiry?, durationFault, hparse]⟩
  | _ => exact Or.inl fun _ _ => rfl

/-- Nor does what is read of any other property. -/
theorem Edit.read_cases (hasCookie : Bool) (p : Property) :
    (∀ now now', Edit.read now hasCookie p = Edit.read now' hasCookie p) ∨
      (p.name = "cookie.expires" ∧ ∃ nanos, Duration.parse p.value.toList = .ok nanos ∧
        ∀ now, Edit.read now hasCookie p =
          orFault .expires ((Instant.add? now nanos).map fun t => .cookie (.expires t))) := by
  unfold Edit.read
  cases hkey : PropertyKey.ofText p.name with
  | cookie attr =>
    cases hasCookie with
    | false => exact Or.inl fun _ _ => rfl
    | true =>
      rcases attr with _ | attr
      · exact Or.inl fun _ _ => rfl
      · rcases CookieEdit.read_cases attr p.value with hsame | ⟨rfl, nanos, hparse, hread⟩
        · exact Or.inl fun now now' => congrArg (Except.map Edit.cookie) (hsame now now')
        · refine Or.inr ⟨PropertyKey.ofText_eq_cookie hkey, nanos, hparse, fun now => ?_⟩
          show (CookieEdit.read now .expires p.value).map Edit.cookie = _
          rw [hread]
          cases now.add? nanos <;> rfl
  | _ => exact Or.inl fun _ _ => rfl

/-- How two runs over the same properties at two times come out, if all that is looked at of
their results is `part`. -/
inductive Outcomes (now now' : Instant) (properties : List Property) {α β : Type} (part : α → β) :
    Except CompileError α → Except CompileError α → Prop
  | both {a a' : α} (h : part a = part a') : Outcomes now now' properties part (.ok a) (.ok a')
  | alike (e : CompileError) : Outcomes now now' properties part (.error e) (.error e)
  | first {e : CompileError} (y : Except CompileError α) (h : OutOfRange now properties e) :
    Outcomes now now' properties part (.error e) y
  | second {e : CompileError} (x : Except CompileError α) (h : OutOfRange now' properties e) :
    Outcomes now now' properties part x (.error e)

section Outcomes

variable {now now' : Instant} {properties : List Property}

/-- Runs are followed one step after the other. -/
theorem Outcomes.bind {α β γ δ : Type} {part : α → β} {part' : γ → δ} {x y : Except CompileError α}
    {f g : α → Except CompileError γ} (h : Outcomes now now' properties part x y)
    (hnext : ∀ {a a'}, part a = part a' → Outcomes now now' properties part' (f a) (g a')) :
    Outcomes now now' properties part' (x >>= f) (y >>= g) := by
  cases h with
  | both h => exact hnext h
  | alike e => exact .alike e
  | first _ h => exact .first _ h
  | second _ h => exact .second _ h

/-- One property: either nothing tells the two times apart, or it is an expiry, which counts
from both. -/
theorem Draft.put_outcomes {p : Property} {d d' : Draft} (hp : p ∈ properties)
    (h : d.withoutExpiries = d'.withoutExpiries) :
    Outcomes now now' properties withoutExpiries (d.put now p) (d'.put now' p) := by
  unfold put
  rw [hasCookie_alike h]
  rcases Edit.read_cases d'.hasCookie p with hsame | ⟨hname, nanos, hparse, hread⟩
  · rw [hsame now now']
    cases Edit.read now' d'.hasCookie p with
    | error fault => exact .alike _
    | ok edit => exact .both (edit.apply_alike h)
  · rw [hread, hread]
    -- both add the same duration, which may lead too far from either time
    cases ht : now.add? nanos with
    | none => exact .first _ ⟨p, hp, hname, rfl, nanos, hparse, Instant.add?_eq_none.mp ht⟩
    | some t =>
      cases ht' : now'.add? nanos with
      | none => exact .second _ ⟨p, hp, hname, rfl, nanos, hparse, Instant.add?_eq_none.mp ht'⟩
      | some t' => exact .both (CookieEdit.apply_alike (fun hc => hc) h)

theorem Draft.putAll_outcomes : ∀ {rest : List Property} {d d' : Draft}, rest ⊆ properties →
    d.withoutExpiries = d'.withoutExpiries →
      Outcomes now now' properties withoutExpiries (d.putAll now rest) (d'.putAll now' rest)
  | [], _, _, _, h => .both h
  | _ :: _, _, _, hrest, h =>
    (put_outcomes (hrest List.mem_cons_self) h).bind fun hnext =>
      putAll_outcomes (fun _ hp => hrest (List.mem_cons_of_mem _ hp)) hnext

theorem Behavior.ofSection_outcomes {s : Section} (hs : s.properties ⊆ properties) :
    Outcomes now now' properties withoutExpiries (ofSection now s) (ofSection now' s) := by
  unfold ofSection
  cases routeOf s.name with
  | error fault => exact .alike _
  | ok route =>
    refine (Draft.putAll_outcomes hs rfl).bind fun {d d'} h => .both ?_
    have hresponse : d.response.withoutExpiries = d'.response.withoutExpiries :=
      congrArg (·.response) h
    have hcount : d.repetitions = d'.repetitions := congrArg (·.repetitions) h
    show (⟨_, _, d.repetitions, d.response.withoutExpiries⟩ : Behavior) = _
    rw [hresponse, hcount]
    rfl

theorem Response.withDefaults_outcomes {fallback fallback' : Option Response} {s : Section}
    (hs : s.properties ⊆ properties)
    (h : fallback.map withoutExpiries = fallback'.map withoutExpiries) :
    Outcomes now now' properties withoutExpiries (withDefaults now fallback s)
      (withDefaults now' fallback' s) := by
  have hstart : (fallback.getD {}).withoutExpiries = (fallback'.getD {}).withoutExpiries := by
    have hgetD : ∀ o : Option Response,
        (o.getD {}).withoutExpiries = (o.map withoutExpiries).getD {} := fun o => by cases o <;> rfl
    rw [hgetD, h, ← hgetD]
  have hdrafts : Draft.withoutExpiries { response := fallback.getD {} } =
      Draft.withoutExpiries { response := fallback'.getD {} } :=
    congrArg (fun response => ({ response } : Draft)) hstart
  exact (Draft.putAll_outcomes hs hdrafts).bind fun h => .both (congrArg (·.response) h)

theorem BehaviorSet.add_outcomes {set set' : BehaviorSet} {s : Section}
    (hs : s.properties ⊆ properties) (h : set.withoutExpiries = set'.withoutExpiries) :
    Outcomes now now' properties withoutExpiries (set.add now s) (set'.add now' s) := by
  unfold add
  split
  · refine (Response.withDefaults_outcomes hs (congrArg (·.fallback) h)).bind fun {r r'} hr =>
      .both ?_
    show (⟨some r.withoutExpiries, set.withoutExpiries.behaviors⟩ : BehaviorSet) = _
    rw [hr, h]
    rfl
  · refine (Behavior.ofSection_outcomes hs).bind fun {b b'} hb => .both ?_
    have hbehaviors : set.behaviors.map (·.withoutExpiries) = set'.behaviors.map (·.withoutExpiries) :=
      congrArg (·.behaviors) h
    refine congrArg₂ BehaviorSet.mk (congrArg (·.fallback) h) ?_
    rw [List.map_append, List.map_append, hbehaviors]
    exact congrArg (_ ++ [·]) hb

theorem BehaviorSet.addAll_outcomes : ∀ {sections : List Section} {set set' : BehaviorSet},
    (∀ s ∈ sections, s.properties ⊆ properties) → set.withoutExpiries = set'.withoutExpiries →
      Outcomes now now' properties withoutExpiries (set.addAll now sections)
        (set'.addAll now' sections)
  | [], _, _, _, h => .both h
  | _ :: _, _, _, hs, h =>
    (add_outcomes (hs _ List.mem_cons_self) h).bind fun hnext =>
      addAll_outcomes (fun _ hmem => hs _ (List.mem_cons_of_mem _ hmem)) hnext

end Outcomes

/-! ## Where an expiry comes from -/

/-- The last property of a group that sets the expiry. -/
def CookieGroup.lastExpiry (g : CookieGroup) : Option Property :=
  (g.attributes.filter setsExpiry).getLast?

/-- The expiries of a cookie that is compiled at two times. -/
inductive CookieGroup.Expiries (now now' : Instant) (g : CookieGroup) :
    Option Instant → Option Instant → Prop
  /-- It has none if nothing sets one. -/
  | absent (h : g.lastExpiry = none) : Expiries now now' g none none
  /-- It has the same one if a time is written last, -/
  | fixed {p : Property} {t : Instant} (h : g.lastExpiry = some p)
      (hname : p.name = "cookie.raw_expires") : Expiries now now' g (some t) (some t)
  /-- and otherwise ordinary ones that lie as far apart as the times of compilation. -/
  | moving {p : Property} {t t' : Instant} (h : g.lastExpiry = some p)
      (hname : p.name = "cookie.expires") (hordinary : t.isLeap = false)
      (hordinary' : t'.isLeap = false)
      (hapart : t'.sinceEpoch - t.sinceEpoch = now'.sinceEpoch - now.sinceEpoch) :
      Expiries now now' g (some t) (some t')

section Expiries

variable {now now' : Instant}

/-- Every attribute that a cookie takes has been read. -/
theorem Cookie.Takes.reads {attributes : List Property} {c c' : Cookie}
    (h : Takes now attributes c c') : ∀ p ∈ attributes, ∃ change, (Edit.cookie change).Reads now p := by
  induction h with
  | nil => exact List.forall_mem_nil _
  | cons hread _ ih => exact List.forall_mem_cons.mpr ⟨⟨_, hread⟩, ih⟩

theorem expiry?_eq_some {value : String} {t : Instant} : expiry? now value = some t ↔
    ∃ nanos, Duration.parse value.toList = .ok nanos ∧ now.add? nanos = some t := by
  unfold expiry?
  cases Duration.parse value.toList <;> simp

/-- A property that sets the expiry and was read sets one: a time, or some time from now. -/
theorem expiryOf_of_reads {p : Property} {change : CookieEdit} (hp : setsExpiry p = true)
    (h : (Edit.cookie change).Reads now p) :
    (p.name = "cookie.raw_expires" ∧ ∃ t, ∀ now, expiryOf now p = some t) ∨
      (p.name = "cookie.expires" ∧ ∃ nanos, Duration.parse p.value.toList = .ok nanos ∧
        expiryOf now p = some (now.advance nanos)) := by
  obtain ⟨attr, hkey, hchange⟩ := h
  have hname := PropertyKey.ofText_eq_cookie hkey
  unfold setsExpiry at hp
  unfold expiryOf
  rw [hname] at hp ⊢
  cases attr with
  | rawExpires =>
    obtain ⟨t, ht, -⟩ := Option.map_eq_some_iff.mp (orFault_eq_ok.mp hchange)
    exact Or.inl ⟨rfl, t, fun _ => ht⟩
  | expires =>
    obtain ⟨t, ht, -⟩ := Option.map_eq_some_iff.mp (orFault_eq_ok.mp hchange)
    obtain ⟨nanos, hparse, hadd⟩ := expiry?_eq_some.mp ht
    obtain ⟨-, rfl⟩ := Instant.add?_eq_some.mp hadd
    exact Or.inr ⟨rfl, nanos, hparse, ht⟩
  | _ => exact absurd hp (by decide)

/-- The cookies that a group makes at two times. -/
theorem CookieGroup.expiries_of_makes {g : CookieGroup} {c c' : Cookie} (hnow : now.isLeap = false)
    (hnow' : now'.isLeap = false) (h : g.Makes now c) (h' : g.Makes now' c') :
    g.Expiries now now' c.expires c'.expires := by
  rw [h.expires, h'.expires]
  show g.Expiries now now' (g.lastExpiry.bind _) (g.lastExpiry.bind _)
  cases hlast : g.lastExpiry with
  | none => exact .absent hlast
  | some p =>
    obtain ⟨hp, hsets⟩ := List.mem_filter.mp (List.mem_of_getLast? hlast)
    -- the property was read at both times, so it says the same in both runs
    obtain ⟨_, hread⟩ := h.takes.reads p hp
    obtain ⟨_, hread'⟩ := h'.takes.reads p hp
    rw [Option.bind_some, Option.bind_some]
    rcases expiryOf_of_reads hsets hread with ⟨hname, t, ht⟩ | ⟨hname, nanos, hparse, ht⟩
    · rw [ht, ht]
      exact .fixed hlast hname
    · rcases expiryOf_of_reads hsets hread' with ⟨hraw, -⟩ | ⟨-, nanos', hparse', ht'⟩
      · rw [hname] at hraw
        exact absurd hraw (by decide)
      · obtain rfl := Except.ok.inj (hparse.symm.trans hparse')
        obtain ⟨hordinary, hlater⟩ := Instant.advance_sinceEpoch hnow nanos
        obtain ⟨hordinary', hlater'⟩ := Instant.advance_sinceEpoch hnow' nanos
        rw [ht, ht']
        exact .moving hlast hname hordinary hordinary' (by omega)

theorem MakesAll.expiries (hnow : now.isLeap = false) (hnow' : now'.isLeap = false) :
    ∀ {groups : List CookieGroup} {cookies cookies' : List Cookie},
      MakesAll now groups cookies → MakesAll now' groups cookies' →
        List.Forall₂ (fun g c => g.Expiries now now' c.1.expires c.2.expires) groups
          (cookies.zip cookies')
  | _, _, _, .nil, .nil => .nil
  | _, _, _, .cons h hrest, .cons h' hrest' =>
    .cons (CookieGroup.expiries_of_makes hnow hnow' h h') (expiries hnow hnow' hrest hrest')

end Expiries

/-! ## Whole files -/

namespace BehaviorSet

/-- All cookies of a set, first those of the fallback. -/
def cookies (set : BehaviorSet) : List Cookie :=
  (set.fallback.getD {}).cookies ++ set.behaviors.flatMap (·.response.cookies)

/-- The groups of all cookies, in the same order. -/
def groupsOf (sections : List Section) : List CookieGroup :=
  (defaults sections ++ described sections).flatMap fun s => cookieGroups s.properties

section Cookies

variable {now : Instant} {sections : List Section} {set : BehaviorSet}

/-- Each cookie of a compiled set is made by its group. -/
theorem compile_makesAll (h : compile now sections = .ok set) :
    MakesAll now (groupsOf sections) set.cookies := by
  obtain ⟨hfallback, hbehaviors⟩ := compile_eq_ok.mp h
  obtain ⟨-, added, hadded, hcookies⟩ := Response.withAllDefaults_groups _ hfallback
  unfold MakesAll groupsOf cookies
  rw [List.flatMap_append, hcookies]
  refine List.rel_append (List.rel_flatten ?_) (List.rel_flatten ?_)
  · exact List.forall₂_map_left_iff.mpr hadded
  · refine List.forall₂_map_left_iff.mpr (List.forall₂_map_right_iff.mpr ?_)
    exact hbehaviors.imp fun _ _ hb => (Behavior.ofSection_groups hb).2

end Cookies

/-- The sets that are compiled from the same sections at two times. -/
structure Shifted (now now' : Instant) (sections : List Section) (set set' : BehaviorSet) : Prop where
  /-- They are the same but for the expiries of their cookies. -/
  others : set.withoutExpiries = set'.withoutExpiries
  /-- The expiry of each cookie is the same in both, or differs by as much as the times do,
  depending on what its group says last. -/
  expiries : List.Forall₂ (fun g c => g.Expiries now now' c.1.expires c.2.expires)
    (groupsOf sections) (set.cookies.zip set'.cookies)

/-- What the time of compilation does. -/
structure TimeLaw (now now' : Instant) (sections : List Section) : Prop where
  shifted : ∀ {set set'}, compile now sections = .ok set → compile now' sections = .ok set' →
    Shifted now now' sections set set'
  /-- What is refused at one time only has an expiry that is out of range then. -/
  refusedFirst : ∀ {set e}, compile now sections = .error e → compile now' sections = .ok set →
    OutOfRange now (sections.flatMap (·.properties)) e
  refusedSecond : ∀ {set e}, compile now sections = .ok set → compile now' sections = .error e →
    OutOfRange now' (sections.flatMap (·.properties)) e
  /-- What is refused at both has the same fault, unless one of the two is of this kind. -/
  refused : ∀ {e e'}, compile now sections = .error e → compile now' sections = .error e' →
    e = e' ∨ OutOfRange now (sections.flatMap (·.properties)) e ∨
      OutOfRange now' (sections.flatMap (·.properties)) e'

/-- Compilation at two times, side by side. -/
theorem compile_outcomes (now now' : Instant) (sections : List Section) :
    Outcomes now now' (sections.flatMap (·.properties)) withoutExpiries (compile now sections)
      (compile now' sections) :=
  addAll_outcomes (fun s hs _ hp => List.mem_flatMap.mpr ⟨s, hs, hp⟩) rfl

/-- **The time of compilation moves the expiries that count from it, and nothing else.** Of two
ordinary instants, if the sections compile at both, the sets are the same but for expiries; and
the expiry of a cookie is the same too, unless its last one counts from the time of compilation,
when it moves with that. What compiles at one of them only has such an expiry, which lies
outside the years that have instants, and that is its fault. -/
theorem compile_shifted {now now' : Instant} (hnow : now.isLeap = false)
    (hnow' : now'.isLeap = false) (sections : List Section) : TimeLaw now now' sections := by
  have houtcomes := compile_outcomes now now' sections
  constructor
  · intro set set' h h'
    have hexpiries := MakesAll.expiries hnow hnow' (compile_makesAll h) (compile_makesAll h')
    rw [h, h'] at houtcomes
    cases houtcomes with
    | both hothers => exact ⟨hothers, hexpiries⟩
  · intro set e h h'
    rw [h, h'] at houtcomes
    cases houtcomes with
    | first _ hrange => exact hrange
  · intro set e h h'
    rw [h, h'] at houtcomes
    cases houtcomes with
    | second _ hrange => exact hrange
  · intro e e' h h'
    rw [h, h'] at houtcomes
    cases houtcomes with
    | alike => exact Or.inl rfl
    | first _ hrange => exact Or.inr (Or.inl hrange)
    | second _ hrange => exact Or.inr (Or.inr hrange)

/-- Three cookies: one expires after an hour, one at a given time, and one not at all. -/
def expiring : List Section :=
  [⟨"GET /a", 1, [⟨"cookie.name", "a", 2⟩, ⟨"cookie.expires", "1h", 3⟩,
    ⟨"cookie.name", "b", 4⟩, ⟨"cookie.expires", "2h", 5⟩,
    ⟨"cookie.raw_expires", "2030-01-01T00:00:00Z", 6⟩, ⟨"cookie.name", "c", 7⟩]⟩]

/-- They are compiled at the start of 1970, a day later, and in the last second of all. -/
theorem compile_shifted_expiring : ∃ set set',
    compile .epoch expiring = .ok set ∧ compile ⟨86400, 0⟩ expiring = .ok set' ∧
      Shifted .epoch ⟨86400, 0⟩ expiring set set' ∧
      set.cookies.map (·.expires) = [some ⟨3600, 0⟩, some ⟨1893456000, 0⟩, none] ∧
      set'.cookies.map (·.expires) = [some ⟨90000, 0⟩, some ⟨1893456000, 0⟩, none] ∧
      OutOfRange ⟨8210266876799, 0⟩ (expiring.flatMap (·.properties))
        (.property 3 "cookie.expires=1h" .expires) := by
  have hfirst : compile .epoch expiring = .ok { behaviors := [⟨.get, "/a", none,
      { cookies := [{ name := "a", expires := some ⟨3600, 0⟩ },
        { name := "b", rawExpires := some "2030-01-01T00:00:00Z", expires := some ⟨1893456000, 0⟩ },
        { name := "c" }] }⟩] } := by
    decide +kernel
  have hsecond : compile ⟨86400, 0⟩ expiring = .ok { behaviors := [⟨.get, "/a", none,
      { cookies := [{ name := "a", expires := some ⟨90000, 0⟩ },
        { name := "b", rawExpires := some "2030-01-01T00:00:00Z", expires := some ⟨1893456000, 0⟩ },
        { name := "c" }] }⟩] } := by
    decide +kernel
  have hlast : compile ⟨8210266876799, 0⟩ expiring =
      .error (.property 3 "cookie.expires=1h" .expires) := by
    decide +kernel
  exact ⟨_, _, hfirst, hsecond,
    (compile_shifted (by decide) (by decide) expiring).shifted hfirst hsecond, rfl, rfl,
    (compile_shifted (by decide) (by decide) expiring).refusedSecond hfirst hlast⟩

end BehaviorSet

end StubServer
