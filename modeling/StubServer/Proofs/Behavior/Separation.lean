import StubServer.Proofs.Behavior.Overlay

/-!
# Cookies and everything else

The properties of a section fall into two halves that know nothing of each other: those about
cookies, whose names begin with `cookie.`, and all others. A draft has two parts likewise, its
cookies with the cursor among them and the rest, and `withCookiesOf` puts it together from the
parts of two drafts:

> `putAll_separate`: a draft takes a list of properties if and only if its cookies take the one
> half and the rest takes the other, and then it is what comes of these, put together again.

So neither half can tell where in a section the other one stands.
-/

namespace StubServer

open BehaviorFile (Property)

/-! ## The two halves -/

/-- Whether a property is about a cookie. -/
def isCookieProperty (p : Property) : Bool :=
  "cookie.".toList.isPrefixOf p.name.toList

/-- Whether a key is about a cookie. -/
def PropertyKey.isCookie : PropertyKey → Bool
  | cookieName | cookie _ => true
  | _ => false

/-- Whether an edit changes the cookies. -/
def Edit.changesCookies : Edit → Bool
  | openCookie _ | cookie _ => true
  | _ => false

section Names

variable {now : Time.Instant} {hasCookie : Bool} {p : Property} {edit : Edit}

theorem PropertyKey.isCookie_ofText (name : String) :
    (ofText name).isCookie = "cookie.".toList.isPrefixOf name.toList := by
  unfold ofText
  split
  case h_9 =>
    split
    next attr hafter =>
      rw [Text.after?_eq_some hafter]
      exact (List.isPrefixOf_iff_prefix.mpr (List.prefix_append _ attr)).symm
    next hnone =>
      refine (Bool.eq_false_iff.mpr fun hprefix => ?_).symm
      obtain ⟨attr, hattr⟩ := List.isPrefixOf_iff_prefix.mp hprefix
      rw [← hattr, Text.after?_append] at hnone
      cases hnone
  all_goals rfl

/-- An edit changes the cookies if it was read from a property about them. -/
theorem Edit.Reads.changesCookies (h : edit.Reads now p) :
    edit.changesCookies = isCookieProperty p := by
  unfold isCookieProperty
  rw [← PropertyKey.isCookie_ofText]
  cases edit with
  | cookie change =>
    obtain ⟨attr, hkey, -⟩ := h
    rw [hkey]
    rfl
  | _ =>
    rw [h.1]
    rfl

/-- No cookie has to be open for a property about something else. -/
theorem Edit.read_of_not_cookie (hp : isCookieProperty p = false) (hasCookie' : Bool)
    (h : Edit.read now hasCookie p = .ok edit) : Edit.read now hasCookie' p = .ok edit := by
  obtain ⟨hreads, -⟩ := Edit.read_eq_ok.mp h
  refine Edit.read_eq_ok.mpr ⟨hreads, fun hneeds => ?_⟩
  have hchanges := hreads.changesCookies
  cases edit with
  | cookie change =>
    rw [hp] at hchanges
    cases hchanges
  | _ => cases hneeds

end Names

/-! ## Drafts in two parts -/

namespace Draft

variable {now : Time.Instant} {p : Property}

/-- A draft with the cookies of another one. -/
def withCookiesOf (d c : Draft) : Draft :=
  { d with response := { d.response with cookies := c.response.cookies }, cursor := c.cursor }

theorem apply_withCookiesOf_cookie {edit : Edit} (h : edit.changesCookies = true) (d c : Draft) :
    edit.apply (d.withCookiesOf c) = d.withCookiesOf (edit.apply c) := by
  cases edit with
  | openCookie name => rfl
  | cookie change => rfl
  | _ => cases h

theorem apply_withCookiesOf_other {edit : Edit} (h : edit.changesCookies = false) (d c : Draft) :
    edit.apply (d.withCookiesOf c) = (edit.apply d).withCookiesOf c := by
  cases edit with
  | openCookie name => cases h
  | cookie change => cases h
  | _ => rfl

/-- A property about a cookie is a matter of the cookies. -/
theorem put_withCookiesOf_cookie (hp : isCookieProperty p = true) {d c d' : Draft} :
    (d.withCookiesOf c).put now p = .ok d' ↔
      ∃ c', c.put now p = .ok c' ∧ d' = d.withCookiesOf c' := by
  simp only [put_eq_ok]
  constructor
  · rintro ⟨edit, hread, rfl⟩
    have hchanges := (Edit.read_eq_ok.mp hread).1.changesCookies
    exact ⟨edit.apply c, ⟨edit, hread, rfl⟩, apply_withCookiesOf_cookie (hchanges.trans hp) d c⟩
  · rintro ⟨c', ⟨edit, hread, rfl⟩, rfl⟩
    have hchanges := (Edit.read_eq_ok.mp hread).1.changesCookies
    exact ⟨edit, hread, apply_withCookiesOf_cookie (hchanges.trans hp) d c⟩

/-- Any other property is a matter of the rest. -/
theorem put_withCookiesOf_other (hp : isCookieProperty p = false) {d c d' : Draft} :
    (d.withCookiesOf c).put now p = .ok d' ↔
      ∃ e, d.put now p = .ok e ∧ d' = e.withCookiesOf c := by
  simp only [put_eq_ok]
  constructor
  · rintro ⟨edit, hread, rfl⟩
    have hchanges := (Edit.read_eq_ok.mp hread).1.changesCookies
    exact ⟨edit.apply d, ⟨edit, Edit.read_of_not_cookie hp _ hread, rfl⟩,
      apply_withCookiesOf_other (hchanges.trans hp) d c⟩
  · rintro ⟨e, ⟨edit, hread, rfl⟩, rfl⟩
    have hchanges := (Edit.read_eq_ok.mp hread).1.changesCookies
    exact ⟨edit, Edit.read_of_not_cookie hp _ hread, apply_withCookiesOf_other (hchanges.trans hp) d c⟩

/-- The two halves of a list of properties do not touch each other. -/
theorem putAll_separate : ∀ (properties : List Property) {d c d' : Draft},
    (d.withCookiesOf c).putAll now properties = .ok d' ↔
      ∃ e c', d.putAll now (properties.filter (!isCookieProperty ·)) = .ok e ∧
        c.putAll now (properties.filter isCookieProperty) = .ok c' ∧ d' = e.withCookiesOf c' := by
  intro properties
  induction properties with
  | nil =>
    intro d c d'
    constructor
    · intro h
      exact ⟨d, c, rfl, rfl, (Except.ok.inj h).symm⟩
    · rintro ⟨e, c', he, hc, rfl⟩
      rw [← Except.ok.inj he, ← Except.ok.inj hc]
      rfl
  | cons p rest ih =>
    intro d c d'
    rw [putAll, bind_eq_ok]
    cases hp : isCookieProperty p with
    | true =>
      rw [List.filter_cons_of_neg (by simp [hp]), List.filter_cons_of_pos hp, putAll]
      simp only [bind_eq_ok, put_withCookiesOf_cookie hp]
      constructor
      · rintro ⟨next, ⟨c₁, hput, rfl⟩, hrest⟩
        obtain ⟨e, c', he, hc, hd⟩ := ih.mp hrest
        exact ⟨e, c', he, ⟨c₁, hput, hc⟩, hd⟩
      · rintro ⟨e, c', he, ⟨c₁, hput, hc⟩, hd⟩
        exact ⟨_, ⟨c₁, hput, rfl⟩, ih.mpr ⟨e, c', he, hc, hd⟩⟩
    | false =>
      rw [List.filter_cons_of_pos (by simp [hp]), List.filter_cons_of_neg (by simp [hp]), putAll]
      simp only [bind_eq_ok, put_withCookiesOf_other hp]
      constructor
      · rintro ⟨next, ⟨d₁, hput, rfl⟩, hrest⟩
        obtain ⟨e, c', he, hc, hd⟩ := ih.mp hrest
        exact ⟨e, c', ⟨d₁, hput, he⟩, hc, hd⟩
      · rintro ⟨e, c', ⟨d₁, hput, he⟩, hc, hd⟩
        exact ⟨_, ⟨d₁, hput, rfl⟩, ih.mpr ⟨e, c', he, hc, hd⟩⟩

/-- So without the properties about cookies a draft is what it was, without cookies. -/
theorem putAll_withoutCookies {properties : List Property} {d d' : Draft}
    (h : d.putAll now properties = .ok d') :
    (d.withCookiesOf {}).putAll now (properties.filter (!isCookieProperty ·)) =
      .ok (d'.withCookiesOf {}) := by
  obtain ⟨e, c', he, -, rfl⟩ := (putAll_separate (c := d) properties).mp h
  refine (putAll_separate _).mpr ⟨e, {}, ?_, ?_, rfl⟩
  · rw [List.filter_filter]
    simp only [Bool.and_self]
    exact he
  · have hnone : (properties.filter (!isCookieProperty ·)).filter isCookieProperty = [] := by
      rw [List.filter_filter]
      simp
    rw [hnone]
    rfl

end Draft

end StubServer
