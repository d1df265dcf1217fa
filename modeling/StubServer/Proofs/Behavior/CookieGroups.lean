import StubServer.Proofs.Behavior.Merging
import StubServer.Proofs.Behavior.Separation
import StubServer.Proofs.Cookie.Ledger

/-!
# Which properties make which cookie

A cookie is written as a group of properties: its name, and all that is said about cookies up to
the next name. `cookieGroups` reads these groups off a section, and the compiler finds the same
ones with a cursor. Two facts join the two:

> `putAll_open`: while a cookie is open it is the last one, and whatever is said about cookies
> goes to it, up to the next name.
>
> `putAll_closed`: as long as none is open nothing may be said about one.

What a group makes of its cookie is one attribute after the other (`Takes`), so each attribute
has its last value (`Takes.last`).
-/

namespace StubServer

open BehaviorFile (Property Section)

/-! ## Groups -/

/-- What is said about cookies before the next name. -/
def attributesAhead (properties : List Property) : List Property :=
  (properties.takeWhile (·.name != "cookie.name")).filter isCookieProperty

/-- A cookie in writing: its name and what is said about it. -/
structure CookieGroup where
  name : String
  attributes : List Property
  deriving DecidableEq, Repr

/-- One group for each name, in order. -/
def cookieGroups : List Property → List CookieGroup
  | [] => []
  | p :: rest =>
    if p.name = "cookie.name" then ⟨p.value, attributesAhead rest⟩ :: cookieGroups rest
    else cookieGroups rest

section Groups

variable {p : Property}

theorem isCookieProperty_of_name (h : p.name = "cookie.name") : isCookieProperty p = true := by
  unfold isCookieProperty
  rw [h]
  rfl

theorem attributesAhead_opening (h : p.name = "cookie.name") (rest : List Property) :
    attributesAhead (p :: rest) = [] := by
  unfold attributesAhead
  rw [List.takeWhile_cons_of_neg (by simp [h])]
  rfl

theorem attributesAhead_attribute (h : p.name ≠ "cookie.name") (hp : isCookieProperty p = true)
    (rest : List Property) : attributesAhead (p :: rest) = p :: attributesAhead rest := by
  unfold attributesAhead
  rw [List.takeWhile_cons_of_pos (by simp [h]), List.filter_cons_of_pos hp]

theorem attributesAhead_other (hp : isCookieProperty p = false) (rest : List Property) :
    attributesAhead (p :: rest) = attributesAhead rest := by
  have hname : p.name ≠ "cookie.name" := by
    intro h
    rw [isCookieProperty_of_name h] at hp
    cases hp
  unfold attributesAhead
  rw [List.takeWhile_cons_of_pos (by simp [hname]), List.filter_cons_of_neg (by simp [hp])]

end Groups

/-! ## Attributes -/

/-- The name of the property that sets an attribute. -/
def CookieAttribute.word : CookieAttribute → String
  | value => "cookie.value"
  | path => "cookie.path"
  | domain => "cookie.domain"
  | expires => "cookie.expires"
  | rawExpires => "cookie.raw_expires"
  | maxAge => "cookie.max_age"
  | secure => "cookie.secure"
  | httpOnly => "cookie.http_only"
  | partitioned => "cookie.partitioned"
  | sameSite => "cookie.same_site"

/-- A cookie with an attribute of a given value. -/
def CookieAttribute.put (now : Time.Instant) (attr : CookieAttribute) (text : String) (c : Cookie) :
    Cookie :=
  match attr with
  | .value => { c with value := text }
  | .path => { c with path := some text }
  | .domain => { c with domain := some text }
  | .expires => { c with expires := expiry? now text }
  | .rawExpires => { c with rawExpires := some text, expires := Time.Timestamp.parse? text.toList }
  | .maxAge => { c with maxAge := Text.int64? text.toList }
  | .secure => { c with secure := isTrue text }
  | .httpOnly => { c with httpOnly := isTrue text }
  | .partitioned => { c with partitioned := isTrue text }
  | .sameSite => { c with sameSite := SameSite.ofText? text }

section Attributes

variable {now : Time.Instant} {attr : CookieAttribute} {change : CookieEdit} {text name : String}

/-- What is read of an attribute puts it into the cookie. -/
theorem CookieEdit.apply_eq_put (h : CookieEdit.read now attr text = .ok change) (c : Cookie) :
    change.apply c = attr.put now text c := by
  cases attr with
  | expires | maxAge | sameSite | rawExpires =>
    obtain ⟨read, hread, rfl⟩ := Option.map_eq_some_iff.mp (orFault_eq_ok.mp h)
    simp only [CookieEdit.apply, CookieAttribute.put, hread]
  | _ =>
    rw [← Except.ok.inj h]
    rfl

theorem PropertyKey.ofText_word (attr : CookieAttribute) : ofText attr.word = .cookie (some attr) := by
  cases attr <;> rfl

theorem CookieAttribute.ofText?_eq_some (h : ofText? text = some attr) :
    attr.word = "cookie." ++ text := by
  unfold ofText? at h
  split at h
  case h_11 => cases h
  all_goals
    obtain rfl := Option.some.inj h
    rfl

/-- An attribute is set by one word. -/
theorem PropertyKey.ofText_eq_cookie (h : ofText name = .cookie (some attr)) : name = attr.word := by
  unfold ofText at h
  split at h
  case h_9 =>
    split at h
    next rest hrest =>
      rw [CookieAttribute.ofText?_eq_some (PropertyKey.cookie.inj h)]
      refine String.toList_injective ?_
      rw [Text.after?_eq_some hrest, String.toList_append, @String.toList_ofList rest]
    next => cases h
  all_goals cases h

end Attributes

/-- The value of the last property of a name. -/
def lastNamed (name : String) (properties : List Property) : Option String :=
  ((properties.filter (·.name == name)).getLast?).map (·.value)

/-- What becomes of a cookie that takes a list of attributes, one after the other. -/
inductive Cookie.Takes (now : Time.Instant) : List Property → Cookie → Cookie → Prop
  | nil {c : Cookie} : Takes now [] c c
  | cons {p : Property} {change : CookieEdit} {rest : List Property} {c c' : Cookie}
      (hread : (Edit.cookie change).Reads now p) (hrest : Takes now rest (change.apply c) c') :
    Takes now (p :: rest) c c'

namespace Cookie.Takes

variable {now : Time.Instant} {attributes : List Property} {c c' : Cookie}

/-- A part of a cookie that some attributes set has the value that the last of them gives it. -/
theorem last {γ : Type} (get : Cookie → γ) (about : Property → Bool) (given : Property → γ)
    (hput : ∀ p attr c, p.name = attr.word →
      get (CookieAttribute.put now attr p.value c) = if about p then given p else get c)
    (h : Takes now attributes c c') :
    get c' = ((attributes.filter about).getLast?.map given).getD (get c) := by
  induction h with
  | nil => rfl
  | @cons p change rest c c' hread _ ih =>
    obtain ⟨attr, hkey, hchange⟩ := hread
    rw [ih, CookieEdit.apply_eq_put hchange, hput p attr c (PropertyKey.ofText_eq_cookie hkey),
      getD_getLast?_filter_cons]

/-- A part that only one attribute sets. -/
theorem single {γ : Type} (get : Cookie → γ) (attr : CookieAttribute) (given : String → γ)
    (hput : ∀ other text c,
      get (CookieAttribute.put now other text c) = if other = attr then given text else get c)
    (h : Takes now attributes c c') :
    get c' = ((lastNamed attr.word attributes).map given).getD (get c) := by
  have hlast := h.last get (·.name == attr.word) (fun p => given p.value) (by
    intro p other c hname
    have hsame : p.name = attr.word ↔ other = attr := by
      rw [hname]
      constructor
      · intro hword
        have hkey := PropertyKey.ofText_word other
        rw [hword, PropertyKey.ofText_word attr] at hkey
        exact (Option.some.inj (PropertyKey.cookie.inj hkey)).symm
      · rintro rfl
        rfl
    rw [hput]
    simp only [beq_iff_eq, hsame])
  rw [hlast]
  unfold lastNamed
  rw [Option.map_map]
  rfl

/-- A part that is not there unless it is set. -/
theorem optional {β : Type} (get : Cookie → Option β) (attr : CookieAttribute)
    (given : String → Option β)
    (hput : ∀ other text c,
      get (CookieAttribute.put now other text c) = if other = attr then given text else get c)
    (hnone : get c = none) (h : Takes now attributes c c') :
    get c' = (lastNamed attr.word attributes).bind given := by
  rw [h.single get attr given hput, hnone]
  cases lastNamed attr.word attributes <;> rfl

/-- No attribute is the name. -/
theorem name_eq (h : Takes now attributes c c') : c'.name = c.name := by
  induction h with
  | nil => rfl
  | @cons p change rest c c' _ _ ih =>
    rw [ih]
    cases change <;> rfl

end Cookie.Takes

/-! ## What a group makes -/

/-- Whether a property is one of the two that set the time of expiry. -/
def setsExpiry (p : Property) : Bool :=
  p.name == "cookie.expires" || p.name == "cookie.raw_expires"

/-- The time of expiry that one of these sets. -/
def expiryOf (now : Time.Instant) (p : Property) : Option Time.Instant :=
  if p.name = "cookie.expires" then expiry? now p.value
  else Time.Timestamp.parse? p.value.toList

/-- The cookie that a group describes. -/
structure CookieGroup.Makes (now : Time.Instant) (g : CookieGroup) (c : Cookie) : Prop where
  /-- All that is said about it, and nothing else, was put into a new cookie of its name. -/
  takes : Cookie.Takes now g.attributes { name := g.name } c
  name : c.name = g.name
  value : c.value = (lastNamed "cookie.value" g.attributes).getD ""
  path : c.path = lastNamed "cookie.path" g.attributes
  domain : c.domain = lastNamed "cookie.domain" g.attributes
  /-- Of the two properties that set the expiry, the later one counts. -/
  expires : c.expires = ((g.attributes.filter setsExpiry).getLast?).bind (expiryOf now)
  rawExpires : c.rawExpires = lastNamed "cookie.raw_expires" g.attributes
  maxAge : c.maxAge =
    (lastNamed "cookie.max_age" g.attributes).bind fun text => Text.int64? text.toList
  secure : c.secure = ((lastNamed "cookie.secure" g.attributes).map isTrue).getD false
  httpOnly : c.httpOnly = ((lastNamed "cookie.http_only" g.attributes).map isTrue).getD false
  partitioned : c.partitioned =
    ((lastNamed "cookie.partitioned" g.attributes).map isTrue).getD false
  sameSite : c.sameSite = (lastNamed "cookie.same_site" g.attributes).bind SameSite.ofText?

/-- The last value of an attribute wins. -/
theorem CookieGroup.makes_of_takes {now : Time.Instant} {g : CookieGroup} {c : Cookie}
    (h : Cookie.Takes now g.attributes { name := g.name } c) : g.Makes now c where
  takes := h
  name := h.name_eq
  value := by
    have hvalue := h.single (·.value) .value id fun other _ _ => by cases other <;> rfl
    rwa [Option.map_id] at hvalue
  path := by
    have hpath := h.optional (·.path) .path some (fun other _ _ => by cases other <;> rfl) rfl
    rwa [Option.bind_fun_some] at hpath
  domain := by
    have hdomain := h.optional (·.domain) .domain some (fun other _ _ => by cases other <;> rfl) rfl
    rwa [Option.bind_fun_some] at hdomain
  expires := by
    have hexpires := h.last (·.expires) setsExpiry (expiryOf now) fun p attr _ hname => by
      unfold setsExpiry expiryOf
      rw [hname]
      cases attr <;> rfl
    rw [hexpires]
    cases (g.attributes.filter setsExpiry).getLast? <;> rfl
  rawExpires := by
    have hraw := h.optional (·.rawExpires) .rawExpires some (fun other _ _ => by cases other <;> rfl) rfl
    rwa [Option.bind_fun_some] at hraw
  maxAge := h.optional (·.maxAge) .maxAge _ (fun other _ _ => by cases other <;> rfl) rfl
  secure := h.single (·.secure) .secure isTrue fun other _ _ => by cases other <;> rfl
  httpOnly := h.single (·.httpOnly) .httpOnly isTrue fun other _ _ => by cases other <;> rfl
  partitioned := h.single (·.partitioned) .partitioned isTrue fun other _ _ => by cases other <;> rfl
  sameSite := h.optional (·.sameSite) .sameSite _ (fun other _ _ => by cases other <;> rfl) rfl

/-! ## Running through the groups -/

/-- The cookies that a list of groups describes, one for each. -/
def MakesAll (now : Time.Instant) (groups : List CookieGroup) (cookies : List Cookie) : Prop :=
  List.Forall₂ (CookieGroup.Makes now) groups cookies

namespace Draft

variable {now : Time.Instant}

/-- What an edit does about cookies: it opens one, changes the open one, or leaves all alone. -/
theorem cookies_cases {hasCookie : Bool} {p : Property} {edit : Edit}
    (h : Edit.read now hasCookie p = .ok edit) :
    (p.name = "cookie.name" ∧ edit = .openCookie p.value) ∨
    (p.name ≠ "cookie.name" ∧ isCookieProperty p = true ∧ hasCookie = true ∧
      ∃ change, edit = .cookie change ∧ edit.Reads now p) ∨
    (p.name ≠ "cookie.name" ∧ isCookieProperty p = false ∧
      ∀ d : Draft, (edit.apply d).response.cookies = d.response.cookies ∧
        (edit.apply d).cursor = d.cursor) := by
  obtain ⟨hreads, hneeds⟩ := Edit.read_eq_ok.mp h
  have hchanges := hreads.changesCookies
  have hname : ∀ key, PropertyKey.ofText p.name = key → key ≠ .cookieName → p.name ≠ "cookie.name" := by
    rintro key rfl hkey hp
    exact hkey ((PropertyKey.ofText_eq_iff rfl).mpr hp)
  cases edit with
  | openCookie name =>
    obtain ⟨hkey, rfl⟩ := hreads
    exact Or.inl ⟨(PropertyKey.ofText_eq_iff rfl).mp hkey, rfl⟩
  | cookie change =>
    obtain ⟨attr, hkey, hchange⟩ := hreads
    exact Or.inr (Or.inl ⟨hname _ hkey (by simp), hchanges.symm, hneeds rfl, change, rfl,
      attr, hkey, hchange⟩)
  | _ => exact Or.inr (Or.inr ⟨hname _ hreads.1 (by simp), hchanges.symm, fun d => ⟨rfl, rfl⟩⟩)

/-- While the last cookie is open, it takes what is said before the next name. -/
theorem putAll_open : ∀ (properties : List Property) {base : List Cookie} {c : Cookie} {d d' : Draft},
    d.response.cookies = base ++ [c] → d.cursor = ⟨some base.length⟩ →
    d.putAll now properties = .ok d' →
      ∃ c' added, Cookie.Takes now (attributesAhead properties) c c' ∧
        MakesAll now (cookieGroups properties) added ∧ d'.response.cookies = base ++ c' :: added := by
  intro properties
  induction properties with
  | nil =>
    intro base c d d' hcookies _ h
    rw [← Except.ok.inj h]
    exact ⟨c, [], .nil, .nil, hcookies⟩
  | cons p rest ih =>
    intro base c d d' hcookies hcursor h
    obtain ⟨edit, hread, hrest⟩ := putAll_cons_eq_ok.mp h
    rcases cookies_cases hread with
      ⟨hp, rfl⟩ | ⟨hp, hcookie, -, change, rfl, hreads⟩ | ⟨hp, hother, hkeeps⟩
    · -- another cookie is opened behind this one
      have hnext : ((Edit.openCookie p.value).apply d).response.cookies =
          (base ++ [c]) ++ [{ name := p.value }] := congrArg (· ++ _) hcookies
      have hplace : ((Edit.openCookie p.value).apply d).cursor = ⟨some (base ++ [c]).length⟩ :=
        congrArg (fun cookies : List Cookie => (⟨some cookies.length⟩ : Cookie.Cursor)) hcookies
      obtain ⟨c', added, htakes, hmakes, hd⟩ := ih hnext hplace hrest
      rw [attributesAhead_opening hp, cookieGroups, if_pos hp]
      refine ⟨c, c' :: added, .nil, .cons (CookieGroup.makes_of_takes htakes) hmakes, ?_⟩
      rw [hd, List.append_assoc]
      rfl
    · have hnext : ((Edit.cookie change).apply d).response.cookies = base ++ [change.apply c] := by
        show d.cursor.modify change.apply d.response.cookies = _
        rw [hcookies, hcursor, Cookie.Cursor.modify_last]
      obtain ⟨c', added, htakes, hmakes, hd⟩ := ih hnext hcursor hrest
      rw [attributesAhead_attribute hp hcookie, cookieGroups, if_neg hp]
      exact ⟨c', added, .cons hreads htakes, hmakes, hd⟩
    · obtain ⟨hsame, hplace⟩ := hkeeps d
      rw [attributesAhead_other hother, cookieGroups, if_neg hp]
      exact ih (hsame.trans hcookies) (hplace.trans hcursor) hrest

/-- As long as no cookie is open, nothing is said about one; then each group adds a cookie. -/
theorem putAll_closed : ∀ (properties : List Property) {d d' : Draft}, d.cursor = {} →
    d.putAll now properties = .ok d' →
      attributesAhead properties = [] ∧ ∃ added, MakesAll now (cookieGroups properties) added ∧
        d'.response.cookies = d.response.cookies ++ added := by
  intro properties
  induction properties with
  | nil =>
    intro d d' _ h
    rw [← Except.ok.inj h]
    exact ⟨rfl, [], .nil, (List.append_nil _).symm⟩
  | cons p rest ih =>
    intro d d' hcursor h
    obtain ⟨edit, hread, hrest⟩ := putAll_cons_eq_ok.mp h
    rcases cookies_cases hread with ⟨hp, rfl⟩ | ⟨-, -, hopen, -⟩ | ⟨hp, hother, hkeeps⟩
    · obtain ⟨c', added, htakes, hmakes, hd⟩ := putAll_open rest rfl rfl hrest
      rw [attributesAhead_opening hp, cookieGroups, if_pos hp]
      exact ⟨rfl, c' :: added, .cons (CookieGroup.makes_of_takes htakes) hmakes, hd⟩
    · obtain ⟨place, hplace, -⟩ := hasCookie_iff.mp hopen
      rw [hcursor] at hplace
      cases hplace
    · obtain ⟨hsame, hplace⟩ := hkeeps d
      rw [attributesAhead_other hother, cookieGroups, if_neg hp, ← hsame]
      exact ih (hplace.trans hcursor) hrest

end Draft

/-! ## Whole files -/

/-- A section without its properties about cookies. -/
def withoutCookieProperties (s : Section) : Section :=
  { s with properties := s.properties.filter (!isCookieProperty ·) }

/-- A response without cookies. -/
def Response.withoutCookies (r : Response) : Response :=
  { r with cookies := [] }

section Sections

variable {now : Time.Instant}

/-- Default sections add their cookies behind those of the sections before them. -/
theorem Response.withAllDefaults_groups : ∀ (sections : List Section)
    {fallback fallback' : Option Response}, withAllDefaults now fallback sections = .ok fallback' →
      (∀ s ∈ sections, attributesAhead s.properties = []) ∧ ∃ added,
        List.Forall₂ (fun s cookies => MakesAll now (cookieGroups s.properties) cookies) sections added ∧
          (fallback'.getD {}).cookies = (fallback.getD {}).cookies ++ added.flatten := by
  intro sections
  induction sections with
  | nil =>
    intro fallback fallback' h
    rw [← Except.ok.inj h]
    exact ⟨fun s hs => absurd hs List.not_mem_nil, [], .nil, (List.append_nil _).symm⟩
  | cons s rest ih =>
    intro fallback fallback' h
    obtain ⟨response, hresponse, hrest⟩ := bind_eq_ok.mp h
    obtain ⟨d, hd, rfl⟩ := withDefaults_eq_ok hresponse
    obtain ⟨hstray, own, hown, hcookies⟩ := Draft.putAll_closed s.properties rfl hd
    obtain ⟨hstrays, added, hadded, hlater⟩ := ih hrest
    refine ⟨List.forall_mem_cons.mpr ⟨hstray, hstrays⟩, own :: added, .cons hown hadded, ?_⟩
    rw [hlater, Option.getD_some, hcookies, List.append_assoc, List.flatten_cons]

theorem Response.withAllDefaults_withoutCookies : ∀ (sections : List Section)
    {fallback fallback' : Option Response}, withAllDefaults now fallback sections = .ok fallback' →
      withAllDefaults now (fallback.map withoutCookies) (sections.map withoutCookieProperties) =
        .ok (fallback'.map withoutCookies) := by
  intro sections
  induction sections with
  | nil =>
    intro fallback fallback' h
    rw [← Except.ok.inj h]
    rfl
  | cons s rest ih =>
    intro fallback fallback' h
    obtain ⟨response, hresponse, hrest⟩ := bind_eq_ok.mp h
    obtain ⟨d, hd, rfl⟩ := withDefaults_eq_ok hresponse
    have hstart : Draft.withCookiesOf { response := fallback.getD {} } {} =
        { response := (fallback.map withoutCookies).getD {} } := by
      cases fallback <;> rfl
    have hown := Draft.putAll_withoutCookies hd
    rw [hstart] at hown
    exact bind_eq_ok.mpr ⟨d.response.withoutCookies, bind_eq_ok.mpr ⟨_, hown, rfl⟩, ih hrest⟩

/-- A behavior has one cookie for each group of its section. -/
theorem Behavior.ofSection_groups {s : Section} {b : Behavior} (h : ofSection now s = .ok b) :
    attributesAhead s.properties = [] ∧
      MakesAll now (cookieGroups s.properties) b.response.cookies := by
  obtain ⟨method, path, d, -, hd, rfl⟩ := ofSection_eq_ok h
  obtain ⟨hstray, own, hown, hsame⟩ := Draft.putAll_closed s.properties rfl hd
  rw [List.nil_append] at hsame
  exact ⟨hstray, hsame ▸ hown⟩

/-- A behavior without its cookies is that of the section without theirs. -/
theorem Behavior.ofSection_withoutCookies {s : Section} {b : Behavior} (h : ofSection now s = .ok b) :
    ofSection now (withoutCookieProperties s) =
      .ok { b with response := b.response.withoutCookies } := by
  obtain ⟨method, path, d, hroute, hd, rfl⟩ := ofSection_eq_ok h
  have hown := Draft.putAll_withoutCookies hd
  unfold ofSection withoutCookieProperties
  rw [hroute]
  exact bind_eq_ok.mpr ⟨_, hown, rfl⟩

end Sections

namespace BehaviorSet

variable {now : Time.Instant}

/-- A set without cookies. -/
def withoutCookies (set : BehaviorSet) : BehaviorSet where
  fallback := set.fallback.map (·.withoutCookies)
  behaviors := set.behaviors.map fun b => { b with response := b.response.withoutCookies }

/-- Where the cookies of a compiled set come from. -/
structure CookiesGrouped (now : Time.Instant) (sections : List Section) (set : BehaviorSet) :
    Prop where
  /-- A behavior has a cookie for each group of its section, in order. -/
  behaviors : List.Forall₂ (fun s b => MakesAll now (cookieGroups s.properties) b.response.cookies)
    (described sections) set.behaviors
  /-- The fallback has those of the groups of each default section, one section after the
  other. -/
  fallback : ∃ added,
    List.Forall₂ (fun s cookies => MakesAll now (cookieGroups s.properties) cookies)
      (defaults sections) added ∧ (set.fallback.getD {}).cookies = added.flatten
  /-- Everything else is as it is without the properties about cookies. -/
  others : compile now (sections.map withoutCookieProperties) = .ok set.withoutCookies

/-- What the properties about cookies do. -/
structure CookieLaw (now : Time.Instant) (sections : List Section) : Prop where
  /-- Nothing may be said about a cookie before the first name of a section. -/
  refused : ∀ s ∈ sections, attributesAhead s.properties ≠ [] → ∃ e, compile now sections = .error e
  grouped : ∀ {set}, compile now sections = .ok set → CookiesGrouped now sections set

/-- A section has the same part in a file without its properties about cookies. -/
theorem defaults_withoutCookieProperties (sections : List Section) :
    defaults (sections.map withoutCookieProperties) =
      (defaults sections).map withoutCookieProperties :=
  List.filter_map

theorem described_withoutCookieProperties (sections : List Section) :
    described (sections.map withoutCookieProperties) =
      (described sections).map withoutCookieProperties :=
  List.filter_map

/-- The properties about cookies matter for the cookies only. -/
theorem compile_withoutCookies {sections : List Section} {set : BehaviorSet}
    (h : compile now sections = .ok set) :
    compile now (sections.map withoutCookieProperties) = .ok set.withoutCookies := by
  obtain ⟨hfallback, hbehaviors⟩ := compile_eq_ok.mp h
  rw [compile_eq_ok, defaults_withoutCookieProperties, described_withoutCookieProperties]
  refine ⟨Response.withAllDefaults_withoutCookies _ hfallback, ?_⟩
  rw [withoutCookies, List.forall₂_map_left_iff, List.forall₂_map_right_iff]
  exact hbehaviors.imp fun _ _ hs => Behavior.ofSection_withoutCookies hs

/-- **Cookies are made group by group.** A file is refused if some section says anything about a
cookie before it gives a name. Otherwise each name makes one cookie, from what is said about
cookies up to the next one and from nothing else; the cookies of earlier default sections stay
as they are, and so does everything that is not about cookies. -/
theorem compile_cookieGroups (now : Time.Instant) (sections : List Section) :
    CookieLaw now sections := by
  have hall : ∀ {set}, compile now sections = .ok set →
      (∀ s ∈ sections, attributesAhead s.properties = []) ∧ CookiesGrouped now sections set := by
    intro set hset
    obtain ⟨hfallback, hbehaviors⟩ := compile_eq_ok.mp hset
    obtain ⟨hdefaults, added, hadded, hcookies⟩ := Response.withAllDefaults_groups _ hfallback
    obtain ⟨hdescribed, hgroups⟩ := (List.forall₂_and_left _ _).mp
      (hbehaviors.imp fun _ _ hb => Behavior.ofSection_groups hb)
    refine ⟨fun s hs => ?_, hgroups, ⟨added, hadded, hcookies⟩, compile_withoutCookies hset⟩
    by_cases hname : s.name = BehaviorFile.defaultName
    · exact hdefaults s (List.mem_filter.mpr ⟨hs, by simpa using hname⟩)
    · exact hdescribed s (List.mem_filter.mpr ⟨hs, by simpa using hname⟩)
  refine ⟨fun s hs hstray => ?_, fun hset => (hall hset).2⟩
  cases hset : compile now sections with
  | error e => exact ⟨e, rfl⟩
  | ok set => exact absurd ((hall hset).1 s hs) hstray

/-- Two cookies with a body among them; the second has two paths, of which the last one counts. -/
example :
    compile .epoch
      [⟨"GET /a", 1, [⟨"cookie.name", "c", 2⟩, ⟨"body", "x", 3⟩, ⟨"cookie.secure", "true", 4⟩,
        ⟨"cookie.name", "d", 5⟩, ⟨"cookie.path", "/", 6⟩, ⟨"cookie.path", "/b", 7⟩]⟩] =
      .ok { behaviors := [⟨.get, "/a", none,
        { body := some "x"
          cookies := [{ name := "c", secure := true }, { name := "d", path := some "/b" }] }⟩] } := by
  decide +kernel

end BehaviorSet

end StubServer
