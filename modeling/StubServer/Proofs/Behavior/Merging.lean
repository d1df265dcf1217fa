import Mathlib.Data.List.Forall2
import StubServer.Proofs.Behavior.Overlay
import StubServer.Proofs.BehaviorFile.Grouping

/-!
# Merging duplicates never breaks a file

A file that compiles with its duplicate sections kept apart also compiles with them merged,
and every merged behavior is made of those of its sections:

> `Joins`: cookies follow one another, a header has its last value, and so has each field
> that some section sets.

The argument goes section by section. Those of one name are laid on top of each other
(`unites_sections`), each by `atop_simulation`, and those named `default` resume where the
one before stopped (`withAllDefaults_merged`), which is what the compiler itself does with
them. `compile_eq_ok` says that nothing else matters for a whole set, so the two can be put
together in `compile_groupByName`.
-/

namespace StubServer

open BehaviorFile (Section collected groupByName names propertiesOf)

/-! ## Lists that correspond -/

/-- Lists that correspond do so where the first one has a property. -/
theorem forall₂_filter {α β : Type} {R : α → β → Prop} (p : α → Bool) {as : List α} {bs : List β}
    (h : List.Forall₂ R as bs) :
    List.Forall₂ R (as.filter p) (((as.zip bs).filter (p ·.1)).map (·.2)) := by
  induction h with
  | nil => exact List.Forall₂.nil
  | @cons a b as bs hab _ ih =>
    rw [List.zip_cons_cons, List.filter_cons, List.filter_cons]
    by_cases ha : p a = true
    · rw [if_pos ha, if_pos ha]
      exact List.Forall₂.cons hab ih
    · rw [if_neg ha, if_neg ha]
      exact ih

theorem exists_forall₂ {α β : Type} {R : α → β → Prop} : ∀ {as : List α},
    (∀ a ∈ as, ∃ b, R a b) → ∃ bs, List.Forall₂ R as bs
  | [], _ => ⟨[], List.Forall₂.nil⟩
  | a :: rest, h => by
    obtain ⟨b, hb⟩ := h a (List.mem_cons_self ..)
    obtain ⟨bs, hbs⟩ := exists_forall₂ fun a' ha' => h a' (List.mem_cons_of_mem _ ha')
    exact ⟨b :: bs, List.Forall₂.cons hb hbs⟩

/-! ## Behaviors in one -/

/-- The last of the values that are there. -/
def lastPresent {α : Type} (values : List (Option α)) : Option α :=
  (values.filterMap id).getLast?

theorem lastPresent_concat {α : Type} (values : List (Option α)) (value : Option α) :
    lastPresent (values ++ [value]) = value.or (lastPresent values) := by
  unfold lastPresent
  rw [List.filterMap_append]
  cases value with
  | none => exact congrArg List.getLast? (List.append_nil _)
  | some v => exact List.getLast?_concat

/-- A response and a repetition count have what the behaviors of a list have: their cookies
one after the other, and the last value of everything else. -/
structure Behavior.Unites (parts : List Behavior) (repetitions : Option Nat)
    (response : Response) : Prop where
  status : response.status = lastPresent (parts.map (·.response.status))
  body : response.body = lastPresent (parts.map (·.response.body))
  delay : response.delay = lastPresent (parts.map (·.response.delay))
  headers : ∀ name, response.header? name = lastPresent (parts.map (·.response.header? name))
  cookies : response.cookies = parts.flatMap (·.response.cookies)
  redirect : response.redirect = lastPresent (parts.map (·.response.redirect))
  repetitions : repetitions = lastPresent (parts.map (·.repetitions))

namespace Behavior

theorem unites_nil : Unites [] none {} :=
  ⟨rfl, rfl, rfl, fun _ => rfl, rfl, rfl, rfl⟩

/-- A section on top of those before is one more part. -/
theorem Unites.concat {parts : List Behavior} {base own d : Draft}
    (h : Unites parts base.repetitions base.response) (hatop : Draft.Atop base own d)
    (method : Http.Method) (path : String) :
    Unites (parts ++ [⟨method, path, own.repetitions, own.response⟩]) d.repetitions d.response := by
  refine ⟨?_, ?_, ?_, fun name => ?_, ?_, ?_, ?_⟩
  · rw [List.map_append, List.map_singleton, lastPresent_concat, hatop.status, h.status]
  · rw [List.map_append, List.map_singleton, lastPresent_concat, hatop.body, h.body]
  · rw [List.map_append, List.map_singleton, lastPresent_concat, hatop.delay, h.delay]
  · rw [List.map_append, List.map_singleton, lastPresent_concat, hatop.headers, h.headers]
  · rw [List.flatMap_append, List.flatMap_singleton, hatop.cookies, h.cookies]
  · rw [List.map_append, List.map_singleton, lastPresent_concat, hatop.redirect, h.redirect]
  · rw [List.map_append, List.map_singleton, lastPresent_concat, hatop.repetitions, h.repetitions]

/-- The properties of several sections, one after the other, unite the behaviors that the
sections describe. -/
theorem unites_sections {now : Time.Instant} {sections : List Section} {behaviors : List Behavior}
    (h : List.Forall₂ (fun s b => ofSection now s = .ok b) sections behaviors) :
    ∀ {parts : List Behavior} {d : Draft}, Unites parts d.repetitions d.response →
      ∃ d', d.putAll now (propertiesOf sections) = .ok d' ∧
        Unites (parts ++ behaviors) d'.repetitions d'.response := by
  induction h with
  | nil =>
    intro parts d hd
    exact ⟨d, rfl, by rw [List.append_nil]; exact hd⟩
  | @cons s b rest behaviors hs _ ih =>
    intro parts d hd
    obtain ⟨method, path, own, -, hown, rfl⟩ := ofSection_eq_ok hs
    -- the section filled an empty draft, and fills the one with those before it as well
    obtain ⟨next, hnext, hatop⟩ :=
      (Draft.atop_simulation d).putAll s.properties (Draft.atop_empty d) hown
    obtain ⟨d', hd', hunites⟩ := ih (hd.concat hatop method path)
    refine ⟨d', (Draft.putAll_append _ _ d).trans (bind_eq_ok.mpr ⟨next, hnext, hd'⟩), ?_⟩
    rw [List.append_assoc] at hunites
    exact hunites

end Behavior

/-! ## Default sections -/

/-- The fallback after a list of default sections. -/
def Response.withAllDefaults (now : Time.Instant) (fallback : Option Response) :
    List Section → Except CompileError (Option Response)
  | [] => .ok fallback
  | s :: rest => do
    let response ← Response.withDefaults now fallback s
    Response.withAllDefaults now (some response) rest

/-- Several default sections do what one does that has the properties of all of them. -/
theorem Response.withAllDefaults_merged {now : Time.Instant} : ∀ (sections : List Section)
    {fallback fallback' : Option Response} {d : Draft}, d.response = fallback.getD {} →
      withAllDefaults now fallback sections = .ok fallback' →
        ∃ d', d.putAll now (propertiesOf sections) = .ok d' ∧ d'.response = fallback'.getD {} ∧
          (sections ≠ [] → fallback'.isSome = true) := by
  intro sections
  induction sections with
  | nil =>
    intro fallback fallback' d hd h
    rw [← Except.ok.inj h]
    exact ⟨d, rfl, hd, fun hne => absurd rfl hne⟩
  | cons s rest ih =>
    intro fallback fallback' d hd h
    obtain ⟨response, hresponse, hrest⟩ := bind_eq_ok.mp h
    obtain ⟨own, hown, rfl⟩ := withDefaults_eq_ok hresponse
    -- the section starts without an open cookie, which is less than what the draft may have
    have hresumes : Draft.Resumes { response := fallback.getD {} } d :=
      ⟨hd, fun place hplace => by cases hplace⟩
    obtain ⟨next, hnext, hsame⟩ := Draft.resumes_simulation.putAll s.properties hresumes hown
    obtain ⟨d', hd', hd'response, hsome⟩ := ih hsame.response hrest
    refine ⟨d', (Draft.putAll_append _ _ d).trans (bind_eq_ok.mpr ⟨next, hnext, hd'⟩), hd'response,
      fun _ => ?_⟩
    by_cases hrest' : rest = []
    · subst hrest'
      rw [← Except.ok.inj hrest]
      rfl
    · exact hsome hrest'

/-! ## Sets -/

namespace BehaviorSet

variable {now : Time.Instant}

/-- The sections that describe the fallback. -/
def defaults (sections : List Section) : List Section :=
  sections.filter (·.name == BehaviorFile.defaultName)

theorem defaults_cons_of_eq {s : Section} (h : s.name = BehaviorFile.defaultName)
    (rest : List Section) : defaults (s :: rest) = s :: defaults rest ∧
      described (s :: rest) = described rest :=
  ⟨List.filter_cons_of_pos (by simp [h]), List.filter_cons_of_neg (by simp [h])⟩

theorem defaults_cons_of_ne {s : Section} (h : s.name ≠ BehaviorFile.defaultName)
    (rest : List Section) : defaults (s :: rest) = defaults rest ∧
      described (s :: rest) = s :: described rest :=
  ⟨List.filter_cons_of_neg (by simp [h]), List.filter_cons_of_pos (by simp [h])⟩

/-- A list of sections adds the behaviors that they describe and goes on with the fallback. -/
theorem addAll_eq_ok : ∀ (sections : List Section) {set set' : BehaviorSet},
    set.addAll now sections = .ok set' ↔
      Response.withAllDefaults now set.fallback (defaults sections) = .ok set'.fallback ∧
        ∃ behaviors, List.Forall₂ (fun s b => Behavior.ofSection now s = .ok b)
          (described sections) behaviors ∧ set'.behaviors = set.behaviors ++ behaviors := by
  intro sections
  induction sections with
  | nil =>
    intro set set'
    constructor
    · intro h
      rw [← Except.ok.inj h]
      exact ⟨rfl, [], List.Forall₂.nil, (List.append_nil _).symm⟩
    · rintro ⟨hfallback, behaviors, hnil, hbehaviors⟩
      rw [List.forall₂_nil_left_iff.mp hnil, List.append_nil] at hbehaviors
      obtain ⟨fallback, old⟩ := set
      obtain ⟨fallback', new⟩ := set'
      obtain rfl : fallback = fallback' := Except.ok.inj hfallback
      obtain rfl : new = old := hbehaviors
      rfl
  | cons s rest ih =>
    intro set set'
    rw [addAll, bind_eq_ok]
    unfold add
    by_cases hname : s.name = BehaviorFile.defaultName
    · -- a default section: the fallback moves on, the behaviors stay
      obtain ⟨hdefaults, hdescribed⟩ := defaults_cons_of_eq hname rest
      rw [hdefaults, hdescribed, Response.withAllDefaults, bind_eq_ok, if_pos hname]
      constructor
      · rintro ⟨next, hnext, hrest⟩
        obtain ⟨r, hr, hset⟩ := bind_eq_ok.mp hnext
        obtain ⟨hfallback, hbehaviors⟩ := ih.mp hrest
        rw [← Except.ok.inj hset] at hfallback hbehaviors
        exact ⟨⟨r, hr, hfallback⟩, hbehaviors⟩
      · rintro ⟨⟨r, hr, hfallback⟩, hbehaviors⟩
        exact ⟨_, bind_eq_ok.mpr ⟨r, hr, rfl⟩, ih.mpr ⟨hfallback, hbehaviors⟩⟩
    · -- any other section: its behavior comes right after those there are
      obtain ⟨hdefaults, hdescribed⟩ := defaults_cons_of_ne hname rest
      rw [hdefaults, hdescribed, if_neg hname]
      constructor
      · rintro ⟨next, hnext, hrest⟩
        obtain ⟨b, hb, hset⟩ := bind_eq_ok.mp hnext
        obtain ⟨hfallback, behaviors, hall, hbehaviors⟩ := ih.mp hrest
        rw [← Except.ok.inj hset] at hfallback hbehaviors
        refine ⟨hfallback, b :: behaviors, List.Forall₂.cons hb hall, ?_⟩
        rw [hbehaviors, List.append_assoc]
        rfl
      · rintro ⟨hfallback, behaviors, hall, hbehaviors⟩
        obtain ⟨b, later, hb, hlater, rfl⟩ := List.forall₂_cons_left_iff.mp hall
        refine ⟨_, bind_eq_ok.mpr ⟨b, hb, rfl⟩, ih.mpr ⟨hfallback, later, hlater, ?_⟩⟩
        rw [hbehaviors, List.append_assoc]
        rfl

/-- **What a set is made of**: the fallback that the default sections describe one after the
other, and a behavior for each other section. -/
theorem compile_eq_ok {sections : List Section} {set : BehaviorSet} :
    compile now sections = .ok set ↔
      Response.withAllDefaults now none (defaults sections) = .ok set.fallback ∧
        List.Forall₂ (fun s b => Behavior.ofSection now s = .ok b)
          (described sections) set.behaviors := by
  unfold compile
  rw [addAll_eq_ok]
  constructor
  · rintro ⟨hfallback, behaviors, hall, hbehaviors⟩
    rw [hbehaviors]
    exact ⟨hfallback, hall⟩
  · rintro ⟨hfallback, hall⟩
    exact ⟨hfallback, set.behaviors, hall, rfl⟩

/-! ## Namesakes -/

/-- The behaviors of the sections of one name. -/
def namesakes (sections : List Section) (behaviors : List Behavior) (name : String) :
    List Behavior :=
  (((described sections).zip behaviors).filter (·.1.name == name)).map (·.2)

/-- The sections of a name that is not `default` all describe behaviors. -/
theorem described_filter {name : String} (hname : name ≠ BehaviorFile.defaultName)
    (sections : List Section) :
    (described sections).filter (·.name == name) = sections.filter (·.name == name) := by
  unfold described
  rw [List.filter_filter]
  refine List.filter_congr fun s _ => ?_
  by_cases hs : s.name = name
  · rw [hs]
    simp [hname]
  · simp [hs]

end BehaviorSet

/-- One behavior for all sections of a name: it answers where each of theirs does, and what
it says is made of what they say. -/
structure Behavior.Joins (sections : List Section) (parts : List Behavior) (whole : Behavior) :
    Prop extends Unites parts whole.repetitions whole.response where
  nonempty : parts ≠ []
  route : ∀ part ∈ parts, part.method = whole.method ∧ part.path = whole.path
  /-- No header occurs twice, so that `headers` says all about the table. -/
  distinct : whole.response.headers.Pairwise (·.1 < ·.1)
  stream : whole.response.stream = (Draft.lastStream (propertiesOf sections)).getD false

namespace Behavior

variable {now : Time.Instant} {sections : List Section} {behaviors : List Behavior}

/-- Behaviors answer where the name of their sections says. -/
theorem route_of_sections {name path : String} {method : Http.Method}
    (hroute : routeOf name = .ok (method, path))
    (h : List.Forall₂ (fun s b => ofSection now s = .ok b) sections behaviors) :
    (∀ s ∈ sections, s.name = name) → ∀ b ∈ behaviors, b.method = method ∧ b.path = path := by
  induction h with
  | nil => intro _ b hb; exact absurd hb (by simp)
  | @cons s b rest behaviors hs _ ih =>
    intro hnames b' hb'
    rcases List.mem_cons.mp hb' with rfl | hlater
    · obtain ⟨method', path', d, hroute', -, rfl⟩ := ofSection_eq_ok hs
      rw [hnames s (List.mem_cons_self ..), hroute] at hroute'
      obtain ⟨rfl, rfl⟩ := Prod.mk.inj (Except.ok.inj hroute')
      exact ⟨rfl, rfl⟩
    · exact ih (fun t ht => hnames t (List.mem_cons_of_mem _ ht)) b' hlater

/-- A section that has the properties of all sections of its name describes the behavior that
joins theirs. -/
theorem ofSection_joins {s : Section} (hne : sections ≠ []) (hnames : ∀ t ∈ sections, t.name = s.name)
    (hproperties : s.properties = propertiesOf sections)
    (h : List.Forall₂ (fun t b => ofSection now t = .ok b) sections behaviors) :
    ∃ whole, ofSection now s = .ok whole ∧ Joins sections behaviors whole := by
  obtain ⟨d, hd, hunites⟩ := unites_sections h (d := {}) unites_nil
  -- the first section tells the route, and all others have its name
  obtain ⟨first, rest, rfl⟩ := List.exists_cons_of_ne_nil hne
  obtain ⟨b, later, hb, -, rfl⟩ := List.forall₂_cons_left_iff.mp h
  obtain ⟨method, path, -, hroute, -, -⟩ := ofSection_eq_ok hb
  rw [hnames first (List.mem_cons_self ..)] at hroute
  refine ⟨⟨method, path, d.repetitions, d.response⟩, ?_, ?_⟩
  · unfold ofSection
    rw [hroute, hproperties]
    exact bind_eq_ok.mpr ⟨d, hd, rfl⟩
  · refine ⟨hunites, List.cons_ne_nil _ _, route_of_sections hroute h hnames, ?_, ?_⟩
    · exact Draft.putAll_increasing _ List.Pairwise.nil hd
    · exact Draft.putAll_stream _ hd

end Behavior

/-! ## Whole files -/

namespace BehaviorSet

variable {now : Time.Instant}

/-- What the set of a file with duplicates merged is to that of its sections kept apart. -/
structure Merges (now : Time.Instant) (sections : List Section) (set whole : BehaviorSet) :
    Prop where
  /-- Kept apart, the sections have a behavior each. -/
  apart : List.Forall₂ (fun s b => Behavior.ofSection now s = .ok b)
    (described sections) set.behaviors
  fallback : whole.fallback = set.fallback
  /-- Merged, they have one for each name, in the order of first occurrence. -/
  behaviors : List.Forall₂
    (fun name b => Behavior.Joins (sections.filter (·.name == name))
      (namesakes sections set.behaviors name) b)
    (names (described sections)).eraseDups whole.behaviors

/-- The group of the default sections describes the same fallback as they do in turn. -/
theorem defaults_groupByName {sections : List Section} {fallback : Option Response}
    (h : Response.withAllDefaults now none (defaults sections) = .ok fallback) :
    Response.withAllDefaults now none (defaults (groupByName sections)) = .ok fallback := by
  have hgroups := BehaviorFile.groupByName_filter (· == BehaviorFile.defaultName) sections
  have hall : ∀ s ∈ defaults sections, s.name = BehaviorFile.defaultName := by
    intro s hs
    simpa using (List.mem_filter.mp hs).2
  unfold defaults at h hall ⊢
  rw [hgroups]
  cases hdefaults : sections.filter (·.name == BehaviorFile.defaultName) with
  | nil =>
    rw [hdefaults] at h
    exact h
  | cons s rest =>
    -- there is one group, and it has the properties of all default sections
    rw [hdefaults] at hall
    have hothers : (names rest).filter (fun name => !name == s.name) = [] := by
      refine List.filter_eq_nil_iff.mpr fun name hname => ?_
      obtain ⟨t, ht, rfl⟩ := List.mem_map.mp hname
      simp [hall t (List.mem_cons_of_mem _ ht), hall s (List.mem_cons_self ..)]
    have hone : (names (s :: rest)).eraseDups = [BehaviorFile.defaultName] := by
      show (s.name :: names rest).eraseDups = _
      rw [List.eraseDups_cons, hothers, hall s (List.mem_cons_self ..)]
      rfl
    have hproperties : (collected sections BehaviorFile.defaultName).properties =
        propertiesOf (s :: rest) := by rw [← hdefaults]; rfl
    obtain ⟨d, hd, hresponse, hsome⟩ :=
      Response.withAllDefaults_merged _ (d := {}) rfl h
    obtain ⟨r, rfl⟩ := Option.isSome_iff_exists.mp (hsome (by rw [hdefaults]; simp))
    rw [hone, List.map_singleton]
    refine bind_eq_ok.mpr ⟨r, bind_eq_ok.mpr ⟨d, ?_, congrArg Except.ok hresponse⟩, rfl⟩
    rw [hproperties, ← hdefaults]
    exact hd

/-- Grouping the sections of a file that compiles merges its behaviors. -/
theorem compile_groupByName {sections : List Section} {set : BehaviorSet}
    (h : compile now sections = .ok set) :
    ∃ whole, compile now (groupByName sections) = .ok whole ∧ Merges now sections set whole := by
  obtain ⟨hfallback, hbehaviors⟩ := compile_eq_ok.mp h
  -- each name has a behavior, which joins those of its sections
  have hjoins : ∀ name ∈ (names (described sections)).eraseDups, ∃ b,
      Behavior.ofSection now (collected sections name) = .ok b ∧
        Behavior.Joins (sections.filter (·.name == name))
          (namesakes sections set.behaviors name) b := by
    intro name hname
    obtain ⟨s, hs, rfl⟩ := List.mem_map.mp (List.mem_eraseDups.mp hname)
    obtain ⟨hmem, hdefault⟩ := List.mem_filter.mp hs
    have hparts := forall₂_filter (·.name == s.name) hbehaviors
    rw [described_filter (by simpa using hdefault)] at hparts
    refine Behavior.ofSection_joins ?_ ?_ rfl hparts
    · exact List.ne_nil_of_mem (List.mem_filter.mpr ⟨hmem, by simp⟩)
    · intro t ht
      simpa using (List.mem_filter.mp ht).2
  obtain ⟨behaviors, hall⟩ := exists_forall₂ hjoins
  refine ⟨⟨set.fallback, behaviors⟩, ?_, hbehaviors, rfl, hall.imp fun _ _ hb => hb.2⟩
  -- the groups that describe behaviors are those of the names above
  refine compile_eq_ok.mpr ⟨defaults_groupByName hfallback, ?_⟩
  have hgroups := BehaviorFile.groupByName_filter (· != BehaviorFile.defaultName) sections
  unfold described
  rw [hgroups]
  exact List.forall₂_map_left_iff.mpr (hall.imp fun _ _ hb => hb.1)

/-- **Merging duplicates never breaks a file.** A text that compiles with its duplicate
sections kept apart compiles with them merged, to a set with the same fallback and with one
behavior for each name, made of those of its sections. -/
theorem compile_merged {now : Time.Instant} {text : String} {sections : List Section}
    {set : BehaviorSet} (hread : BehaviorFile.ofText .keepApart text = .ok sections)
    (hset : compile now sections = .ok set) :
    ∃ merged whole, BehaviorFile.ofText .merge text = .ok merged ∧
      compile now merged = .ok whole ∧ Merges now sections set whole := by
  obtain ⟨whole, hwhole, hmerges⟩ := compile_groupByName hset
  refine ⟨groupByName sections, whole, ?_, hwhole, hmerges⟩
  show BehaviorFile.ofLines .merge _ = _
  rw [BehaviorFile.ofLines_merge]
  exact map_eq_ok.mpr ⟨sections, hread, rfl⟩

/-- A file with two sections of one name around a default section. -/
theorem compile_merged_around_default :
    ∃ merged whole,
      BehaviorFile.ofText .merge
          "[GET /a]\ncookie.name=c\nrepeat=1\n[default]\nbody=no\n[GET /a]\ncookie.name=d\nstream=true" =
        .ok merged ∧
      compile .epoch merged = .ok whole ∧
      Merges .epoch
        [⟨"default", 0, []⟩, ⟨"GET /a", 1, [⟨"cookie.name", "c", 2⟩, ⟨"repeat", "1", 3⟩]⟩,
          ⟨"default", 4, [⟨"body", "no", 5⟩]⟩,
          ⟨"GET /a", 6, [⟨"cookie.name", "d", 7⟩, ⟨"stream", "true", 8⟩]⟩]
        { fallback := some { body := some "no" }
          behaviors := [⟨.get, "/a", some 1, { cookies := [{ name := "c" }] }⟩,
            ⟨.get, "/a", none, { cookies := [{ name := "d" }], stream := true }⟩] }
        whole :=
  compile_merged (by decide +kernel) (by decide +kernel)

end BehaviorSet

end StubServer
