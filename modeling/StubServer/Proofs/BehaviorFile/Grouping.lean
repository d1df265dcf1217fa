import Mathlib.Data.List.Flatten
import Mathlib.Data.List.Induction
import Mathlib.Data.List.Nodup
import StubServer.BehaviorFile.Written
import StubServer.Proofs.BehaviorFile.Reading

/-!
# Merging is grouping by name

With the policy `merge` a header may send the reader back to an earlier section; with
`keepApart` it never does. The two readers are run side by side here, over any lines, and
one relation holds them together:

> `Mirrors`: the merging draft has the sections of the other one grouped by name, and both
> fill a section of the same name.

The second half is what makes the errors agree, since the error of a property without a key
names the section being filled. `groupByName_eq` says what grouping is without a recursion:
the distinct names in the order of their first occurrence, each with the line of its first
section and the properties of all of them. Together they give `ofLines_merge`, and with the
order of the lines (`InOrder`) the law of the two policies, `ofText_policies`.
-/

namespace StubServer.BehaviorFile

/-! ## Distinct names -/

/-- A new element counts only if it is not there already. -/
theorem eraseDups_concat (l : List String) (a : String) :
    (l ++ [a]).eraseDups = if a ∈ l then l.eraseDups else l.eraseDups ++ [a] := by
  rw [List.eraseDups_append]
  by_cases h : a ∈ l
  · rw [if_pos h]
    have hgone : [a].removeAll l = [] := by simp [List.removeAll, h]
    rw [hgone, List.eraseDups_nil, List.append_nil]
  · rw [if_neg h]
    have hstays : [a].removeAll l = [a] := by simp [List.removeAll, h]
    rw [hstays, List.eraseDups_cons]
    rfl

theorem eraseDups_nodup (l : List String) : l.eraseDups.Nodup := by
  induction l using List.reverseRecOn with
  | nil => exact List.nodup_nil
  | append_singleton l a ih =>
    rw [eraseDups_concat]
    split
    next => exact ih
    next h =>
      refine List.nodup_append.mpr ⟨ih, List.nodup_singleton a, ?_⟩
      intro b hb c hc he
      rw [List.mem_singleton.mp hc] at he
      exact h (he ▸ List.mem_eraseDups.mp hb)

/-- Some of the distinct elements are the distinct ones among some. -/
theorem eraseDups_filter (p : String → Bool) (l : List String) :
    (l.filter p).eraseDups = l.eraseDups.filter p := by
  induction l using List.reverseRecOn with
  | nil => rfl
  | append_singleton l a ih =>
    rw [List.filter_append, eraseDups_concat]
    by_cases ha : p a = true
    · rw [List.filter_cons_of_pos ha, List.filter_nil, eraseDups_concat, ih]
      by_cases hmem : a ∈ l
      · rw [if_pos hmem, if_pos (List.mem_filter.mpr ⟨hmem, ha⟩)]
      · rw [if_neg hmem, if_neg (fun h => hmem (List.mem_filter.mp h).1), List.filter_append,
          List.filter_cons_of_pos ha, List.filter_nil]
    · rw [List.filter_cons_of_neg ha, List.filter_nil, List.append_nil, ih]
      split
      next => rfl
      next => rw [List.filter_append, List.filter_cons_of_neg ha, List.filter_nil, List.append_nil]

/-! ## Groups -/

/-- The names of sections. -/
def names (sections : List Section) : List String :=
  sections.map (·.name)

/-- All sections of a name in one: the line of the first, the properties of all. -/
def collected (sections : List Section) (name : String) : Section where
  name := name
  line := ((sections.find? (·.name == name)).map (·.line)).getD 0
  properties := (sections.filter (·.name == name)).flatMap (·.properties)

@[simp] theorem collected_name (sections : List Section) (name : String) :
    (collected sections name).name = name := rfl

section Groups

variable {sections : List Section} {s : Section}

/-- Another section means nothing to the names that it does not have. -/
theorem collected_concat_ne {name : String} (h : s.name ≠ name) :
    collected (sections ++ [s]) name = collected sections name := by
  have hfind : [s].find? (·.name == name) = none := by simp [h]
  have hfilter : [s].filter (·.name == name) = [] := by simp [h]
  unfold collected
  rw [List.find?_append, hfind, Option.or_none, List.filter_append, hfilter, List.append_nil]

/-- Another section adds its properties to those of its name. -/
theorem collected_concat_mem (h : s.name ∈ names sections) :
    collected (sections ++ [s]) s.name =
      { collected sections s.name with
        properties := (collected sections s.name).properties ++ s.properties } := by
  have hfirst : (sections.find? (·.name == s.name)).isSome = true := by
    obtain ⟨t, ht, hname⟩ := List.mem_map.mp h
    exact List.find?_isSome.mpr ⟨t, ht, by simpa using hname⟩
  have hfind : (sections ++ [s]).find? (·.name == s.name) = sections.find? (·.name == s.name) := by
    rw [List.find?_append, Option.or_of_isSome hfirst]
  have hfilter : [s].filter (·.name == s.name) = [s] := by simp
  unfold collected
  rw [hfind, List.filter_append, hfilter, List.flatMap_append, List.flatMap_singleton]

/-- The first section of a name is the group so far. -/
theorem collected_concat_new (h : s.name ∉ names sections) :
    collected (sections ++ [s]) s.name = s := by
  have hnone : ∀ t ∈ sections, ¬(t.name == s.name) = true := by
    intro t ht he
    exact h (List.mem_map.mpr ⟨t, ht, by simpa using he⟩)
  have hfind : (sections ++ [s]).find? (·.name == s.name) = some s := by
    rw [List.find?_append, List.find?_eq_none.mpr hnone]
    simp
  have hfilter : (sections ++ [s]).filter (·.name == s.name) = [s] := by
    rw [List.filter_append, List.filter_eq_nil_iff.mpr hnone]
    simp
  unfold collected
  rw [hfind, hfilter, List.flatMap_singleton]
  rfl

/-- A section joins the group of its name, if there is one. -/
theorem join_collected (h : s.name ∈ names sections) :
    ∀ {distinct : List String}, distinct.Nodup → s.name ∈ distinct →
      join (distinct.map (collected sections)) s =
        distinct.map (collected (sections ++ [s])) := by
  intro distinct
  induction distinct with
  | nil => intro _ hmem; exact absurd hmem (by simp)
  | cons name rest ih =>
    intro hnodup hmem
    obtain ⟨hfirst, hrest⟩ := List.nodup_cons.mp hnodup
    rw [List.map_cons, List.map_cons, join]
    by_cases hname : name = s.name
    · -- the group is the first one, and no later group has its name
      subst hname
      rw [collected_name, if_pos rfl, collected_concat_mem h]
      congr 1
      refine List.map_congr_left fun other hother => (collected_concat_ne ?_).symm
      intro he
      exact hfirst (he ▸ hother)
    · rw [collected_name, if_neg hname, collected_concat_ne (fun he => hname he.symm)]
      congr 1
      refine ih hrest ?_
      rcases List.mem_cons.mp hmem with he | hlater
      · exact absurd he.symm hname
      · exact hlater

/-- A section that finds the group of its name leaves its properties there. -/
theorem join_found (group s : Section) {before after : List Section}
    (hbefore : ∀ t ∈ before, t.name ≠ s.name) (hgroup : group.name = s.name) :
    join (before ++ group :: after) s =
      before ++ { group with properties := group.properties ++ s.properties } :: after := by
  induction before with
  | nil => rw [List.nil_append, List.nil_append, join, if_pos hgroup]
  | cons t rest ih =>
    rw [List.cons_append, List.cons_append, join, if_neg (hbefore t (List.mem_cons_self ..)),
      ih (fun u hu => hbefore u (List.mem_cons_of_mem _ hu))]

/-- A section that finds no group of its name starts one at the end. -/
theorem join_new : ∀ {groups : List Section}, s.name ∉ names groups → join groups s = groups ++ [s]
  | [], _ => rfl
  | t :: rest, h => by
    obtain ⟨hfirst, hrest⟩ := not_or.mp (fun hmem => h (List.mem_cons.mpr hmem))
    rw [join, if_neg (fun he => hfirst he.symm), join_new hrest]
    rfl

/-- Properties may join later than the section that they belong to. -/
theorem join_join (line : Nat) (properties : List Property) : ∀ (groups : List Section),
    join (join groups s) ⟨s.name, line, properties⟩ =
      join groups { s with properties := s.properties ++ properties }
  | [] => if_pos rfl
  | t :: rest => by
    by_cases h : t.name = s.name
    · rw [join, if_pos h, join, if_pos h, join, if_pos h, List.append_assoc]
    · rw [join, if_neg h, join, if_neg h, join, if_neg h, join_join line properties rest]

theorem groupByName_concat : groupByName (sections ++ [s]) = join (groupByName sections) s := by
  unfold groupByName
  rw [List.foldl_append]
  rfl

/-- **What grouping is**: each distinct name, in the order of first occurrence, with all
that its sections have. -/
theorem groupByName_eq (sections : List Section) :
    groupByName sections = (names sections).eraseDups.map (collected sections) := by
  induction sections using List.reverseRecOn with
  | nil => rfl
  | append_singleton sections s ih =>
    have hnames : names (sections ++ [s]) = names sections ++ [s.name] := by
      unfold names
      rw [List.map_append]
      rfl
    rw [groupByName_concat, ih, hnames, eraseDups_concat]
    by_cases h : s.name ∈ names sections
    · rw [if_pos h]
      exact join_collected h (eraseDups_nodup _) (List.mem_eraseDups.mpr h)
    · rw [if_neg h, List.map_append, List.map_singleton, collected_concat_new h, join_new]
      · congr 1
        refine List.map_congr_left fun name hname => (collected_concat_ne ?_).symm
        intro he
        exact h (he ▸ List.mem_eraseDups.mp hname)
      · intro hmem
        obtain ⟨t, ht, hname⟩ := List.mem_map.mp hmem
        obtain ⟨name, hmem', rfl⟩ := List.mem_map.mp ht
        exact h (hname ▸ List.mem_eraseDups.mp hmem')

/-- The groups of some names are those of the sections with these names. -/
theorem groupByName_filter (p : String → Bool) (sections : List Section) :
    (groupByName sections).filter (p ·.name) =
      (names (sections.filter (p ·.name))).eraseDups.map (collected sections) := by
  have hnames : names (sections.filter (p ·.name)) = (names sections).filter p :=
    List.filter_map.symm
  rw [groupByName_eq, List.filter_map, hnames, eraseDups_filter]
  rfl

theorem names_groupByName (sections : List Section) :
    names (groupByName sections) = (names sections).eraseDups := by
  rw [groupByName_eq]
  unfold names
  rw [List.map_map]
  exact List.map_id _

end Groups

/-! ## Two readers side by side -/

/-- Two outcomes agree: both are results, and these are in a relation, or both are the
same error. -/
def Agree {ε α β : Type} (R : α → β → Prop) : Except ε α → Except ε β → Prop
  | .ok a, .ok b => R a b
  | .error e, .error e' => e = e'
  | _, _ => False

theorem Agree.bind {ε α β α' β' : Type} {R : α → β → Prop} {R' : α' → β' → Prop}
    {x : Except ε α} {y : Except ε β} {f : α → Except ε α'} {g : β → Except ε β'}
    (h : Agree R x y) (hnext : ∀ a b, R a b → Agree R' (f a) (g b)) :
    Agree R' (x >>= f) (y >>= g) := by
  cases x with
  | ok a =>
    cases y with
    | ok b => exact hnext a b h
    | error e => exact h.elim
  | error e =>
    cases y with
    | ok b => exact h.elim
    | error e' => exact h

/-- The merging draft has the sections of the other draft grouped by name, and both fill a
section of the same name. -/
structure Mirrors (apart merged : Draft) : Prop where
  sections : merged.sections = groupByName apart.sections
  current : merged.current.name = apart.current.name
  /-- The section being filled is the first of its name. -/
  first : ∀ t ∈ merged.before, t.name ≠ merged.current.name
  /-- Without merging the section being filled is always the last one. -/
  last : apart.after = []

namespace Draft

theorem sections_of_last {d : Draft} (h : d.after = []) : d.sections = d.before ++ [d.current] := by
  unfold sections
  rw [h]

/-- A new property joins the group of the section being filled. -/
theorem put_sections {d : Draft} (h : ∀ t ∈ d.before, t.name ≠ d.current.name) (p : Property) :
    (d.put p).sections = join d.sections ⟨d.current.name, p.line, [p]⟩ :=
  (join_found d.current ⟨d.current.name, p.line, [p]⟩ h rfl).symm

/-- A return to a name is a section without properties that joins its group. -/
theorem returnTo_spec (d : Draft) (name : String) (line : Nat) :
    (d.returnTo name line).sections = join d.sections ⟨name, line, []⟩ ∧
      (d.returnTo name line).current.name = name ∧
      ∀ t ∈ (d.returnTo name line).before, t.name ≠ name := by
  have hsplit := List.takeWhile_append_dropWhile (p := (·.name != name)) (l := d.sections)
  have hbefore : ∀ t ∈ d.sections.takeWhile (·.name != name), t.name ≠ name := by
    intro t ht
    have := List.all_eq_true.mp List.all_takeWhile t ht
    simpa using this
  unfold returnTo
  split
  next hnone =>
    -- no section has the name, and all of them stand before the new one
    rw [hnone, List.append_nil] at hsplit
    rw [hsplit] at hbefore
    refine ⟨?_, rfl, hbefore⟩
    rw [join_new]
    · rfl
    · intro hmem
      obtain ⟨t, ht, hname⟩ := List.mem_map.mp hmem
      exact hbefore t ht hname
  next found rest hfound =>
    have hname : found.name = name := by
      have := List.head?_dropWhile_not (·.name != name) d.sections
      rw [hfound] at this
      simpa using this
    refine ⟨?_, hname, hbefore⟩
    rw [hfound] at hsplit
    conv => rhs; rw [← hsplit, join_found _ _ hbefore hname, List.append_nil]
    rfl

end Draft

section Readers

variable {apart merged : Draft}

theorem mirrors_start : Mirrors .start .start := by
  refine ⟨rfl, rfl, ?_, rfl⟩
  intro t ht
  exact absurd ht (by simp [Draft.start])

theorem mirrors_put (h : Mirrors apart merged) (p : Property) :
    Mirrors (apart.put p) (merged.put p) := by
  have hsections : (apart.put p).sections =
      apart.before ++ [{ apart.current with properties := apart.current.properties ++ [p] }] :=
    Draft.sections_of_last h.last
  refine ⟨?_, h.current, h.first, h.last⟩
  rw [Draft.put_sections h.first, h.sections, h.current, Draft.sections_of_last h.last, hsections,
    groupByName_concat, groupByName_concat, join_join]

theorem mirrors_openSection (h : Mirrors apart merged) (name : String) (line : Nat) :
    Mirrors (apart.openSection .keepApart name line) (merged.openSection .merge name line) := by
  obtain ⟨hsections, hcurrent, hfirst⟩ := merged.returnTo_spec name line
  refine ⟨?_, hcurrent, ?_, rfl⟩
  · show (merged.returnTo name line).sections = groupByName (apart.sections ++ [⟨name, line, []⟩])
    rw [hsections, h.sections, groupByName_concat]
  · show ∀ t ∈ (merged.returnTo name line).before, t.name ≠ (merged.returnTo name line).current.name
    rw [hcurrent]
    exact hfirst

/-- One line: the drafts go on mirroring each other, or the line is a fault for both. -/
theorem mirrors_read (h : Mirrors apart merged) (number : Nat) (line : Line) :
    Agree Mirrors (apart.read .keepApart number line) (merged.read .merge number line) := by
  cases line with
  | skipped => exact h
  | header name =>
    simp only [Draft.read]
    by_cases hname : name.isEmpty = true
    · rw [if_pos hname, if_pos hname]
      exact rfl
    · rw [if_neg hname, if_neg hname]
      exact mirrors_openSection h name number
  | property key value =>
    simp only [Draft.read]
    by_cases hkey : key.isEmpty = true
    · rw [if_pos hkey, if_pos hkey, h.current]
      exact rfl
    · rw [if_neg hkey, if_neg hkey]
      exact mirrors_put h ⟨key, value, number⟩

/-- All lines. -/
theorem mirrors_readAll : ∀ (lines : List (Option (List Char))) {apart merged : Draft} (number : Nat),
    Mirrors apart merged →
      Agree Mirrors (apart.readAll .keepApart number lines) (merged.readAll .merge number lines)
  | [], _, _, _, h => h
  | none :: _, _, _, _, _ => rfl
  | some raw :: rest, _, _, number, h =>
    (mirrors_read h number (.ofText raw)).bind fun _ _ hnext =>
      mirrors_readAll rest (number + 1) hnext

/-- Merging while reading is grouping afterwards. -/
theorem ofLines_merge (lines : List (Option (List Char))) :
    ofLines .merge lines = (ofLines .keepApart lines).map groupByName := by
  have h := mirrors_readAll lines 1 mirrors_start
  unfold ofLines
  cases hapart : Draft.start.readAll .keepApart 1 lines with
  | ok apart =>
    cases hmerged : Draft.start.readAll .merge 1 lines with
    | ok merged =>
      rw [hapart, hmerged] at h
      exact congrArg Except.ok h.sections
    | error e =>
      rw [hapart, hmerged] at h
      exact h.elim
  | error e =>
    cases hmerged : Draft.start.readAll .merge 1 lines with
    | ok merged =>
      rw [hapart, hmerged] at h
      exact h.elim
    | error e' =>
      rw [hapart, hmerged] at h
      exact congrArg Except.error (Eq.symm h)

end Readers

/-! ## The order of the lines -/

/-- All properties, section after section. -/
def propertiesOf (sections : List Section) : List Property :=
  sections.flatMap (·.properties)

/-- A draft that never went back: the implicit section is the first, and the properties
stand in the order of their lines, all above a line number. -/
structure Draft.InOrder (d : Draft) (number : Nat) : Prop where
  last : d.after = []
  first : (d.sections.head?.map fun s => (s.name, s.line)) = some (defaultName, 0)
  lines : (propertiesOf d.sections).Pairwise (·.line < ·.line)
  above : ∀ p ∈ propertiesOf d.sections, p.line < number

namespace Draft.InOrder

variable {d d' : Draft} {number : Nat}

theorem start : Draft.start.InOrder 1 := by
  refine ⟨rfl, rfl, List.Pairwise.nil, ?_⟩
  intro p hp
  exact absurd hp (by simp [propertiesOf, Draft.sections, Draft.start])

theorem weaken (h : d.InOrder number) : d.InOrder (number + 1) :=
  ⟨h.last, h.first, h.lines, fun p hp => Nat.lt_succ_of_lt (h.above p hp)⟩

theorem append (h : d.InOrder number) (name : String) (line : Nat) :
    (d.append name line).InOrder number := by
  have hproperties : propertiesOf (d.append name line).sections = propertiesOf d.sections := by
    show propertiesOf (d.sections ++ [⟨name, line, []⟩]) = _
    unfold propertiesOf
    rw [List.flatMap_append, List.flatMap_singleton, List.append_nil]
  refine ⟨rfl, ?_, by rw [hproperties]; exact h.lines, by rw [hproperties]; exact h.above⟩
  show (d.sections ++ [(⟨name, line, []⟩ : Section)]).head?.map _ = _
  have hfirst := h.first
  cases hhead : d.sections.head? with
  | none => rw [hhead] at hfirst; cases hfirst
  | some s =>
    rw [hhead] at hfirst
    rw [List.head?_append, hhead]
    exact hfirst

theorem put (h : d.InOrder number) (key value : String) :
    (d.put ⟨key, value, number⟩).InOrder (number + 1) := by
  have hsections : (d.put ⟨key, value, number⟩).sections = d.before ++
      [{ d.current with properties := d.current.properties ++ [⟨key, value, number⟩] }] :=
    sections_of_last h.last
  have hproperties : propertiesOf (d.put ⟨key, value, number⟩).sections =
      propertiesOf d.sections ++ [⟨key, value, number⟩] := by
    rw [hsections, sections_of_last h.last]
    unfold propertiesOf
    rw [List.flatMap_append, List.flatMap_append, List.flatMap_singleton, List.flatMap_singleton,
      List.append_assoc]
  refine ⟨h.last, ?_, ?_, ?_⟩
  · have hfirst := h.first
    rw [sections_of_last h.last] at hfirst
    rw [hsections]
    cases hbefore : d.before with
    | nil => rw [hbefore] at hfirst; exact hfirst
    | cons s rest => rw [hbefore] at hfirst; exact hfirst
  · rw [hproperties]
    refine List.pairwise_append.mpr ⟨h.lines, List.pairwise_singleton _ _, ?_⟩
    intro p hp q hq
    rw [List.mem_singleton.mp hq]
    exact h.above p hp
  · intro p hp
    rw [hproperties] at hp
    rcases List.mem_append.mp hp with hold | hnew
    · exact Nat.lt_succ_of_lt (h.above p hold)
    · rw [List.mem_singleton.mp hnew]
      exact Nat.lt_succ_self number

theorem read (h : d.InOrder number) {line : Line}
    (hread : d.read .keepApart number line = .ok d') : d'.InOrder (number + 1) := by
  rcases Draft.read_eq_ok.mp hread with ⟨-, rfl⟩ | ⟨name, -, -, rfl⟩ | ⟨key, value, -, -, rfl⟩
  · exact h.weaken
  · exact (h.append name number).weaken
  · exact h.put key value

end Draft.InOrder

/-! ## The law of the two policies -/

/-- What the sections of a file with duplicates merged are to its sections kept apart. -/
structure Grouping (apart merged : List Section) : Prop where
  names : names merged = (names apart).eraseDups
  distinct : (BehaviorFile.names merged).Nodup
  /-- Both lists start with the implicit section. -/
  first : (apart.head?.map fun s => (s.name, s.line)) = some (defaultName, 0) ∧
    (merged.head?.map fun s => (s.name, s.line)) = some (defaultName, 0)
  /-- A section has the line of the first header of its name. -/
  line : ∀ s ∈ merged, (apart.find? (·.name == s.name)).map (·.line) = some s.line
  /-- A section has the properties of all sections of its name, one after the other. -/
  properties : ∀ s ∈ merged,
    s.properties = propertiesOf (apart.filter (·.name == s.name))
  /-- That is the order of their lines. -/
  lines : ∀ s ∈ merged, s.properties.Pairwise (·.line < ·.line)

theorem grouping_groupByName {apart : List Section}
    (hfirst : (apart.head?.map fun s => (s.name, s.line)) = some (defaultName, 0))
    (hlines : (propertiesOf apart).Pairwise (·.line < ·.line)) :
    Grouping apart (groupByName apart) := by
  have hgroup : ∀ s ∈ groupByName apart, s.name ∈ BehaviorFile.names apart ∧
      s = collected apart s.name := by
    intro s hs
    rw [groupByName_eq] at hs
    obtain ⟨name, hname, rfl⟩ := List.mem_map.mp hs
    exact ⟨List.mem_eraseDups.mp hname, rfl⟩
  refine ⟨names_groupByName apart, ?_, ⟨hfirst, ?_⟩, ?_, ?_, ?_⟩
  · rw [names_groupByName]
    exact eraseDups_nodup _
  · rw [groupByName_eq]
    cases apart with
    | nil => cases hfirst
    | cons s rest =>
      have hs : (s.name, s.line) = (defaultName, 0) := Option.some.inj hfirst
      have hcollected : (collected (s :: rest) s.name).line = s.line := by
        unfold collected
        rw [List.find?_cons_of_pos (by simp)]
        rfl
      show (((s.name :: BehaviorFile.names rest).eraseDups.map _).head?.map _) = _
      rw [List.eraseDups_cons, List.map_cons, List.head?_cons, Option.map_some, hcollected]
      exact congrArg some hs
  · intro s hs
    obtain ⟨hname, hcollected⟩ := hgroup s hs
    obtain ⟨t, ht, hsame⟩ := List.mem_map.mp hname
    have hfound : (apart.find? (·.name == s.name)).isSome = true :=
      List.find?_isSome.mpr ⟨t, ht, by simpa using hsame⟩
    obtain ⟨u, hu⟩ := Option.isSome_iff_exists.mp hfound
    rw [hcollected]
    simp only [collected, hu, Option.map_some, Option.getD_some]
  · intro s hs
    exact congrArg Section.properties (hgroup s hs).2
  · intro s hs
    have hproperties := congrArg Section.properties (hgroup s hs).2
    rw [hproperties]
    exact hlines.sublist (List.filter_sublist.flatMap _)

theorem ofLines_policies (lines : List (Option (List Char))) :
    Agree Grouping (ofLines .keepApart lines) (ofLines .merge lines) := by
  rw [ofLines_merge]
  unfold ofLines
  cases hread : Draft.start.readAll .keepApart 1 lines with
  | error e => exact rfl
  | ok d =>
    have horder := Draft.readAll_keeps (P := fun number d => d.InOrder number) lines
      (fun _ h hstep => h.read hstep) Draft.InOrder.start hread
    exact grouping_groupByName horder.first horder.lines

/-- **The law of the two policies.** A text can be read under one policy if it can be read
under the other, and is refused with the same error otherwise. If it is read, merging gives
one section for each name: the names in the order of their first occurrence, the implicit
section first, each with the line of its first header and the properties of all sections of
that name in the order of the file. The same holds for a file given by its octets. -/
theorem ofText_policies (text : String) (bytes : List UInt8) :
    Agree Grouping (ofText .keepApart text) (ofText .merge text) ∧
      Agree Grouping (ofBytes .keepApart bytes) (ofBytes .merge bytes) :=
  ⟨ofLines_policies _, ofLines_policies _⟩

end StubServer.BehaviorFile
