import StubServer.Proofs.BehaviorFile.Grouping
import StubServer.Proofs.BehaviorFile.Lines
import StubServer.Proofs.BehaviorFile.Reading

/-!
# Writing sections down and reading them again

Names, keys and values are free texts. They may contain brackets, equals signs, comment signs
and blanks, and still the written form of a file is read as what it was written from. The
reason is where they come from:

> `Legible`: the written line of a section or property is one line, and is read as a header
> of that name or as a property of that key and value.

Whatever was read from a file is legible (`legible_of_sourced`). A key begins with what its
line began with, and so does not begin with a comment sign; and a value ends with what its
line ended with, so that a key and a value never put a bracket at both ends of a line that
had none there (`Line.ofText_rewritten`).

Line numbers are not written down, so `unnumbered` forgets them. `ofText_written` is the
result: the written form has the implicit section, which is empty, and then the sections that
were written.
-/

namespace StubServer.BehaviorFile

/-! ## Texts of lines -/

section Texts

variable {raw k v : List Char} {key value : String}

theorem kept_sublist (cs : List Char) : (kept cs).toList.Sublist cs := by
  unfold kept
  rw [String.toList_ofList]
  exact Text.trim_sublist cs

/-- The key of a line begins with what the line begins with. -/
theorem head?_key (hraw : Text.trim raw = k ++ '=' :: v) (hk : Text.trim k ≠ []) :
    (Text.trim raw).head? = (Text.trim k).head? := by
  cases k with
  | nil => exact absurd rfl hk
  | cons c rest =>
    have hhead : (Text.trim raw).head? = some c := by rw [hraw]; rfl
    rw [hhead, Text.head?_trim rfl (Text.isBlank_head?_trim c hhead)]

/-- The value of a line ends with what the line ends with. -/
theorem getLast?_value (hraw : Text.trim raw = k ++ '=' :: v) (hv : Text.trim v ≠ []) :
    (Text.trim raw).getLast? = (Text.trim v).getLast? := by
  rcases List.eq_nil_or_concat v with rfl | ⟨front, c, hconcat⟩
  · exact absurd rfl hv
  · have hvalue : v.getLast? = some c := by rw [hconcat, List.concat_eq_append, List.getLast?_concat]
    have hlast : (Text.trim raw).getLast? = some c := by
      rw [hraw, List.getLast?_append_of_ne_nil _ (by simp), List.getLast?_cons_of_ne_nil, hvalue]
      rw [hconcat]
      simp
    rw [hlast, Text.getLast?_trim_of hvalue (Text.getLast?_trim c hlast)]

/-- A written property loses a blank at most, if its value is empty. -/
theorem trim_written (hk : Text.trim k = k) (hne : k ≠ []) (hv : Text.trim v = v) :
    ∃ tail, Text.trim (k ++ ' ' :: '=' :: ' ' :: v) = k ++ ' ' :: '=' :: tail ∧
      Text.trim tail = v ∧ tail.getLast? = v.getLast? := by
  have hstart : ∀ rest : List Char, ∀ c ∈ (k ++ rest).head?, Text.isBlank c = false := by
    intro rest c hc
    rw [List.head?_append_of_ne_nil _ hne, ← hk] at hc
    exact Text.isBlank_head?_trim c hc
  cases v with
  | nil =>
    have hblank : k ++ [' ', '=', ' '] = (k ++ [' ', '=']) ++ [' '] := by simp
    refine ⟨[], ?_, rfl, rfl⟩
    rw [hblank, Text.trim_concat_blank (by decide)]
    refine Text.trim_eq_self (hstart _) fun c hc => ?_
    rw [List.getLast?_append_of_ne_nil _ (by simp)] at hc
    rw [← Option.some.inj hc]
    decide
  | cons a rest =>
    refine ⟨' ' :: a :: rest, Text.trim_eq_self (hstart _) fun c hc => ?_, ?_, rfl⟩
    · rw [List.getLast?_append_of_ne_nil _ (by simp)] at hc
      rw [show (' ' :: '=' :: ' ' :: a :: rest).getLast? = (a :: rest).getLast? from rfl, ← hv] at hc
      exact Text.getLast?_trim c hc
    · rw [Text.trim_cons_blank (by decide), hv]

/-- What is read to a property is read to the same property when it is written again. -/
theorem Line.ofText_rewritten (h : ofText raw = .property key value) (hkey : key ≠ "") :
    ofText (key ++ " = " ++ value).toList = .property key value := by
  obtain ⟨hplain, k, v, hcut, rfl, rfl⟩ := ofText_eq_property.mp h
  obtain ⟨hraw, hequals⟩ := Text.cut_eq_some hcut
  have hk : Text.trim k ≠ [] := fun hnil => hkey (congrArg String.ofList hnil)
  have hchars : (kept k ++ " = " ++ kept v).toList =
      Text.trim k ++ ' ' :: '=' :: ' ' :: Text.trim v := by
    simp [kept, String.toList_append]
  obtain ⟨tail, htrim, htail, hlast⟩ := trim_written (Text.trim_trim k) hk (Text.trim_trim v)
  refine ofText_eq_property.mpr ?_
  rw [hchars, htrim]
  refine ⟨hplain.of_ends ?_ ?_ ?_, Text.trim k ++ [' '], tail, ?_, ?_, ?_⟩
  · cases k with
    | nil => exact absurd rfl hk
    | cons c rest =>
      rw [hraw, List.length_append, List.length_cons, List.length_cons]
      omega
  · rw [List.head?_append_of_ne_nil _ hk, head?_key hraw hk]
  · -- a bracket at the end is that of the value, with which the line ended
    intro hbracket
    rw [List.getLast?_append_of_ne_nil _ (by simp)] at hbracket
    cases htail' : tail with
    | nil =>
      rw [htail'] at hbracket
      cases hbracket
    | cons a rest =>
      have hvalue : (Text.trim v).getLast? = some ']' := by
        rw [← hlast, htail']
        rw [htail'] at hbracket
        exact hbracket
      rw [getLast?_value hraw (List.getLast?_isSome.mp (by rw [hvalue]; rfl)), hvalue]
  · rw [List.append_cons, Text.cut_append]
    intro hmem
    rcases List.mem_append.mp hmem with hin | hin
    · exact hequals ((Text.trim_sublist k).subset hin)
    · exact absurd (List.mem_singleton.mp hin) (by decide)
  · unfold kept
    rw [Text.trim_concat_blank (by decide), Text.trim_trim]
  · unfold kept
    rw [htail]

end Texts

/-! ## Sections that can be read again -/

/-- The line of a property is one line and is read as that property. -/
structure Property.Legible (p : Property) : Prop where
  key : p.name ≠ ""
  line : Line.ofText p.written.toList = .property p.name p.value
  single : '\n' ∉ p.written.toList

/-- The lines of a section are its lines in number, and are read as its header and its
properties. -/
structure Section.Legible (s : Section) : Prop where
  name : s.name ≠ ""
  line : Line.ofText ("[" ++ s.name ++ "]").toList = .header s.name
  single : '\n' ∉ ("[" ++ s.name ++ "]").toList
  properties : ∀ p ∈ s.properties, p.Legible

theorem legible_property {raw : List Char} {p : Property} (hraw : '\n' ∉ raw)
    (h : Line.ofText raw = .property p.name p.value) (hkey : p.name ≠ "") : p.Legible := by
  refine ⟨hkey, Line.ofText_rewritten h hkey, ?_⟩
  obtain ⟨-, k, v, hcut, hname, hvalue⟩ := Line.ofText_eq_property.mp h
  have hsub : ∀ c, c ∈ k ∨ c ∈ v → c ∈ raw := by
    intro c hc
    refine (Text.trim_sublist raw).subset ?_
    rw [(Text.cut_eq_some hcut).1]
    rcases hc with hc | hc
    · exact List.mem_append_left _ hc
    · exact List.mem_append_right _ (List.mem_cons_of_mem _ hc)
  intro hmem
  unfold Property.written at hmem
  rw [hname, hvalue, String.toList_append, String.toList_append] at hmem
  rcases List.mem_append.mp hmem with hfront | hback
  · rcases List.mem_append.mp hfront with hin | hin
    · exact hraw (hsub _ (Or.inl ((kept_sublist k).subset hin)))
    · exact absurd hin (by decide)
  · exact hraw (hsub _ (Or.inr ((kept_sublist v).subset hback)))

/-- The line of a name without blanks at its ends is a header of that name. -/
theorem Line.ofText_name {name : String} (h : kept name.toList = name) :
    ofText ("[" ++ name ++ "]").toList = .header name := by
  have hchars : ("[" ++ name ++ "]").toList = '[' :: name.toList ++ [']'] := by
    simp [String.toList_append]
  rw [hchars, ofText_header, h]

/-- Whatever was read from lines can be written down and read again. -/
theorem legible_of_sourced {lines : List (Option (List Char))} {s : Section}
    (hlines : ∀ raw, some raw ∈ lines → '\n' ∉ raw) (h : Sourced lines s) : s.Legible := by
  have hproperties : ∀ p ∈ s.properties, p.Legible := by
    intro p hp
    obtain ⟨hkey, i, raw, -, hline, hread⟩ := h.properties p hp
    exact legible_property (hlines raw (List.mem_of_getElem? hline)) hread hkey
  rcases h.header with ⟨hname, -⟩ | ⟨hname, i, raw, -, hline, hread⟩
  · refine ⟨?_, ?_, ?_, hproperties⟩
    · rw [hname]
      decide
    · rw [hname]
      exact Line.ofText_name rfl
    · rw [hname]
      decide
  · obtain ⟨inner, htrim, hinner⟩ := Line.ofText_eq_header hread
    refine ⟨hname, Line.ofText_name ?_, ?_, hproperties⟩
    · rw [hinner]
      unfold kept
      rw [String.toList_ofList, Text.trim_trim]
    · intro hmem
      rw [String.toList_append, String.toList_append] at hmem
      rcases List.mem_append.mp hmem with hfront | hback
      · rcases List.mem_append.mp hfront with hin | hin
        · exact absurd hin (by decide)
        · -- a line feed in the name would be one in the line
          rw [hinner] at hin
          refine hlines raw (List.mem_of_getElem? hline) ((Text.trim_sublist raw).subset ?_)
          rw [htrim]
          exact List.mem_append_left _ (List.mem_cons_of_mem _ ((kept_sublist inner).subset hin))
      · exact absurd hback (by decide)

/-! ## Texts of sections -/

/-- Lines that are written one after the other are found again, and a last line without
anything in it. -/
theorem splitOn_join : ∀ (lines : List String), (∀ line ∈ lines, '\n' ∉ line.toList) →
    (String.join (lines.map (· ++ "\n"))).toList.splitOn '\n' = lines.map String.toList ++ [[]]
  | [], _ => rfl
  | line :: rest, h => by
    have hchars : (String.join ((line :: rest).map (· ++ "\n"))).toList =
        line.toList ++ '\n' :: (String.join (rest.map (· ++ "\n"))).toList := by
      simp [String.toList_join]
    rw [hchars, List.splitOn_append_cons_self_of_not_mem (h line (List.mem_cons_self ..)),
      splitOn_join rest fun l hl => h l (List.mem_cons_of_mem _ hl)]
    rfl

/-! ## Reading the lines of sections -/

/-- A property without its line number. -/
def Property.unnumbered (p : Property) : Property :=
  { p with line := 0 }

/-- A section without line numbers. -/
def Section.unnumbered (s : Section) : Section :=
  { s with line := 0, properties := s.properties.map Property.unnumbered }

@[simp] theorem Section.unnumbered_name (s : Section) : s.unnumbered.name = s.name := rfl

/-- The lines of sections, as a reader gets them. -/
def linesOf (sections : List Section) : List (Option (List Char)) :=
  (sections.flatMap Section.written).map fun line => some line.toList

namespace Draft

/-- The lines of properties fill the current section with them. -/
theorem readAll_properties : ∀ {properties : List Property}, (∀ p ∈ properties, p.Legible) →
    ∀ (d : Draft) (number : Nat), ∃ again,
      again.map Property.unnumbered = properties.map Property.unnumbered ∧
      d.readAll .keepApart number (properties.map fun p => some p.written.toList) =
        .ok ⟨d.before, ⟨d.current.name, d.current.line, d.current.properties ++ again⟩, d.after⟩
  | [], _, d, _ => ⟨[], rfl, by rw [List.append_nil]; rfl⟩
  | p :: rest, h, d, number => by
    have hp := h p (List.mem_cons_self ..)
    have hread : d.read .keepApart number (.ofText p.written.toList) =
        .ok (d.put ⟨p.name, p.value, number⟩) := by
      rw [hp.line]
      exact if_neg (by simpa using hp.key)
    obtain ⟨again, hagain, hrest⟩ := readAll_properties
      (fun q hq => h q (List.mem_cons_of_mem _ hq)) (d.put ⟨p.name, p.value, number⟩) (number + 1)
    refine ⟨⟨p.name, p.value, number⟩ :: again, ?_, ?_⟩
    · rw [List.map_cons, List.map_cons, hagain]
      rfl
    · rw [List.map_cons, readAll, hread]
      show readAll _ _ _ _ = _
      rw [hrest]
      show Except.ok (⟨d.before, ⟨_, _, d.current.properties ++ [_] ++ again⟩, _⟩ : Draft) = _
      rw [List.append_assoc]
      rfl

/-- The lines of a section open one that is the same but for its line numbers. -/
theorem readAll_section {s : Section} (h : s.Legible) (d : Draft) (number : Nat) :
    ∃ again, again.unnumbered = s.unnumbered ∧
      d.readAll .keepApart number (linesOf [s]) = .ok ⟨d.sections, again, []⟩ := by
  obtain ⟨again, hagain, hrest⟩ :=
    readAll_properties h.properties (d.append s.name number) (number + 1)
  have hread : d.read .keepApart number (.ofText ("[" ++ s.name ++ "]").toList) =
      .ok (d.append s.name number) := by
    rw [h.line]
    exact if_neg (by simpa using h.name)
  refine ⟨⟨s.name, number, again⟩, ?_, ?_⟩
  · show (⟨s.name, 0, again.map Property.unnumbered⟩ : Section) = _
    rw [hagain]
    rfl
  · unfold linesOf
    rw [List.flatMap_singleton, Section.written, List.map_cons, readAll, hread, List.map_map]
    exact hrest

/-- The lines of sections add the same sections, but for their line numbers. -/
theorem readAll_sections : ∀ {sections : List Section}, (∀ s ∈ sections, s.Legible) →
    ∀ (d : Draft) (number : Nat), ∃ d' again,
      d.readAll .keepApart number (linesOf sections) = .ok d' ∧
      d'.sections = d.sections ++ again ∧
      again.map Section.unnumbered = sections.map Section.unnumbered
  | [], _, d, _ => ⟨d, [], rfl, (List.append_nil _).symm, rfl⟩
  | s :: rest, h, d, number => by
    obtain ⟨t, ht, hfirst⟩ := readAll_section (h s (List.mem_cons_self ..)) d number
    obtain ⟨d', again, hrest, hsections, hagain⟩ := readAll_sections
      (fun u hu => h u (List.mem_cons_of_mem _ hu)) ⟨d.sections, t, []⟩
      (number + (linesOf [s]).length)
    refine ⟨d', t :: again, ?_, ?_, ?_⟩
    · have hlines : linesOf (s :: rest) = linesOf [s] ++ linesOf rest := by
        unfold linesOf
        rw [← List.map_append, List.flatMap_singleton, List.flatMap_cons]
      rw [hlines, readAll_append, hfirst]
      exact hrest
    · rw [hsections]
      show d.sections ++ [t] ++ again = _
      rw [List.append_assoc]
      rfl
    · rw [List.map_cons, List.map_cons, ht, hagain]

end Draft

/-- Kept apart, the written sections are read again below the implicit section. -/
theorem ofText_written_apart {sections : List Section} (h : ∀ s ∈ sections, s.Legible) :
    ∃ again, ofText .keepApart (written sections) = .ok (⟨defaultName, 0, []⟩ :: again) ∧
      again.map Section.unnumbered = sections.map Section.unnumbered := by
  have hlines : (written sections).toList.splitOn '\n' =
      (sections.flatMap Section.written).map String.toList ++ [[]] := by
    refine splitOn_join _ fun line hline => ?_
    obtain ⟨s, hs, hin⟩ := List.mem_flatMap.mp hline
    rcases List.mem_cons.mp hin with rfl | hproperty
    · exact (h s hs).single
    · obtain ⟨p, hp, rfl⟩ := List.mem_map.mp hproperty
      exact ((h s hs).properties p hp).single
  obtain ⟨d, again, hread, hsections, hagain⟩ := Draft.readAll_sections h .start 1
  refine ⟨again, ?_, hagain⟩
  unfold ofText ofLines
  have hall : (((sections.flatMap Section.written).map String.toList ++ [[]]).map some :
      List (Option (List Char))) = linesOf sections ++ [some []] := by
    rw [List.map_append, List.map_map]
    rfl
  rw [hlines, hall, Draft.readAll_append, hread]
  -- the last line is empty and means nothing
  show Except.ok d.sections = _
  rw [hsections]
  rfl

/-! ## Grouping without line numbers -/

theorem join_unnumbered (s : Section) : ∀ (groups : List Section),
    (join groups s).map Section.unnumbered = join (groups.map Section.unnumbered) s.unnumbered
  | [] => rfl
  | t :: rest => by
    rw [List.map_cons, join, join, Section.unnumbered_name, Section.unnumbered_name]
    by_cases h : t.name = s.name
    · rw [if_pos h, if_pos h, List.map_cons]
      unfold Section.unnumbered
      rw [List.map_append]
    · rw [if_neg h, if_neg h, List.map_cons, join_unnumbered s rest]

theorem groupByName_unnumbered (sections : List Section) :
    (groupByName sections).map Section.unnumbered =
      groupByName (sections.map Section.unnumbered) := by
  induction sections using List.reverseRecOn with
  | nil => rfl
  | append_singleton sections s ih =>
    rw [List.map_append, List.map_singleton, groupByName_concat, groupByName_concat, join_unnumbered,
      ih]

/-- Sections with distinct names are groups already. -/
theorem groupByName_of_nodup (sections : List Section) (h : (names sections).Nodup) :
    groupByName sections = sections := by
  induction sections using List.reverseRecOn with
  | nil => rfl
  | append_singleton sections s ih =>
    unfold names at h
    rw [List.map_append, List.map_singleton] at h
    obtain ⟨hfront, -, hnew⟩ := List.nodup_append.mp h
    rw [groupByName_concat, ih hfront, join_new]
    exact fun hmem => hnew _ hmem _ (List.mem_singleton.mpr rfl) rfl

/-- An empty section in front joins the first one, if it has its name. -/
theorem groupByName_implicit {first : Section} (h : first.name = defaultName) (rest : List Section) :
    groupByName (⟨defaultName, 0, []⟩ :: (first :: rest).map Section.unnumbered) =
      groupByName ((first :: rest).map Section.unnumbered) := by
  have hjoin : join [⟨defaultName, 0, []⟩] first.unnumbered = [first.unnumbered] := by
    rw [join, Section.unnumbered_name, if_pos h.symm]
    show [(⟨defaultName, 0, first.properties.map Property.unnumbered⟩ : Section)] = _
    rw [← h]
    rfl
  show (rest.map Section.unnumbered).foldl join (join [⟨defaultName, 0, []⟩] first.unnumbered) = _
  rw [hjoin]
  rfl

/-! ## Reading again -/

/-- Every file begins with the implicit section. -/
theorem ofLines_first {policy : DuplicatePolicy} {lines : List (Option (List Char))}
    {sections : List Section} (h : ofLines policy lines = .ok sections) :
    ∃ first rest, sections = first :: rest ∧ first.name = defaultName := by
  have hhead : (sections.head?.map fun s => (s.name, s.line)) = some (defaultName, 0) := by
    have hagree := ofLines_policies lines
    cases policy with
    | keepApart =>
      rw [h] at hagree
      cases hmerged : ofLines .merge lines with
      | ok merged => rw [hmerged] at hagree; exact hagree.first.1
      | error e => rw [hmerged] at hagree; exact hagree.elim
    | merge =>
      rw [h] at hagree
      cases hapart : ofLines .keepApart lines with
      | ok apart => rw [hapart] at hagree; exact hagree.first.2
      | error e => rw [hapart] at hagree; exact hagree.elim
  cases sections with
  | nil => cases hhead
  | cons first rest => exact ⟨first, rest, rfl, (Prod.mk.inj (Option.some.inj hhead)).1⟩

/-- With duplicates merged no name occurs twice. -/
theorem ofLines_merge_nodup {lines : List (Option (List Char))} {sections : List Section}
    (h : ofLines .merge lines = .ok sections) : (names sections).Nodup := by
  rw [ofLines_merge] at h
  cases hapart : ofLines .keepApart lines with
  | error e => rw [hapart] at h; cases h
  | ok apart =>
    rw [hapart] at h
    rw [← Except.ok.inj h, names_groupByName]
    exact eraseDups_nodup _

/-- **Sections survive being written down.** The written form of what was read from a text is
read, with duplicates kept apart, as an empty implicit section and then the same sections; with
duplicates merged it is read as these sections grouped by name, which is what they are already
if they were read that way. Only the line numbers differ. -/
theorem ofText_written {policy : DuplicatePolicy} {text : String} {sections : List Section}
    (h : ofText policy text = .ok sections) :
    (∃ again, ofText .keepApart (written sections) = .ok (⟨defaultName, 0, []⟩ :: again) ∧
      again.map Section.unnumbered = sections.map Section.unnumbered) ∧
    (∃ merged, ofText .merge (written sections) = .ok merged ∧
      merged.map Section.unnumbered = (groupByName sections).map Section.unnumbered) ∧
    (policy = .merge → groupByName sections = sections) := by
  have hlegible : ∀ s ∈ sections, s.Legible := by
    intro s hs
    refine legible_of_sourced ?_ (ofLines_sourced h s hs)
    intro raw hraw
    obtain ⟨line, hline, hsame⟩ := List.mem_map.mp hraw
    rw [← Option.some.inj hsame]
    exact newline_notMem_textLines text line hline
  obtain ⟨again, hread, hagain⟩ := ofText_written_apart hlegible
  obtain ⟨first, rest, rfl, hfirst⟩ := ofLines_first h
  refine ⟨⟨again, hread, hagain⟩, ⟨groupByName (⟨defaultName, 0, []⟩ :: again), ?_, ?_⟩, ?_⟩
  · have hmerge : ofText .merge (written (first :: rest)) =
        (ofText .keepApart (written (first :: rest))).map groupByName := ofLines_merge _
    rw [hmerge, hread]
    rfl
  · have himplicit : (⟨defaultName, 0, []⟩ :: again).map Section.unnumbered =
        ⟨defaultName, 0, []⟩ :: (first :: rest).map Section.unnumbered := by
      rw [List.map_cons, hagain]
      rfl
    rw [groupByName_unnumbered, groupByName_unnumbered, himplicit, groupByName_implicit hfirst]
  · rintro rfl
    exact groupByName_of_nodup _ (ofLines_merge_nodup h)

/-- Sections whose names, keys and values have brackets, comment signs and equals signs, one of
them of the name of the implicit section. -/
def signs : List Section :=
  [⟨"default", 0, []⟩, ⟨"[a];x", 1, [⟨"[k]", "", 2⟩, ⟨"k]#", "v;=[w", 3⟩]⟩,
    ⟨"default", 4, [⟨"b", "[c]", 5⟩]⟩]

theorem ofText_written_signs :
    ofText .keepApart "[ [a];x ]\n[k] =\n k]#= v;=[w \n[default]\nb = [c]" = .ok signs ∧
      (∃ again, ofText .keepApart (written signs) = .ok (⟨defaultName, 0, []⟩ :: again) ∧
        again.map Section.unnumbered = signs.map Section.unnumbered) ∧
      ∃ merged, ofText .merge (written signs) = .ok merged ∧
        merged.map Section.unnumbered = (groupByName signs).map Section.unnumbered :=
  have h : ofText .keepApart "[ [a];x ]\n[k] =\n k]#= v;=[w \n[default]\nb = [c]" = .ok signs := by
    decide +kernel
  ⟨h, (ofText_written h).1, (ofText_written h).2.1⟩

end StubServer.BehaviorFile
