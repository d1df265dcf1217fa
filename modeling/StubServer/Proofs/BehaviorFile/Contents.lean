import Mathlib.Data.List.Nodup
import StubServer.Proofs.BehaviorFile.Grouping
import StubServer.Proofs.BehaviorFile.Lines

/-!
# What a file contains, line by line

The reader is a loop with a state: the section that is being filled, which a header may move
forwards or back. What it finds can be said without any state. `headerOn?` and `propertyOn?`
read a line by itself, `lastName` is the name of the last header above a place, and these give
the headers and the properties of a file as two lists, `headersOn` and `propertiesOn`, and its
first fault, `FirstFault`.

One invariant joins the loop to this reading, the same for both policies:

> `Filled`: after some lines the draft has their properties and no others, in some order of
> the sections, each in a section of the name that was the last one above it; its sections
> stand in the order of their lines, and the one being filled has the last name.

A line that is no fault keeps it (`Filled.read`), so it holds wherever the first fault is
(`readAll_faultless`), and there the name being filled is the one that the error must have
(`readAll_firstFault`). `ofText_contents` is the law for whole texts.
-/

namespace StubServer.BehaviorFile

/-! ## Lines by themselves -/

section Lines

variable {raw : List Char} {name key value : String}

/-- The name on a header line: what stands in the brackets at its two ends. -/
def headerOn? (raw : List Char) : Option String :=
  (bracketed? (Text.trim raw)).map kept

/-- The key and the value on a line that is neither a comment nor a header: what stands before
and after the first equals sign. -/
def propertyOn? (raw : List Char) : Option (String × String) :=
  if isComment (Text.trim raw) = true ∨ (headerOn? raw).isSome = true then none
  else (Text.cut '=' (Text.trim raw)).map fun halves => (kept halves.1, kept halves.2)

/-- A header without a name or a property without a key. -/
def Faulty (raw : List Char) : Prop :=
  headerOn? raw = some "" ∨ ∃ value, propertyOn? raw = some ("", value)

theorem headerOn?_eq_some : headerOn? raw = some name ↔ Line.ofText raw = .header name := by
  constructor
  · intro h
    obtain ⟨inner, hinner, rfl⟩ := Option.map_eq_some_iff.mp h
    have hraw := bracketed?_eq_some.mp hinner
    unfold Line.ofText Line.ofTrimmed
    rw [hinner, hraw]
    rfl
  · intro h
    obtain ⟨inner, htrim, rfl⟩ := Line.ofText_eq_header h
    exact Option.map_eq_some_iff.mpr ⟨inner, bracketed?_eq_some.mpr htrim, rfl⟩

theorem propertyOn?_eq_some :
    propertyOn? raw = some (key, value) ↔ Line.ofText raw = .property key value := by
  have hplain : IsPlain (Text.trim raw) ↔
      ¬(isComment (Text.trim raw) = true ∨ (headerOn? raw).isSome = true) := by
    have hbrackets : (headerOn? raw).isSome = false ↔ bracketed? (Text.trim raw) = none := by
      unfold headerOn?
      rw [Option.isSome_map, Option.isSome_eq_false_iff, Option.isNone_iff_eq_none]
    rw [not_or, Bool.not_eq_true, Bool.not_eq_true, hbrackets]
    exact ⟨fun h => ⟨h.comment, h.brackets⟩, fun h => ⟨h.1, h.2⟩⟩
  rw [Line.ofText_eq_property, hplain]
  unfold propertyOn?
  split
  next hskipped => exact ⟨fun h => absurd h (by simp), fun h => absurd hskipped h.1⟩
  next hread =>
    rw [Option.map_eq_some_iff]
    constructor
    · rintro ⟨⟨k, v⟩, hcut, hkept⟩
      obtain ⟨hkey, hvalue⟩ := Prod.mk.inj hkept
      exact ⟨hread, k, v, hcut, hkey.symm, hvalue.symm⟩
    · rintro ⟨-, k, v, hcut, rfl, rfl⟩
      exact ⟨(k, v), hcut, rfl⟩

/-- No line is both. -/
theorem propertyOn?_of_header (h : headerOn? raw = some name) : propertyOn? raw = none := by
  unfold propertyOn?
  rw [if_pos (Or.inr (by rw [h]; rfl))]

theorem headerOn?_of_property (h : propertyOn? raw = some (key, value)) : headerOn? raw = none := by
  refine Option.eq_none_iff_forall_ne_some.mpr fun name hname => ?_
  rw [propertyOn?_of_header hname] at h
  cases h

/-- Every other line means nothing. -/
theorem ofText_of_none (hheader : headerOn? raw = none) (hproperty : propertyOn? raw = none) :
    Line.ofText raw = .skipped := by
  cases hline : Line.ofText raw with
  | skipped => rfl
  | header name =>
    rw [headerOn?_eq_some.mpr hline] at hheader
    cases hheader
  | property key value =>
    rw [propertyOn?_eq_some.mpr hline] at hproperty
    cases hproperty

end Lines

/-! ## Reading without a state -/

/-- The name on the last header of some lines; that of the implicit section if they have none. -/
def lastName (lines : List (List Char)) : String :=
  (lines.reverse.findSome? headerOn?).getD defaultName

/-- The name on the nearest header above the line of a given number. -/
def nameAbove (lines : List (List Char)) (number : Nat) : String :=
  lastName (lines.take (number - 1))

/-- The headers of a file with the numbers of their lines, in order. -/
def headersOn (lines : List (List Char)) : List (String × Nat) :=
  (lines.zipIdx 1).filterMap fun line => (headerOn? line.1).map fun name => (name, line.2)

/-- The properties of a file, in order. -/
def propertiesOn (lines : List (List Char)) : List Property :=
  (lines.zipIdx 1).filterMap fun line =>
    (propertyOn? line.1).map fun read => ⟨read.1, read.2, line.2⟩

/-- The error of a faulty line below a header of the given name. -/
def fault (name : String) (raw : List Char) : ReadError :=
  if (headerOn? raw).isSome then .emptySectionName else .emptyKey name

/-- An error is that of the first faulty line. -/
def FirstFault (lines : List (List Char)) (e : ReadError) : Prop :=
  ∃ before raw after, lines = before ++ raw :: after ∧ (∀ line ∈ before, ¬Faulty line) ∧
    Faulty raw ∧ e = fault (lastName before) raw

section Reading

variable {lines : List (List Char)} {raw : List Char} {number : Nat} {p q : Property}

theorem lastName_concat (lines : List (List Char)) (raw : List Char) :
    lastName (lines ++ [raw]) = (headerOn? raw).getD (lastName lines) := by
  unfold lastName
  rw [List.reverse_concat, List.findSome?_cons]
  cases headerOn? raw with
  | none => rfl
  | some name => rfl

/-- A line means nothing to those above it. -/
theorem nameAbove_concat (h : number ≤ lines.length + 1) (raw : List Char) :
    nameAbove (lines ++ [raw]) number = nameAbove lines number := by
  have hfront : number - 1 ≤ lines.length := by omega
  unfold nameAbove
  rw [List.take_append_of_le_length hfront]

/-- All lines are above the next one. -/
theorem nameAbove_next (lines : List (List Char)) (raw : List Char) :
    nameAbove (lines ++ [raw]) (lines.length + 1) = lastName lines := by
  rw [nameAbove_concat (Nat.le_refl _)]
  unfold nameAbove
  rw [Nat.add_sub_cancel, List.take_length]

theorem headersOn_concat (lines : List (List Char)) (raw : List Char) :
    headersOn (lines ++ [raw]) =
      headersOn lines ++ ((headerOn? raw).map fun name => (name, lines.length + 1)).toList := by
  unfold headersOn
  rw [List.zipIdx_append, List.filterMap_append, Nat.add_comm 1]
  cases h : headerOn? raw <;> simp [h]

theorem propertiesOn_concat (lines : List (List Char)) (raw : List Char) :
    propertiesOn (lines ++ [raw]) = propertiesOn lines ++
      ((propertyOn? raw).map fun read => (⟨read.1, read.2, lines.length + 1⟩ : Property)).toList := by
  unfold propertiesOn
  rw [List.zipIdx_append, List.filterMap_append, Nat.add_comm 1]
  cases h : propertyOn? raw <;> simp [h]

theorem zipIdx_increasing (lines : List (List Char)) :
    (lines.zipIdx 1).Pairwise (·.2 < ·.2) := by
  have hnumbers : ((lines.zipIdx 1).map Prod.snd).Pairwise (· < ·) := by
    rw [List.zipIdx_map_snd]
    exact List.pairwise_lt_range' 1
  exact List.pairwise_map.mp hnumbers

theorem headersOn_increasing (lines : List (List Char)) :
    (headersOn lines).Pairwise (·.2 < ·.2) := by
  refine (zipIdx_increasing lines).filterMap _ ?_
  intro line line' hlt header hread header' hread'
  obtain ⟨name, -, rfl⟩ := Option.map_eq_some_iff.mp hread
  obtain ⟨name', -, rfl⟩ := Option.map_eq_some_iff.mp hread'
  exact hlt

theorem propertiesOn_increasing (lines : List (List Char)) :
    (propertiesOn lines).Pairwise (·.line < ·.line) := by
  refine (zipIdx_increasing lines).filterMap _ ?_
  intro line line' hlt p hread p' hread'
  obtain ⟨read, -, rfl⟩ := Option.map_eq_some_iff.mp hread
  obtain ⟨read', -, rfl⟩ := Option.map_eq_some_iff.mp hread'
  exact hlt

theorem line_le_of_mem_propertiesOn (h : p ∈ propertiesOn lines) : p.line ≤ lines.length := by
  obtain ⟨line, hline, hread⟩ := List.mem_filterMap.mp h
  obtain ⟨read, -, rfl⟩ := Option.map_eq_some_iff.mp hread
  have hbound := (List.mem_zipIdx hline).2.1
  show line.2 ≤ lines.length
  omega

theorem line_pos_of_mem_headersOn {header : String × Nat} (h : header ∈ headersOn lines) :
    0 < header.2 := by
  obtain ⟨line, hline, hread⟩ := List.mem_filterMap.mp h
  obtain ⟨name, -, rfl⟩ := Option.map_eq_some_iff.mp hread
  exact (List.mem_zipIdx hline).1

/-- Only one property stands on a line. -/
theorem eq_of_mem_propertiesOn (hp : p ∈ propertiesOn lines) (hq : q ∈ propertiesOn lines)
    (h : p.line = q.line) : p = q := by
  have hdistinct : ((propertiesOn lines).map (·.line)).Nodup := by
    have hlines := List.pairwise_map.mpr (propertiesOn_increasing lines)
    exact hlines.imp fun hlt => Nat.ne_of_lt hlt
  exact List.inj_on_of_nodup_map hdistinct hp hq h

end Reading

/-! ## The draft after some lines -/

/-- The names of sections with the numbers of their lines. -/
def headings (sections : List Section) : List (String × Nat) :=
  sections.map fun s => (s.name, s.line)

namespace Draft

theorem current_openSection (policy : DuplicatePolicy) (d : Draft) (name : String) (number : Nat) :
    (d.openSection policy name number).current.name = name := by
  cases policy with
  | keepApart => rfl
  | merge => exact (d.returnTo_spec name number).2.1

/-- A property changes no heading. -/
theorem headings_put (d : Draft) (p : Property) : headings (d.put p).sections = headings d.sections := by
  unfold headings sections
  rw [List.map_append, List.map_append]
  rfl

/-- A property comes to those that are there. -/
theorem propertiesOf_put (d : Draft) (p : Property) :
    (propertiesOf (d.put p).sections).Perm (propertiesOf d.sections ++ [p]) := by
  have hall : ∀ s : Section, propertiesOf (d.before ++ s :: d.after) =
      propertiesOf d.before ++ (s.properties ++ propertiesOf d.after) := by
    intro s
    unfold propertiesOf
    rw [List.flatMap_append, List.flatMap_cons]
  show (propertiesOf (d.before ++ (d.put p).current :: d.after)).Perm
    (propertiesOf (d.before ++ d.current :: d.after) ++ [p])
  rw [hall, hall, List.append_assoc, List.append_assoc]
  show (_ ++ ((d.current.properties ++ [p]) ++ _)).Perm _
  rw [List.append_assoc]
  exact (List.perm_append_comm.append_left _).append_left _

end Draft

/-- What a draft has after some lines without a fault. -/
structure Filled (lines : List (List Char)) (d : Draft) : Prop where
  /-- The section that is being filled has the last name. -/
  current : d.current.name = lastName lines
  /-- The implicit section comes first, then some of the headers in their order. -/
  headings : ∃ found, headings d.sections = (defaultName, 0) :: found ∧
    found.Sublist (headersOn lines)
  /-- No name is left out. -/
  named : ∀ header ∈ headersOn lines, ∃ s ∈ d.sections, s.name = header.1
  /-- All properties of the lines are there, once, and no others. -/
  complete : (propertiesOf d.sections).Perm (propertiesOn lines)
  /-- Inside a section they stand in order. -/
  ordered : ∀ s ∈ d.sections, s.properties.Pairwise (·.line < ·.line)
  /-- Each is in a section of the last name above it. -/
  placed : ∀ s ∈ d.sections, ∀ p ∈ s.properties, s.name = nameAbove lines p.line

namespace Filled

variable {lines : List (List Char)} {d : Draft} {raw : List Char}

theorem start : Filled [] .start := by
  refine ⟨rfl, ⟨[], rfl, List.Sublist.refl _⟩, fun header h => absurd h List.not_mem_nil,
    List.Perm.refl _, ?_, ?_⟩
  · intro s hs
    rw [List.mem_singleton.mp hs]
    exact List.Pairwise.nil
  · intro s hs p hp
    rw [List.mem_singleton.mp hs] at hp
    exact absurd hp List.not_mem_nil

/-- The properties so far stand above the next line. -/
theorem line_le (h : Filled lines d) {s : Section} (hs : s ∈ d.sections) {p : Property}
    (hp : p ∈ s.properties) : p.line ≤ lines.length :=
  line_le_of_mem_propertiesOn (h.complete.mem_iff.mp (List.mem_flatMap.mpr ⟨s, hs, hp⟩))

/-- A line that means nothing. -/
theorem skip (h : Filled lines d) (hheader : headerOn? raw = none)
    (hproperty : propertyOn? raw = none) : Filled (lines ++ [raw]) d := by
  have hheaders : headersOn (lines ++ [raw]) = headersOn lines := by
    rw [headersOn_concat, hheader]
    exact List.append_nil _
  have hproperties : propertiesOn (lines ++ [raw]) = propertiesOn lines := by
    rw [propertiesOn_concat, hproperty]
    exact List.append_nil _
  refine ⟨?_, hheaders ▸ h.headings, hheaders ▸ h.named, hproperties ▸ h.complete, h.ordered, ?_⟩
  · rw [lastName_concat, hheader, h.current]
    rfl
  · intro s hs p hp
    rw [nameAbove_concat (Nat.le_succ_of_le (h.line_le hs hp))]
    exact h.placed s hs p hp

/-- A header: the draft moves to a section of its name, and is otherwise as before or has one
more empty section. -/
theorem openSection (h : Filled lines d) {name : String} (hheader : headerOn? raw = some name)
    (policy : DuplicatePolicy) :
    Filled (lines ++ [raw]) (d.openSection policy name (lines.length + 1)) := by
  have hheaders : headersOn (lines ++ [raw]) = headersOn lines ++ [(name, lines.length + 1)] := by
    rw [headersOn_concat, hheader]
    rfl
  have hproperties : propertiesOn (lines ++ [raw]) = propertiesOn lines := by
    rw [propertiesOn_concat, propertyOn?_of_header hheader]
    exact List.append_nil _
  have hcurrent := Draft.current_openSection policy d name (lines.length + 1)
  have hsections := Draft.sections_openSection policy d name (lines.length + 1)
  refine ⟨?_, ?_, ?_, ?_, ?_, ?_⟩
  · rw [hcurrent, lastName_concat, hheader]
    rfl
  · obtain ⟨found, hfound, hsub⟩ := h.headings
    rw [hheaders]
    rcases hsections with hsame | hmore
    · rw [hsame]
      exact ⟨found, hfound, hsub.trans (List.sublist_append_left _ _)⟩
    · refine ⟨found ++ [(name, lines.length + 1)], ?_, hsub.append (List.Sublist.refl _)⟩
      rw [hmore, BehaviorFile.headings, List.map_append]
      show BehaviorFile.headings d.sections ++ _ = _
      rw [hfound]
      rfl
  · intro header hmem
    rw [hheaders] at hmem
    rcases List.mem_append.mp hmem with hold | hnew
    · obtain ⟨s, hs, hname⟩ := h.named header hold
      rcases hsections with hsame | hmore
      · exact ⟨s, hsame ▸ hs, hname⟩
      · exact ⟨s, hmore ▸ List.mem_append_left _ hs, hname⟩
    · rw [List.mem_singleton.mp hnew]
      exact ⟨_, Draft.current_mem _, hcurrent⟩
  · rw [hproperties]
    rcases hsections with hsame | hmore
    · rw [hsame]
      exact h.complete
    · rw [hmore]
      unfold propertiesOf
      rw [List.flatMap_append, List.flatMap_singleton, List.append_nil]
      exact h.complete
  · intro s hs
    rcases Draft.mem_openSection hs with hold | rfl
    · exact h.ordered s hold
    · exact List.Pairwise.nil
  · intro s hs p hp
    rcases Draft.mem_openSection hs with hold | rfl
    · rw [nameAbove_concat (Nat.le_succ_of_le (h.line_le hold hp))]
      exact h.placed s hold p hp
    · exact absurd hp List.not_mem_nil

/-- A property: it goes to the end of the section that is being filled. -/
theorem put (h : Filled lines d) {key value : String} (hproperty : propertyOn? raw = some (key, value)) :
    Filled (lines ++ [raw]) (d.put ⟨key, value, lines.length + 1⟩) := by
  have hheader := headerOn?_of_property hproperty
  have hheaders : headersOn (lines ++ [raw]) = headersOn lines := by
    rw [headersOn_concat, hheader]
    exact List.append_nil _
  have hproperties : propertiesOn (lines ++ [raw]) =
      propertiesOn lines ++ [⟨key, value, lines.length + 1⟩] := by
    rw [propertiesOn_concat, hproperty]
    rfl
  have hheadings := Draft.headings_put d ⟨key, value, lines.length + 1⟩
  refine ⟨?_, ?_, ?_, ?_, ?_, ?_⟩
  · show d.current.name = _
    rw [lastName_concat, hheader, h.current]
    rfl
  · rw [hheaders, hheadings]
    exact h.headings
  · intro header hmem
    rw [hheaders] at hmem
    obtain ⟨s, hs, hname⟩ := h.named header hmem
    have hlisted : (s.name, s.line) ∈ BehaviorFile.headings d.sections :=
      List.mem_map.mpr ⟨s, hs, rfl⟩
    rw [← hheadings] at hlisted
    obtain ⟨t, ht, hsame⟩ := List.mem_map.mp hlisted
    exact ⟨t, ht, (Prod.mk.inj hsame).1.trans hname⟩
  · rw [hproperties]
    exact (Draft.propertiesOf_put d _).trans (h.complete.append_right _)
  · intro s hs
    rcases Draft.mem_put hs with hold | rfl
    · exact h.ordered s hold
    · refine List.pairwise_append.mpr ⟨h.ordered _ d.current_mem, List.pairwise_singleton _ _, ?_⟩
      intro p hp q hq
      rw [List.mem_singleton.mp hq]
      exact Nat.lt_succ_of_le (h.line_le d.current_mem hp)
  · intro s hs p hp
    rcases Draft.mem_put hs with hold | rfl
    · rw [nameAbove_concat (Nat.le_succ_of_le (h.line_le hold hp))]
      exact h.placed s hold p hp
    · rcases List.mem_append.mp hp with hold | hnew
      · rw [nameAbove_concat (Nat.le_succ_of_le (h.line_le d.current_mem hold))]
        exact h.placed _ d.current_mem p hold
      · rw [List.mem_singleton.mp hnew, nameAbove_next]
        exact h.current

/-- One line without a fault is read, and the draft has what it says. -/
theorem read (h : Filled lines d) (hraw : ¬Faulty raw) (policy : DuplicatePolicy) :
    ∃ d', d.read policy (lines.length + 1) (.ofText raw) = .ok d' ∧ Filled (lines ++ [raw]) d' := by
  obtain ⟨hname, hkey⟩ := not_or.mp hraw
  cases hheader : headerOn? raw with
  | some name =>
    have hne : name ≠ "" := fun hempty => hname (hempty ▸ hheader)
    refine ⟨_, Draft.read_eq_ok.mpr (Or.inr (Or.inl ⟨name, ?_, hne, rfl⟩)),
      h.openSection hheader policy⟩
    exact headerOn?_eq_some.mp hheader
  | none =>
    cases hproperty : propertyOn? raw with
    | some read =>
      obtain ⟨key, value⟩ := read
      have hne : key ≠ "" := fun hempty => hkey ⟨value, hempty ▸ hproperty⟩
      refine ⟨_, Draft.read_eq_ok.mpr (Or.inr (Or.inr ⟨key, value, ?_, hne, rfl⟩)), h.put hproperty⟩
      exact propertyOn?_eq_some.mp hproperty
    | none =>
      have hline := ofText_of_none hheader hproperty
      exact ⟨d, Draft.read_eq_ok.mpr (Or.inl ⟨hline, rfl⟩), h.skip hheader hproperty⟩

end Filled

/-! ## Faults -/

/-- A fault is an error, with the name of the section that is being filled. -/
theorem Draft.read_faulty {raw : List Char} (h : Faulty raw) (policy : DuplicatePolicy) (d : Draft)
    (number : Nat) : d.read policy number (.ofText raw) = .error (fault d.current.name raw) := by
  unfold fault
  rcases h with hheader | ⟨value, hproperty⟩
  · rw [headerOn?_eq_some.mp hheader, hheader]
    rfl
  · rw [propertyOn?_eq_some.mp hproperty, headerOn?_of_property hproperty]
    rfl

section Runs

variable {lines : List (List Char)}

/-- Lines without a fault are all read. -/
theorem readAll_faultless (policy : DuplicatePolicy) (h : ∀ raw ∈ lines, ¬Faulty raw) :
    ∃ d, Draft.start.readAll policy 1 (lines.map some) = .ok d ∧ Filled lines d := by
  induction lines using List.reverseRecOn with
  | nil => exact ⟨.start, rfl, Filled.start⟩
  | append_singleton lines raw ih =>
    obtain ⟨d, hread, hfilled⟩ := ih fun line hline => h line (List.mem_append_left _ hline)
    obtain ⟨d', hnext, hfilled'⟩ :=
      hfilled.read (h raw (List.mem_append_right _ (List.mem_singleton.mpr rfl))) policy
    refine ⟨d', ?_, hfilled'⟩
    rw [List.map_append, Draft.readAll_append, hread, List.length_map, Nat.add_comm 1]
    show d.read policy (lines.length + 1) (.ofText raw) >>= (fun next => .ok next) = _
    rw [hnext]
    rfl

/-- The first fault ends the reading. -/
theorem readAll_firstFault (policy : DuplicatePolicy) {e : ReadError} (h : FirstFault lines e) :
    Draft.start.readAll policy 1 (lines.map some) = .error e := by
  obtain ⟨before, raw, after, rfl, hbefore, hraw, rfl⟩ := h
  obtain ⟨d, hread, hfilled⟩ := readAll_faultless policy hbefore
  rw [List.map_append, Draft.readAll_append, hread]
  show (d.read policy _ (.ofText raw) >>= fun next => next.readAll policy _ _) = _
  rw [Draft.read_faulty hraw, hfilled.current]
  rfl

/-- If there is a fault at all, there is a first one. -/
theorem exists_firstFault (h : ∃ raw ∈ lines, Faulty raw) : ∃ e, FirstFault lines e := by
  classical
  obtain ⟨raw, hraw, hfaulty⟩ := h
  have hsome : (lines.find? fun line => decide (Faulty line)).isSome = true :=
    List.find?_isSome.mpr ⟨raw, hraw, decide_eq_true hfaulty⟩
  obtain ⟨first, hfirst⟩ := Option.isSome_iff_exists.mp hsome
  obtain ⟨hfault, before, after, hsplit, hbefore⟩ := List.find?_eq_some_iff_append.mp hfirst
  refine ⟨fault (lastName before) first, before, first, after, hsplit, ?_, of_decide_eq_true hfault,
    rfl⟩
  intro line hline
  simpa using hbefore line hline

end Runs

/-! ## The law of the contents -/

/-- What the sections of a file without a fault are to its lines. -/
structure Contents (lines : List (List Char)) (sections : List Section) : Prop where
  /-- The implicit section comes first. -/
  first : (sections.head?.map fun s => (s.name, s.line)) = some (defaultName, 0)
  /-- Every other section is one of the headers, and every header has a section of its name. -/
  headers : ((headings sections).tail).Sublist (headersOn lines)
  named : ∀ header ∈ headersOn lines, ∃ s ∈ sections, s.name = header.1
  sectionLines : sections.Pairwise (·.line < ·.line)
  propertyLines : ∀ s ∈ sections, s.properties.Pairwise (·.line < ·.line)
  /-- In the order of their lines, the properties are those of the file. -/
  complete : (propertiesOf sections).mergeSort (fun p q => p.line ≤ q.line) = propertiesOn lines
  /-- A property is in a section of the name on the nearest header above it. -/
  placed : ∀ s ∈ sections, ∀ p ∈ s.properties, s.name = nameAbove lines p.line

theorem Filled.contents {lines : List (List Char)} {d : Draft} (h : Filled lines d) :
    Contents lines d.sections := by
  obtain ⟨found, hfound, hsub⟩ := h.headings
  refine ⟨?_, ?_, h.named, ?_, h.ordered, ?_, h.placed⟩
  · rw [← List.head?_map]
    show (BehaviorFile.headings d.sections).head? = _
    rw [hfound]
    rfl
  · rw [hfound]
    exact hsub
  · have hlines : (BehaviorFile.headings d.sections).Pairwise (·.2 < ·.2) := by
      rw [hfound]
      refine List.pairwise_cons.mpr ⟨?_, (headersOn_increasing lines).sublist hsub⟩
      intro header hheader
      exact line_pos_of_mem_headersOn (hsub.subset hheader)
    exact List.Pairwise.of_map (fun s : Section => (s.name, s.line)) (fun _ _ h => h) hlines
  · have hsorted : ((propertiesOf d.sections).mergeSort (fun p q => p.line ≤ q.line)).Pairwise
        (fun p q => p.line ≤ q.line) := by
      have htrans : ∀ p q r : Property, decide (p.line ≤ q.line) = true →
          decide (q.line ≤ r.line) = true → decide (p.line ≤ r.line) = true := by
        intro p q r hpq hqr
        exact decide_eq_true (Nat.le_trans (of_decide_eq_true hpq) (of_decide_eq_true hqr))
      have htotal : ∀ p q : Property, (decide (p.line ≤ q.line) || decide (q.line ≤ p.line)) = true := by
        intro p q
        simpa using Nat.le_total p.line q.line
      exact (List.pairwise_mergeSort htrans htotal _).imp of_decide_eq_true
    have hperm := (List.mergeSort_perm (propertiesOf d.sections)
      (fun p q => p.line ≤ q.line)).trans h.complete
    refine hperm.eq_of_pairwise ?_ hsorted
      ((propertiesOn_increasing lines).imp fun hlt => Nat.le_of_lt hlt)
    intro p q hp hq hle hge
    exact eq_of_mem_propertiesOn (hperm.mem_iff.mp hp) hq (Nat.le_antisymm hle hge)

/-- **The law of the contents.** Under either policy a text is refused just if a header lacks a
name or a property lacks a key, with the error of the first such line. If it is read, its
sections have what its lines say, nothing more and nothing less, each property under the name
of the nearest header above it. -/
theorem ofText_contents (policy : DuplicatePolicy) (text : String) :
    (∀ e, ofText policy text = .error e ↔ FirstFault (textLines text) e) ∧
      ((∃ e, ofText policy text = .error e) ↔ ∃ raw ∈ textLines text, Faulty raw) ∧
      ∀ sections, ofText policy text = .ok sections → Contents (textLines text) sections := by
  have hfault : ∀ e, FirstFault (textLines text) e → ofText policy text = .error e := by
    intro e he
    show ofLines policy ((textLines text).map some) = _
    unfold ofLines
    rw [readAll_firstFault policy he]
    rfl
  by_cases hfaulty : ∃ raw ∈ textLines text, Faulty raw
  · obtain ⟨e, he⟩ := exists_firstFault hfaulty
    have herror := hfault e he
    refine ⟨fun e' => ⟨fun h => ?_, hfault e'⟩, ⟨fun _ => hfaulty, fun _ => ⟨e, herror⟩⟩, ?_⟩
    · rw [herror] at h
      exact Except.error.inj h ▸ he
    · intro sections h
      rw [herror] at h
      cases h
  · have hfaultless : ∀ raw ∈ textLines text, ¬Faulty raw :=
      fun raw hraw h => hfaulty ⟨raw, hraw, h⟩
    obtain ⟨d, hread, hfilled⟩ := readAll_faultless policy hfaultless
    have hok : ofText policy text = .ok d.sections := by
      show ofLines policy ((textLines text).map some) = _
      unfold ofLines
      rw [hread]
      rfl
    refine ⟨fun e => ⟨fun h => ?_, hfault e⟩, ⟨fun ⟨e, h⟩ => ?_, fun h => absurd h hfaulty⟩, ?_⟩
    · rw [hok] at h
      cases h
    · rw [hok] at h
      cases h
    · intro sections h
      rw [hok] at h
      exact Except.ok.inj h ▸ hfilled.contents

/-- A text that returns to a section, with a comment and a line that means nothing. -/
def returning : String :=
  "a = 1\n[x]\nk = v=w\n; c = d\n[y]\nno sign\n[ x ]\nz =\n"

theorem ofText_contents_returning :
    ∃ sections, ofText .merge returning = .ok sections ∧ Contents (textLines returning) sections ∧
      sections.map (·.line) = [0, 2, 5] ∧
      propertiesOn (textLines returning) = [⟨"a", "1", 1⟩, ⟨"k", "v=w", 3⟩, ⟨"z", "", 8⟩] :=
  have h : ofText .merge returning = .ok [⟨"default", 0, [⟨"a", "1", 1⟩]⟩,
      ⟨"x", 2, [⟨"k", "v=w", 3⟩, ⟨"z", "", 8⟩]⟩, ⟨"y", 5, []⟩] := by
    decide +kernel
  ⟨_, h, (ofText_contents .merge returning).2.2 _ h, rfl, by decide +kernel⟩

end StubServer.BehaviorFile
