import StubServer.BehaviorFile.Section

/-!
# What a reader finds, and where

The reader goes through a file once, so what it ends with is decided line by line.
`Draft.read_eq_ok` says all that one line can do to a draft, and `Draft.readAll_keeps` lifts
what every line keeps to whole files; `Draft.readAll_append` lets a file be read in two parts.

One such invariant is where things come from:

> `Sourced`: a section is the implicit one or stands in the file as a header of its name, and
> each of its properties stands there as a property of its key and value, each on the line of
> its number.

It holds under either policy (`ofLines_sourced`), because a line number is never changed once
it is written down.
-/

namespace StubServer.BehaviorFile

/-! ## One line -/

namespace Draft

variable {policy : DuplicatePolicy} {d d' : Draft} {number : Nat}

/-- All that a line can do to a draft. -/
theorem read_eq_ok {line : Line} : d.read policy number line = .ok d' ↔
    (line = .skipped ∧ d = d') ∨
    (∃ name, line = .header name ∧ name ≠ "" ∧ d.openSection policy name number = d') ∨
    (∃ key value, line = .property key value ∧ key ≠ "" ∧ d.put ⟨key, value, number⟩ = d') := by
  cases line with
  | skipped => simp [read]
  | header name =>
    by_cases h : name = ""
    · simp [read, h]
    · simp [read, h]
  | property key value =>
    by_cases h : key = ""
    · simp [read, h]
    · simp [read, h, and_assoc]

/-- A header leaves the sections as they are, or adds an empty one at the end. -/
theorem sections_openSection (policy : DuplicatePolicy) (d : Draft) (name : String) (number : Nat) :
    (d.openSection policy name number).sections = d.sections ∨
      (d.openSection policy name number).sections = d.sections ++ [⟨name, number, []⟩] := by
  cases policy with
  | keepApart => exact Or.inr rfl
  | merge =>
    show (d.returnTo name number).sections = _ ∨ (d.returnTo name number).sections = _
    unfold returnTo
    split
    next => exact Or.inr rfl
    next found rest hfound =>
      -- the draft is cut in two at another place, and has the same sections
      have hsame := List.takeWhile_append_dropWhile (p := (·.name != name)) (l := d.sections)
      rw [hfound] at hsame
      exact Or.inl hsame

/-- A header leaves every section as it is, and may add an empty one. -/
theorem mem_openSection {name : String} {s : Section}
    (h : s ∈ (d.openSection policy name number).sections) :
    s ∈ d.sections ∨ s = ⟨name, number, []⟩ := by
  rcases sections_openSection policy d name number with hsame | hmore
  · exact Or.inl (hsame ▸ h)
  · rw [hmore] at h
    rcases List.mem_append.mp h with hold | hnew
    · exact Or.inl hold
    · exact Or.inr (List.mem_singleton.mp hnew)

/-- A property changes the section that is being filled and no other. -/
theorem mem_put {p : Property} {s : Section} (h : s ∈ (d.put p).sections) :
    s ∈ d.sections ∨
      s = ⟨d.current.name, d.current.line, d.current.properties ++ [p]⟩ := by
  unfold sections at h ⊢
  rcases List.mem_append.mp h with hbefore | hrest
  · exact Or.inl (List.mem_append_left _ hbefore)
  · rcases List.mem_cons.mp hrest with hcurrent | hafter
    · exact Or.inr hcurrent
    · exact Or.inl (List.mem_append_right _ (List.mem_cons_of_mem _ hafter))

theorem current_mem (d : Draft) : d.current ∈ d.sections :=
  List.mem_append_right _ (List.mem_cons_self ..)

/-! ## All lines -/

/-- A file can be read in two parts. -/
theorem readAll_append (policy : DuplicatePolicy) : ∀ (xs ys : List (Option (List Char)))
    (d : Draft) (number : Nat), d.readAll policy number (xs ++ ys) =
      d.readAll policy number xs >>= fun next => next.readAll policy (number + xs.length) ys
  | [], _, _, _ => rfl
  | none :: _, _, _, _ => rfl
  | some raw :: rest, ys, d, number => by
    rw [List.cons_append, readAll, readAll, List.length_cons]
    cases d.read policy number (.ofText raw) with
    | error e => rfl
    | ok next =>
      have hnumber : number + (rest.length + 1) = number + 1 + rest.length := by omega
      rw [hnumber]
      exact readAll_append policy rest ys next (number + 1)

/-- A file keeps what each of its lines keeps. -/
theorem readAll_keeps {P : Nat → Draft → Prop} : ∀ (lines : List (Option (List Char)))
    {d d' : Draft} {number : Nat},
    (∀ {i raw d d'}, lines[i]? = some (some raw) → P (number + i) d →
      d.read policy (number + i) (.ofText raw) = .ok d' → P (number + i + 1) d') →
    P number d → d.readAll policy number lines = .ok d' → P (number + lines.length) d' := by
  intro lines
  induction lines with
  | nil =>
    intro d d' number _ hd h
    rw [← Except.ok.inj h]
    exact hd
  | cons line rest ih =>
    intro d d' number hstep hd h
    cases line with
    | none => cases h
    | some raw =>
      rw [readAll] at h
      cases hnext : d.read policy number (.ofText raw) with
      | error e => rw [hnext] at h; cases h
      | ok next =>
        rw [hnext] at h
        have hlength : number + (some raw :: rest).length = number + 1 + rest.length := by
          rw [List.length_cons]
          omega
        rw [hlength]
        refine ih ?_ (hstep (i := 0) rfl hd hnext) h
        intro i raw' d d' hline hd' hread
        have hnumber : number + 1 + i = number + (i + 1) := by omega
        rw [hnumber] at hd' hread ⊢
        exact hstep (i := i + 1) hline hd' hread

end Draft

/-! ## Lines of a text -/

/-- A separator is in none of the parts that it separates. -/
theorem notMem_of_mem_splitOn {α : Type} [BEq α] [LawfulBEq α] (sep : α) :
    ∀ (xs : List α), ∀ part ∈ xs.splitOn sep, sep ∉ part
  | [], part, h => by
    rw [List.splitOn_nil] at h
    rw [List.mem_singleton.mp h]
    exact List.not_mem_nil
  | x :: xs, part, h => by
    have ih := notMem_of_mem_splitOn sep xs
    rw [List.splitOn_cons_eq_if_modifyHead] at h
    split at h
    next =>
      rcases List.mem_cons.mp h with rfl | hlater
      · exact List.not_mem_nil
      · exact ih part hlater
    next hx =>
      -- the element is one more of the first part
      cases hparts : xs.splitOn sep with
      | nil => exact absurd hparts (List.splitOn_ne_nil _ _)
      | cons first rest =>
        rw [hparts] at h ih
        rcases List.mem_cons.mp h with rfl | hlater
        · intro hmem
          rcases List.mem_cons.mp hmem with rfl | hin
          · exact hx BEq.rfl
          · exact ih first (List.mem_cons_self ..) hin
        · exact ih part (List.mem_cons_of_mem _ hlater)

/-- The lines of a text. -/
def textLines (text : String) : List (List Char) :=
  text.toList.splitOn '\n'

/-- No line of a text has a line feed. -/
theorem newline_notMem_textLines (text : String) : ∀ line ∈ textLines text, '\n' ∉ line :=
  notMem_of_mem_splitOn '\n' text.toList

/-- The first lines of a text. -/
def firstLines (n : Nat) (text : String) : String :=
  String.ofList (['\n'].intercalate ((textLines text).take n))

/-- The first lines of a text are read as they are in it. -/
theorem ofText_firstLines (policy : DuplicatePolicy) (n : Nat) (text : String) :
    ofText policy (firstLines n text) = ofLines policy (((textLines text).take n).map some) := by
  unfold ofText firstLines
  rw [String.toList_ofList]
  by_cases h : (textLines text).take n = []
  · -- no line and one empty line mean the same
    rw [h]
    rfl
  · rw [List.splitOn_intercalate _ ?_ h]
    intro line hline
    exact newline_notMem_textLines text line (List.mem_of_mem_take hline)

/-! ## Where sections and properties come from -/

/-- The line of a given number, counted from one, is text and means something. -/
def StandsAt (lines : List (Option (List Char))) (number : Nat) (line : Line) : Prop :=
  ∃ i raw, number = i + 1 ∧ lines[i]? = some (some raw) ∧ Line.ofText raw = line

/-- Everything about a section stands in the file. -/
structure Sourced (lines : List (Option (List Char))) (s : Section) : Prop where
  header : (s.name = defaultName ∧ s.line = 0) ∨
    (s.name ≠ "" ∧ StandsAt lines s.line (.header s.name))
  properties : ∀ p ∈ s.properties, p.name ≠ "" ∧ StandsAt lines p.line (.property p.name p.value)

/-- Everything that a reader finds stands on the line of its number. -/
theorem ofLines_sourced {policy : DuplicatePolicy} {lines : List (Option (List Char))}
    {sections : List Section} (h : ofLines policy lines = .ok sections) :
    ∀ s ∈ sections, Sourced lines s := by
  have hstart : ∀ s ∈ Draft.start.sections, Sourced lines s := by
    intro s hs
    rw [List.mem_singleton.mp hs]
    exact ⟨Or.inl ⟨rfl, rfl⟩, fun p hp => absurd hp List.not_mem_nil⟩
  unfold ofLines at h
  cases hread : Draft.start.readAll policy 1 lines with
  | error e => rw [hread] at h; cases h
  | ok d =>
    rw [hread] at h
    rw [← Except.ok.inj h]
    refine Draft.readAll_keeps (P := fun _ d => ∀ s ∈ d.sections, Sourced lines s) lines ?_ hstart
      hread
    intro i raw d d' hline hd hstep
    have hstands : StandsAt lines (1 + i) (.ofText raw) := ⟨i, raw, Nat.add_comm 1 i, hline, rfl⟩
    rcases Draft.read_eq_ok.mp hstep with ⟨-, rfl⟩ | ⟨name, hname, hne, rfl⟩ | ⟨key, value, hkey, hne, rfl⟩
    · exact hd
    · intro s hs
      rcases Draft.mem_openSection hs with hold | rfl
      · exact hd s hold
      · rw [hname] at hstands
        exact ⟨Or.inr ⟨hne, hstands⟩, fun p hp => absurd hp List.not_mem_nil⟩
    · intro s hs
      rcases Draft.mem_put hs with hold | rfl
      · exact hd s hold
      · -- the section that is being filled keeps its header and its properties so far
        have hcurrent := hd _ d.current_mem
        refine ⟨hcurrent.header, fun p hp => ?_⟩
        rcases List.mem_append.mp hp with hp | hp
        · exact hcurrent.properties p hp
        · rw [List.mem_singleton.mp hp]
          rw [hkey] at hstands
          exact ⟨hne, hstands⟩

end StubServer.BehaviorFile
