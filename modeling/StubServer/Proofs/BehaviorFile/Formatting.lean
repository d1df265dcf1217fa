import StubServer.Proofs.BehaviorFile.Reading
import StubServer.Proofs.BehaviorFile.Spacing

/-!
# What does not matter in a text

Lines that mean nothing may come and go, and blanks may be added wherever they are trimmed off
again. `Reformat f` is one such change of a text, and `f` is where it moves the lines: a line
that comes pushes those below it down, and one that goes pulls them up.

The changes have in common that the two texts are the same, line by line, but for lines that
mean nothing:

> `Aligned f`: each line that is left says what its partner says, and `f` leads from its number
> to that of its partner.

So two readers can go through the texts side by side, one of them waiting while the other skips
a line (`Aligned.readAll`). Their drafts stay the same but for the numbers of lines, which `f`
moves. `Reformatted.saysTheSame` is the result, for any number of changes.
-/

namespace StubServer.BehaviorFile

/-! ## Texts with another format -/

/-- Where the lines go when one comes after the first lines of a given number. -/
def pushed (place : Nat) (number : Nat) : Nat :=
  if number ≤ place then number else number + 1

/-- Where they go when one is taken out there. -/
def pulled (place : Nat) (number : Nat) : Nat :=
  if number ≤ place then number else number - 1

/-- The text with a carriage return in front of each line feed. -/
def withReturns (text : String) : String :=
  String.ofList (text.toList.flatMap fun c => if c = '\n' then ['\r', '\n'] else [c])

/-- A change of the format of a text, and where it moves the lines. -/
inductive Reformat : (Nat → Nat) → String → String → Prop
  | insert {text text' : String} {before after : List (List Char)} {raw : List Char}
      (hidle : IsIdle raw) (htext : textLines text = before ++ after)
      (htext' : textLines text' = before ++ raw :: after) :
    Reformat (pushed before.length) text text'
  | delete {text text' : String} {before after : List (List Char)} {raw : List Char}
      (hidle : IsIdle raw) (htext : textLines text = before ++ raw :: after)
      (htext' : textLines text' = before ++ after) :
    Reformat (pulled before.length) text text'
  | space {text text' : String} {before after : List (List Char)} {raw raw' : List Char}
      (hspaced : Spaced raw raw') (htext : textLines text = before ++ raw :: after)
      (htext' : textLines text' = before ++ raw' :: after) :
    Reformat id text text'
  | lineEnds (text : String) : Reformat id text (withReturns text)

/-- Any number of such changes, one after the other. -/
inductive Reformatted : (Nat → Nat) → String → String → Prop
  | refl (text : String) : Reformatted id text text
  | step {f g : Nat → Nat} {text text' text'' : String} (h : Reformatted f text text')
      (hlast : Reformat g text' text'') : Reformatted (g ∘ f) text text''

/-! ## Lines side by side -/

/-- Two lists of lines, counted from two numbers, are the same but for lines that mean nothing,
and `f` leads from the number of a line to that of its partner. -/
inductive Aligned (f : Nat → Nat) : Nat → Nat → List (List Char) → List (List Char) → Prop
  | nil {number number' : Nat} : Aligned f number number' [] []
  | insert {number number' : Nat} {raw : List Char} {xs ys : List (List Char)}
      (hidle : Line.ofText raw = .skipped) (h : Aligned f number (number' + 1) xs ys) :
    Aligned f number number' xs (raw :: ys)
  | delete {number number' : Nat} {raw : List Char} {xs ys : List (List Char)}
      (hidle : Line.ofText raw = .skipped) (h : Aligned f (number + 1) number' xs ys) :
    Aligned f number number' (raw :: xs) ys
  | keep {number number' : Nat} {raw raw' : List Char} {xs ys : List (List Char)}
      (hsame : Line.ofText raw' = Line.ofText raw) (hnumber : f number = number')
      (h : Aligned f (number + 1) (number' + 1) xs ys) :
    Aligned f number number' (raw :: xs) (raw' :: ys)

section Alignment

variable {f : Nat → Nat} {number number' : Nat} {xs ys xs' ys' : List (List Char)}

theorem Aligned.append (h : Aligned f number number' xs ys) :
    Aligned f (number + xs.length) (number' + ys.length) xs' ys' →
      Aligned f number number' (xs ++ xs') (ys ++ ys') := by
  have hshift : ∀ (k : Nat) (raw : List Char) (rest : List (List Char)),
      k + (raw :: rest).length = k + 1 + rest.length := fun k raw rest => by
    rw [List.length_cons]
    omega
  induction h with
  | nil => exact id
  | insert hidle _ ih =>
    intro hrest
    rw [hshift] at hrest
    exact .insert hidle (ih hrest)
  | delete hidle _ ih =>
    intro hrest
    rw [hshift] at hrest
    exact .delete hidle (ih hrest)
  | keep hsame hnumber _ ih =>
    intro hrest
    rw [hshift, hshift] at hrest
    exact .keep hsame hnumber (ih hrest)

/-- Lines that say the same one by one, and all move by the same way. -/
theorem Aligned.of_forall₂ (h : List.Forall₂ (fun raw raw' => Line.ofText raw' = Line.ofText raw) xs ys) :
    ∀ {number number' : Nat}, (∀ i < xs.length, f (number + i) = number' + i) →
      Aligned f number number' xs ys := by
  induction h with
  | nil => exact fun _ => .nil
  | cons hsame _ ih =>
    intro number number' hf
    refine .keep hsame (hf 0 (Nat.zero_lt_succ _)) (ih fun i hi => ?_)
    have hnext := hf (i + 1) (Nat.succ_lt_succ hi)
    have hnumber : number + 1 + i = number + (i + 1) := by omega
    rw [hnumber, hnext]
    omega

theorem Aligned.same (hf : ∀ i < xs.length, f (number + i) = number' + i) :
    Aligned f number number' xs xs :=
  .of_forall₂ (List.forall₂_same.mpr fun _ _ => rfl) hf

end Alignment

/-! ## Every change aligns -/

/-- The carriage returns come to the ends of lines. -/
theorem textLines_withReturns (text : String) :
    List.Forall₂ (fun raw raw' => raw' = raw ∨ raw' = raw ++ ['\r']) (textLines text)
      (textLines (withReturns text)) := by
  unfold textLines withReturns
  rw [String.toList_ofList]
  generalize text.toList = cs
  induction cs with
  | nil => exact .cons (Or.inl rfl) .nil
  | cons c cs ih =>
    rw [List.flatMap_cons, List.splitOn_cons_eq_if_modifyHead]
    by_cases hc : c = '\n'
    · subst hc
      exact .cons (Or.inr rfl) ih
    · have hplain : (if c = '\n' then ['\r', '\n'] else [c]) = [c] := if_neg hc
      rw [hplain, List.singleton_append, List.splitOn_cons_eq_if_modifyHead, if_neg (by simpa using hc),
        if_neg (by simpa using hc)]
      -- the character is one more of the first line on either side
      generalize cs.splitOn '\n' = lines at ih ⊢
      generalize (cs.flatMap fun c => if c = '\n' then ['\r', '\n'] else [c]).splitOn '\n' = lines'
        at ih ⊢
      cases ih with
      | nil => exact .nil
      | cons hfirst hrest =>
        refine .cons ?_ hrest
        rcases hfirst with rfl | rfl
        · exact Or.inl rfl
        · exact Or.inr rfl

theorem Reformat.aligned {f : Nat → Nat} {text text' : String} (h : Reformat f text text') :
    f 0 = 0 ∧ Aligned f 1 1 (textLines text) (textLines text') := by
  cases h with
  | @insert _ _ before after raw hidle htext htext' =>
    rw [htext, htext']
    -- the lines above the place keep their numbers, those below it move by one
    have hbefore : ∀ i < before.length, pushed before.length (1 + i) = 1 + i := fun i hi =>
      if_pos (by omega)
    have hafter : ∀ i < after.length,
        pushed before.length (1 + before.length + i) = 1 + before.length + 1 + i := fun i _ => by
      rw [pushed, if_neg (by omega)]
      omega
    exact ⟨if_pos (Nat.zero_le _), (Aligned.same hbefore).append
      (.insert (Line.ofText_eq_skipped.mpr hidle) (.same hafter))⟩
  | @delete _ _ before after raw hidle htext htext' =>
    rw [htext, htext']
    have hbefore : ∀ i < before.length, pulled before.length (1 + i) = 1 + i := fun i hi =>
      if_pos (by omega)
    have hafter : ∀ i < after.length,
        pulled before.length (1 + before.length + 1 + i) = 1 + before.length + i := fun i _ => by
      rw [pulled, if_neg (by omega)]
      omega
    exact ⟨if_pos (Nat.zero_le _), (Aligned.same hbefore).append
      (.delete (Line.ofText_eq_skipped.mpr hidle) (.same hafter))⟩
  | space hspaced htext htext' =>
    rw [htext, htext']
    exact ⟨rfl, (Aligned.same fun _ _ => rfl).append
      (.keep hspaced.ofText rfl (.same fun _ _ => rfl))⟩
  | lineEnds =>
    refine ⟨rfl, .of_forall₂ ((textLines_withReturns text).imp ?_) fun _ _ => rfl⟩
    rintro raw _ (rfl | rfl)
    · rfl
    · have hspaced : Spaced raw ([] ++ raw ++ ['\r']) :=
        .ends (List.forall_mem_nil _) (List.forall_mem_singleton.mpr (by decide))
      exact hspaced.ofText

/-! ## Two readers side by side -/

/-- A property that stands on another line. -/
def Property.moved (f : Nat → Nat) (p : Property) : Property :=
  { p with line := f p.line }

/-- A section that stands on other lines. -/
def Section.moved (f : Nat → Nat) (s : Section) : Section :=
  { s with line := f s.line, properties := s.properties.map (·.moved f) }

/-- A draft of sections that stand on other lines. -/
def Draft.moved (f : Nat → Nat) (d : Draft) : Draft :=
  ⟨d.before.map (·.moved f), d.current.moved f, d.after.map (·.moved f)⟩

namespace Draft

variable {f : Nat → Nat}

theorem sections_moved (d : Draft) : (d.moved f).sections = d.sections.map (·.moved f) := by
  unfold sections moved
  rw [List.map_append, List.map_cons]

theorem openSection_moved (policy : DuplicatePolicy) (d : Draft) (name : String) (number : Nat) :
    (d.moved f).openSection policy name (f number) = (d.openSection policy name number).moved f := by
  have happend : (d.moved f).append name (f number) = (d.append name number).moved f := by
    unfold append
    rw [sections_moved]
    rfl
  cases policy with
  | keepApart => exact happend
  | merge =>
    show (d.moved f).returnTo name (f number) = (d.returnTo name number).moved f
    -- a section keeps its name, so the same one is returned to
    have hname : ((·.name != name) ∘ Section.moved f) = (·.name != name) := rfl
    unfold returnTo
    rw [sections_moved, List.dropWhile_map, List.takeWhile_map, hname]
    cases d.sections.dropWhile (·.name != name) with
    | nil => exact happend
    | cons found rest => rfl

theorem put_moved (d : Draft) (p : Property) : (d.moved f).put (p.moved f) = (d.put p).moved f := by
  unfold put moved Section.moved
  rw [List.map_append]
  rfl

/-- A line does the same wherever it stands. -/
theorem read_moved (policy : DuplicatePolicy) (d : Draft) (number : Nat) (line : Line) :
    (d.moved f).read policy (f number) line = (d.read policy number line).map (·.moved f) := by
  cases line with
  | skipped => rfl
  | header name =>
    simp only [read]
    by_cases hname : name.isEmpty = true
    · rw [if_pos hname, if_pos hname]
      rfl
    · rw [if_neg hname, if_neg hname, openSection_moved]
      rfl
  | property key value =>
    simp only [read]
    by_cases hkey : key.isEmpty = true
    · rw [if_pos hkey, if_pos hkey]
      rfl
    · rw [if_neg hkey, if_neg hkey]
      exact congrArg Except.ok (d.put_moved ⟨key, value, number⟩)

end Draft

section Readers

variable {f : Nat → Nat} {number number' : Nat} {xs ys : List (List Char)}

/-- Aligned lines are read alike: both readers go on, or a line is a fault for both. -/
theorem Aligned.readAll (policy : DuplicatePolicy) (h : Aligned f number number' xs ys) :
    ∀ d : Draft, (d.moved f).readAll policy number' (ys.map some) =
      (d.readAll policy number (xs.map some)).map (·.moved f) := by
  induction h with
  | nil => exact fun d => rfl
  | insert hidle _ ih =>
    intro d
    rw [List.map_cons, Draft.readAll, hidle]
    exact ih d
  | delete hidle _ ih =>
    intro d
    rw [List.map_cons, Draft.readAll, hidle]
    exact ih d
  | @keep number number' raw raw' xs ys hsame hnumber _ ih =>
    intro d
    rw [List.map_cons, List.map_cons, Draft.readAll, Draft.readAll, hsame, ← hnumber, Draft.read_moved]
    cases d.read policy number (.ofText raw) with
    | error e => rfl
    | ok next =>
      rw [hnumber]
      exact ih next

/-- A line that means something has a partner that says the same. -/
theorem Aligned.partner (h : Aligned f number number' xs ys) :
    ∀ {i : Nat} {raw : List Char}, xs[i]? = some raw → Line.ofText raw ≠ .skipped →
      ∃ j raw', f (number + i) = number' + j ∧ ys[j]? = some raw' ∧
        Line.ofText raw' = Line.ofText raw := by
  induction h with
  | nil =>
    intro i raw hraw
    cases hraw
  | insert _ _ ih =>
    intro i raw hraw hmeans
    obtain ⟨j, raw', hf, hraw', hsame⟩ := ih hraw hmeans
    exact ⟨j + 1, raw', by omega, hraw', hsame⟩
  | @delete number number' first xs ys hidle _ ih =>
    intro i raw hraw hmeans
    cases i with
    | zero =>
      obtain rfl := Option.some.inj hraw
      exact absurd hidle hmeans
    | succ i =>
      obtain ⟨j, raw', hf, hraw', hsame⟩ := ih hraw hmeans
      have hnext : number + (i + 1) = number + 1 + i := by omega
      rw [hnext]
      exact ⟨j, raw', hf, hraw', hsame⟩
  | @keep number number' first first' xs ys hsame hnumber _ ih =>
    intro i raw hraw hmeans
    cases i with
    | zero =>
      obtain rfl := Option.some.inj hraw
      exact ⟨0, first', hnumber, rfl, hsame⟩
    | succ i =>
      obtain ⟨j, raw', hf, hraw', hsame'⟩ := ih hraw hmeans
      have hnext : number + (i + 1) = number + 1 + i := by omega
      refine ⟨j + 1, raw', ?_, hraw', hsame'⟩
      rw [hnext, hf]
      omega

end Readers

/-! ## The same sections on other lines -/

/-- What two texts have in common that differ in their format: every line that means something
is in both, the sections are the same, and `f` leads from the lines of the one to those of the
other. -/
structure SaysTheSame (f : Nat → Nat) (text text' : String) : Prop where
  lines : ∀ {number line}, line ≠ .skipped → StandsAt ((textLines text).map some) number line →
    StandsAt ((textLines text').map some) (f number) line
  sections : ∀ policy,
    ofText policy text' = (ofText policy text).map fun sections => sections.map (·.moved f)

namespace SaysTheSame

variable {f g : Nat → Nat} {text text' text'' : String}

theorem refl (text : String) : SaysTheSame id text text := by
  refine ⟨fun _ h => h, fun policy => ?_⟩
  have hmoved : Section.moved id = id := by
    funext s
    have hproperties : s.properties.map (·.moved id) = s.properties := List.map_id _
    unfold Section.moved
    rw [hproperties]
    rfl
  rw [hmoved]
  cases ofText policy text with
  | error e => rfl
  | ok sections => exact congrArg Except.ok (List.map_id sections).symm

theorem trans (h : SaysTheSame f text text') (h' : SaysTheSame g text' text'') :
    SaysTheSame (g ∘ f) text text'' := by
  refine ⟨fun hmeans hstands => h'.lines hmeans (h.lines hmeans hstands), fun policy => ?_⟩
  rw [h'.sections, h.sections]
  cases ofText policy text with
  | error e => rfl
  | ok sections =>
    have hmoved : ∀ s : Section, (s.moved f).moved g = s.moved (g ∘ f) := by
      intro s
      unfold Section.moved
      rw [List.map_map]
      rfl
    refine congrArg Except.ok (List.map_map.trans ?_)
    exact List.map_congr_left fun s _ => hmoved s

/-- Texts whose lines are aligned say the same. -/
theorem of_aligned (hstart : f 0 = 0) (h : Aligned f 1 1 (textLines text) (textLines text')) :
    SaysTheSame f text text' := by
  refine ⟨?_, fun policy => ?_⟩
  · rintro number line hmeans ⟨i, raw, rfl, hraw, rfl⟩
    rw [List.getElem?_map] at hraw
    obtain ⟨_, hline, hsame⟩ := Option.map_eq_some_iff.mp hraw
    obtain rfl := Option.some.inj hsame
    obtain ⟨j, raw', hf, hraw', hsays⟩ := h.partner hline hmeans
    refine ⟨j, raw', by rw [Nat.add_comm i 1, hf, Nat.add_comm], ?_, hsays⟩
    rw [List.getElem?_map, hraw']
    rfl
  · -- the implicit section stands on line 0, above all lines that move
    have hdraft : Draft.start.moved f = Draft.start := by
      unfold Draft.start Draft.moved Section.moved
      rw [hstart]
      rfl
    have hread := h.readAll policy .start
    rw [hdraft] at hread
    show ofLines policy ((textLines text').map some) =
      (ofLines policy ((textLines text).map some)).map _
    unfold ofLines
    rw [hread]
    cases Draft.start.readAll policy 1 ((textLines text).map some) with
    | error e => rfl
    | ok d => exact congrArg Except.ok d.sections_moved

end SaysTheSame

/-- A text in another format says the same. -/
theorem Reformatted.saysTheSame {f : Nat → Nat} {text text' : String}
    (h : Reformatted f text text') : SaysTheSame f text text' := by
  induction h with
  | refl text => exact .refl text
  | step _ hlast ih =>
    obtain ⟨hstart, haligned⟩ := hlast.aligned
    exact ih.trans (.of_aligned hstart haligned)

end StubServer.BehaviorFile
