import StubServer.Behavior.Compile
import StubServer.Proofs.BehaviorFile.Formatting

/-!
# What does not matter in a behavior file

A change of the format of a text leaves its sections alone, but for the numbers of their lines
(`Reformatted.saysTheSame`). The compiler looks at these numbers only to put them into an error:

> `BehaviorSet.compile_moved`: sections on other lines have the same behaviors, or the same
> fault on the line where it is now.

So the format of a file does not matter for what the file means.
-/

namespace StubServer

open BehaviorFile (DuplicatePolicy Property Reformat Reformatted SaysTheSame Section ofText pulled
  pushed withReturns)

/-- A fault on another line. -/
def CompileError.moved (f : Nat → Nat) : CompileError → CompileError
  | header line text fault => header (f line) text fault
  | property line text fault => property (f line) text fault

/-- An error of a sequence is that of one of its parts. -/
theorem mapError_bind {ε ε' α β : Type} (g : ε → ε') (x : Except ε α) (next : α → Except ε β) :
    (x >>= next).mapError g = x.mapError g >>= fun a => (next a).mapError g := by
  cases x <;> rfl

section Moved

variable {f : Nat → Nat} {now : Time.Instant}

theorem Draft.put_moved (d : Draft) (p : Property) :
    d.put now (p.moved f) = (d.put now p).mapError (·.moved f) := by
  have hread : Edit.read now d.hasCookie (p.moved f) = Edit.read now d.hasCookie p := rfl
  unfold put
  rw [hread]
  cases Edit.read now d.hasCookie p <;> rfl

theorem Draft.putAll_moved : ∀ (properties : List Property) (d : Draft),
    d.putAll now (properties.map (·.moved f)) = (d.putAll now properties).mapError (·.moved f)
  | [], _ => rfl
  | p :: rest, d => by
    rw [List.map_cons, putAll, putAll, mapError_bind, put_moved]
    cases d.put now p with
    | error e => rfl
    | ok next => exact putAll_moved rest next

theorem Behavior.ofSection_moved (s : Section) :
    ofSection now (s.moved f) = (ofSection now s).mapError (·.moved f) := by
  unfold ofSection Section.moved
  dsimp only
  cases routeOf s.name with
  | error fault => rfl
  | ok route =>
    dsimp only
    rw [mapError_bind, Draft.putAll_moved]
    rfl

theorem Response.withDefaults_moved (fallback : Option Response) (s : Section) :
    withDefaults now fallback (s.moved f) = (withDefaults now fallback s).mapError (·.moved f) := by
  unfold withDefaults
  rw [mapError_bind]
  show Draft.putAll now _ (s.properties.map (·.moved f)) >>= _ = _
  rw [Draft.putAll_moved]
  rfl

namespace BehaviorSet

theorem add_moved (set : BehaviorSet) (s : Section) :
    set.add now (s.moved f) = (set.add now s).mapError (·.moved f) := by
  unfold add
  show (if s.name = BehaviorFile.defaultName then _ else _) = _
  split
  · rw [mapError_bind, Response.withDefaults_moved]
    rfl
  · rw [mapError_bind, Behavior.ofSection_moved]
    rfl

theorem addAll_moved : ∀ (sections : List Section) (set : BehaviorSet),
    set.addAll now (sections.map (·.moved f)) = (set.addAll now sections).mapError (·.moved f)
  | [], _ => rfl
  | s :: rest, set => by
    rw [List.map_cons, addAll, addAll, mapError_bind, add_moved]
    cases set.add now s with
    | error e => rfl
    | ok next => exact addAll_moved rest next

/-- Sections on other lines mean the same, and a fault moves with its line. -/
theorem compile_moved (now : Time.Instant) (f : Nat → Nat) (sections : List Section) :
    compile now (sections.map (·.moved f)) = (compile now sections).mapError (·.moved f) :=
  addAll_moved sections {}

end BehaviorSet

end Moved

/-- What two behavior files have in common that differ in their format: besides having the same
sections, they mean the same behaviors, or have the same fault, on the line to which `f`
leads. -/
structure MeansTheSame (f : Nat → Nat) (text text' : String) : Prop extends
    SaysTheSame f text text' where
  behaviors : ∀ {policy sections sections'} now, ofText policy text = .ok sections →
    ofText policy text' = .ok sections' →
      BehaviorSet.compile now sections' = (BehaviorSet.compile now sections).mapError (·.moved f)

/-- **Format does not matter.** Lines that are blank, comments, or neither in brackets nor with
an equals sign may be inserted and deleted anywhere; blanks may be added at the ends of any
line, just inside the brackets of a header and around the first equals sign of a property; line
feeds may become carriage returns with line feeds. Under either policy the text is refused with
the same error, or has the same sections with the same properties in the same order, on the
lines to which they have moved; and these mean the same behaviors, or have the same fault. -/
theorem BehaviorSet.compile_reformatted {f : Nat → Nat} {text text' : String}
    (h : Reformatted f text text') : MeansTheSame f text text' where
  toSaysTheSame := h.saysTheSame
  behaviors := by
    intro policy sections sections' now hread hread'
    have hsections := h.saysTheSame.sections policy
    rw [hread, hread'] at hsections
    rw [Except.ok.inj hsections]
    exact compile_moved now f sections

/-- A file with a fault on its third line, written as closely as can be. -/
def compact : String :=
  "[GET /a]\nbody=x\ndelay=5\n"

/-- The same file with a comment, blanks and carriage returns, and without its last line. -/
def spacious : String :=
  "; a note\r\n[ GET /a ]\r\nbody \t=  x\r\ndelay=5"

/-- Each kind of change once. -/
theorem reformatted_spacious :
    Reformatted (id ∘ pulled 4 ∘ id ∘ id ∘ pushed 0 ∘ id) compact spacious := by
  have hnote : Reformat (pushed 0) compact "; a note\n[GET /a]\nbody=x\ndelay=5\n" :=
    @Reformat.insert _ _ [] _ "; a note".toList (by decide +kernel) rfl (by decide +kernel)
  have hname : Reformat id "; a note\n[GET /a]\nbody=x\ndelay=5\n"
      "; a note\n[ GET /a ]\nbody=x\ndelay=5\n" :=
    @Reformat.space _ _ ["; a note".toList] ["body=x".toList, "delay=5".toList, []] _ _
      (@BehaviorFile.Spaced.brackets "GET /a".toList [] [] [' '] [' '] (by decide) (by decide)
        (by decide) (by decide)) (by decide +kernel) (by decide +kernel)
  have hsign : Reformat id "; a note\n[ GET /a ]\nbody=x\ndelay=5\n"
      "; a note\n[ GET /a ]\nbody \t=  x\ndelay=5\n" :=
    @Reformat.space _ _ ["; a note".toList, "[ GET /a ]".toList] ["delay=5".toList, []] _ _
      (@BehaviorFile.Spaced.sign "body".toList "x".toList [' ', '\t'] [' ', ' '] (by decide)
        (by decide +kernel) (by decide) (by decide)) (by decide +kernel) (by decide +kernel)
  have hlast : Reformat (pulled 4) "; a note\n[ GET /a ]\nbody \t=  x\ndelay=5\n"
      "; a note\n[ GET /a ]\nbody \t=  x\ndelay=5" :=
    @Reformat.delete _ _ ["; a note".toList, "[ GET /a ]".toList, "body \t=  x".toList,
      "delay=5".toList] [] [] (by decide +kernel) (by decide +kernel) (by decide +kernel)
  have hreturns : withReturns "; a note\n[ GET /a ]\nbody \t=  x\ndelay=5" = spacious := by
    decide +kernel
  exact (((((Reformatted.refl compact).step hnote).step hname).step hsign).step hlast).step
    (hreturns ▸ .lineEnds _)

theorem BehaviorSet.compile_reformatted_spacious :
    Reformatted (id ∘ pulled 4 ∘ id ∘ id ∘ pushed 0 ∘ id) compact spacious ∧
      MeansTheSame (id ∘ pulled 4 ∘ id ∘ id ∘ pushed 0 ∘ id) compact spacious ∧
      ∃ sections sections', ofText .merge compact = .ok sections ∧
        ofText .merge spacious = .ok sections' ∧
        compile .epoch sections = .error (.property 3 "delay=5" .delay) ∧
        compile .epoch sections' = .error (.property 4 "delay=5" .delay) := by
  have hmeans := compile_reformatted reformatted_spacious
  have hread : ofText .merge compact =
      .ok [⟨"default", 0, []⟩, ⟨"GET /a", 1, [⟨"body", "x", 2⟩, ⟨"delay", "5", 3⟩]⟩] := by
    decide +kernel
  have hread' : ofText .merge spacious =
      .ok [⟨"default", 0, []⟩, ⟨"GET /a", 2, [⟨"body", "x", 3⟩, ⟨"delay", "5", 4⟩]⟩] := by
    decide +kernel
  have hfault : compile .epoch [⟨"default", 0, []⟩,
      ⟨"GET /a", 1, [⟨"body", "x", 2⟩, ⟨"delay", "5", 3⟩]⟩] =
        .error (.property 3 "delay=5" .delay) := by
    decide +kernel
  refine ⟨reformatted_spacious, hmeans, _, _, hread, hread', hfault, ?_⟩
  rw [hmeans.behaviors .epoch hread hread', hfault]
  rfl

end StubServer
