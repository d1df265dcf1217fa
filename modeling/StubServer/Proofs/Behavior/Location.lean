import StubServer.Proofs.Behavior.Compiled
import StubServer.Proofs.BehaviorFile.Grouping
import StubServer.Proofs.BehaviorFile.Lines
import StubServer.Proofs.BehaviorFile.Reading

/-!
# Where a fault is

A fault is found long after its line was read: the line number has gone through sections that
may have been merged, and comes out of the checks of some header or property. It is still the
number of a line of the file, and the error shows what stands there.

Whichever way the fault was found, the error is that of the header or of a property of some
section (`compile_eq_error`), and both stand in the file where they say (`ofLines_sourced`).

If duplicates are kept apart there is more to say, because then the sections are compiled in
the order of their lines:

> `compile_read`: one more line keeps the fault that there is, and a fault that was not there
> before it is that of this line.

So the first line with which a file does not compile any more is the one that the error names
(`compile_firstFault`). `compile_located` puts the two together.
-/

namespace StubServer

open BehaviorFile (DuplicatePolicy Line Property Section StandsAt firstLines kept ofLines ofText
  textLines)

/-! ## What an error is about -/

/-- An error is about the header of a section or about one of its properties. -/
def CompileError.Concerns (s : Section) : CompileError → Prop
  | .header line text _ => s.name ≠ BehaviorFile.defaultName ∧ line = s.line ∧ text = s.name
  | .property line text _ => ∃ p ∈ s.properties, line = p.line ∧ text = shown p

section Errors

variable {now : Time.Instant}

theorem Draft.put_eq_error {d : Draft} {p : Property} {e : CompileError} (h : d.put now p = .error e) :
    ∃ fault, e = .property p.line (shown p) fault := by
  unfold put at h
  split at h
  next => cases h
  next fault _ => exact ⟨fault, (Except.error.inj h).symm⟩

theorem Draft.putAll_eq_error {e : CompileError} : ∀ (properties : List Property) {d : Draft},
    d.putAll now properties = .error e → ∃ p ∈ properties, ∃ fault, e = .property p.line (shown p) fault
  | [], _, h => by cases h
  | p :: rest, d, h => by
    rw [putAll] at h
    cases hput : d.put now p with
    | error e' =>
      rw [hput] at h
      rw [← Except.error.inj h]
      exact ⟨p, List.mem_cons_self .., put_eq_error hput⟩
    | ok next =>
      rw [hput] at h
      obtain ⟨q, hq, hfault⟩ := putAll_eq_error rest h
      exact ⟨q, List.mem_cons_of_mem _ hq, hfault⟩

namespace BehaviorSet

/-- The header of a section is refused, or its properties fill some draft. Which of these, and
which draft, does not depend on the properties. -/
theorem add_cases (now : Time.Instant) (set : BehaviorSet) (name : String) (line : Nat) :
    (name ≠ BehaviorFile.defaultName ∧ ∃ fault, ∀ properties,
      set.add now ⟨name, line, properties⟩ = .error (.header line name fault)) ∨
    ∃ (start : Draft) (finish : Draft → BehaviorSet), ∀ properties,
      set.add now ⟨name, line, properties⟩ =
        start.putAll now properties >>= fun d => .ok (finish d) := by
  by_cases hname : name = BehaviorFile.defaultName
  · refine Or.inr ⟨{ response := set.fallback.getD {} },
      fun d => { set with fallback := some d.response }, fun properties => ?_⟩
    unfold add Response.withDefaults
    rw [if_pos hname]
    dsimp only
    cases Draft.putAll now { response := set.fallback.getD {} } properties <;> rfl
  · cases hroute : routeOf name with
    | error fault =>
      refine Or.inl ⟨hname, fault, fun properties => ?_⟩
      unfold add Behavior.ofSection
      rw [if_neg hname]
      dsimp only
      rw [hroute]
      rfl
    | ok route =>
      refine Or.inr ⟨{}, fun d => { set with behaviors := set.behaviors ++
        [⟨route.1, route.2, d.repetitions, d.response⟩] }, fun properties => ?_⟩
      unfold add Behavior.ofSection
      rw [if_neg hname]
      dsimp only
      rw [hroute]
      dsimp only
      cases Draft.putAll now {} properties <;> rfl

/-- A section is refused for its header or for one of its properties. -/
theorem add_eq_error {set : BehaviorSet} {s : Section} {e : CompileError}
    (h : set.add now s = .error e) : e.Concerns s := by
  obtain ⟨name, line, properties⟩ := s
  rcases add_cases now set name line with ⟨hname, fault, hadd⟩ | ⟨start, finish, hadd⟩
  · rw [hadd] at h
    rw [← Except.error.inj h]
    exact ⟨hname, rfl, rfl⟩
  · rw [hadd] at h
    cases hput : start.putAll now properties with
    | ok d => rw [hput] at h; cases h
    | error e' =>
      rw [hput] at h
      obtain ⟨p, hp, fault, rfl⟩ := Draft.putAll_eq_error properties hput
      rw [← Except.error.inj h]
      exact ⟨p, hp, rfl, rfl⟩

theorem addAll_eq_error {e : CompileError} : ∀ (sections : List Section) {set : BehaviorSet},
    set.addAll now sections = .error e → ∃ s ∈ sections, e.Concerns s
  | [], _, h => by cases h
  | s :: rest, set, h => by
    rw [addAll] at h
    cases hadd : set.add now s with
    | error e' =>
      rw [hadd] at h
      rw [← Except.error.inj h]
      exact ⟨s, List.mem_cons_self .., add_eq_error hadd⟩
    | ok next =>
      rw [hadd] at h
      obtain ⟨t, ht, hconcerns⟩ := addAll_eq_error rest h
      exact ⟨t, List.mem_cons_of_mem _ ht, hconcerns⟩

/-- An error is about one of the sections. -/
theorem compile_eq_error {sections : List Section} {e : CompileError}
    (h : compile now sections = .error e) : ∃ s ∈ sections, e.Concerns s :=
  addAll_eq_error sections h

end BehaviorSet

end Errors

/-! ## What an error shows -/

/-- The error shows what a line says: the name in its brackets, or the key and the value
around its first equals sign. -/
def CompileError.Shows (raw : List Char) : CompileError → Prop
  | .header _ text _ => ∃ inner, Text.trim raw = '[' :: inner ++ [']'] ∧ text = kept inner
  | .property _ text _ => ∃ key value, Text.cut '=' (Text.trim raw) = some (key, value) ∧
    text = kept key ++ "=" ++ kept value

/-- An error about something that was read shows the line on which that stands. -/
theorem CompileError.Concerns.shows {lines : List (Option (List Char))} {s : Section}
    {e : CompileError} (hs : BehaviorFile.Sourced lines s) (h : e.Concerns s) :
    ∃ i raw, e.line = i + 1 ∧ lines[i]? = some (some raw) ∧ e.Shows raw := by
  cases e with
  | header line text fault =>
    obtain ⟨hname, rfl, rfl⟩ := h
    rcases hs.header with ⟨hdefault, -⟩ | ⟨-, i, raw, hi, hline, hread⟩
    · exact absurd hdefault hname
    · exact ⟨i, raw, hi, hline, Line.ofText_eq_header hread⟩
  | property line text fault =>
    obtain ⟨p, hp, rfl, rfl⟩ := h
    obtain ⟨-, i, raw, hi, hline, hread⟩ := hs.properties p hp
    obtain ⟨-, key, value, hcut, hkey, hvalue⟩ := Line.ofText_eq_property.mp hread
    refine ⟨i, raw, hi, hline, key, value, hcut, ?_⟩
    unfold shown
    rw [hkey, hvalue]

/-! ## The first fault -/

section FirstFault

variable {now : Time.Instant}

open BehaviorSet (compile)

/-- A list of sections with one more. -/
theorem BehaviorSet.compile_concat (sections : List Section) (s : Section) :
    compile now (sections ++ [s]) = compile now sections >>= fun set => set.add now s := by
  unfold compile
  rw [addAll_append]
  cases addAll now {} sections with
  | error e => rfl
  | ok set =>
    show (set.add now s >>= fun next => .ok next) = set.add now s
    cases set.add now s <;> rfl

/-- One more property keeps the fault that a section has, and a fault that was not there before
is its own. -/
theorem BehaviorSet.add_concat (set : BehaviorSet) (s : Section) (p : Property) :
    (∀ e, set.add now s = .error e →
      set.add now ⟨s.name, s.line, s.properties ++ [p]⟩ = .error e) ∧
    (∀ set' e, set.add now s = .ok set' →
      set.add now ⟨s.name, s.line, s.properties ++ [p]⟩ = .error e → e.line = p.line) := by
  obtain ⟨name, line, properties⟩ := s
  rcases add_cases now set name line with ⟨-, fault, hadd⟩ | ⟨start, finish, hadd⟩
  · rw [hadd, hadd]
    exact ⟨fun e he => he, fun set' e hset' => by cases hset'⟩
  · rw [hadd, hadd, Draft.putAll_append]
    cases start.putAll now properties with
    | error e => exact ⟨fun e' he => he, fun set' e' hset' => by cases hset'⟩
    | ok filled =>
      refine ⟨fun e he => absurd he nofun, fun set' e _ he => ?_⟩
      -- the properties so far are taken, and the new one is refused
      change ((filled.put now p >>= fun next => .ok next) >>= _) = _ at he
      cases hput : filled.put now p with
      | ok next => rw [hput] at he; cases he
      | error e' =>
        rw [hput] at he
        obtain ⟨fault, rfl⟩ := Draft.put_eq_error hput
        rw [← Except.error.inj he]
        rfl

/-- One more line keeps the fault that there is, and a fault that was not there before is its
own. -/
theorem compile_read {d d' : BehaviorFile.Draft} {number : Nat} {line : Line} (hlast : d.after = [])
    (h : d.read .keepApart number line = .ok d') :
    (∀ e, compile now d.sections = .error e → compile now d'.sections = .error e) ∧
    (∀ set e, compile now d.sections = .ok set → compile now d'.sections = .error e →
      e.line = number) := by
  rcases BehaviorFile.Draft.read_eq_ok.mp h with
    ⟨-, rfl⟩ | ⟨name, -, -, rfl⟩ | ⟨key, value, -, -, rfl⟩
  · refine ⟨fun e he => he, fun set e hset he => ?_⟩
    rw [hset] at he
    cases he
  · -- a new section without properties can only have a fault in its header
    have hsections : (d.openSection .keepApart name number).sections =
        d.sections ++ [⟨name, number, []⟩] := rfl
    rw [hsections, BehaviorSet.compile_concat]
    refine ⟨fun e he => by rw [he]; rfl, fun set e hset he => ?_⟩
    rw [hset] at he
    have hconcerns := BehaviorSet.add_eq_error he
    cases e with
    | header line text fault => exact hconcerns.2.1
    | property line text fault =>
      obtain ⟨p, hp, -⟩ := hconcerns
      exact absurd hp List.not_mem_nil
  · have hsections : (d.put ⟨key, value, number⟩).sections =
        d.before ++ [⟨d.current.name, d.current.line, d.current.properties ++ [⟨key, value, number⟩]⟩] :=
      BehaviorFile.Draft.sections_of_last hlast
    rw [hsections, BehaviorFile.Draft.sections_of_last hlast, BehaviorSet.compile_concat,
      BehaviorSet.compile_concat]
    cases compile now d.before with
    | error e => exact ⟨fun e' he => he, fun set e' hset => by cases hset⟩
    | ok set => exact BehaviorSet.add_concat set d.current ⟨key, value, number⟩

theorem after_read {d d' : BehaviorFile.Draft} {number : Nat} {line : Line} (hlast : d.after = [])
    (h : d.read .keepApart number line = .ok d') : d'.after = [] := by
  rcases BehaviorFile.Draft.read_eq_ok.mp h with
    ⟨-, rfl⟩ | ⟨name, -, -, rfl⟩ | ⟨key, value, -, -, rfl⟩
  · exact hlast
  · rfl
  · exact hlast

/-- The lines that follow keep a fault. -/
theorem compile_readAll {d d' : BehaviorFile.Draft} {number : Nat} {e : CompileError}
    (lines : List (Option (List Char))) (hlast : d.after = [])
    (h : d.readAll .keepApart number lines = .ok d') (he : compile now d.sections = .error e) :
    compile now d'.sections = .error e := by
  refine (BehaviorFile.Draft.readAll_keeps
    (P := fun _ d => d.after = [] ∧ compile now d.sections = .error e) lines ?_ ⟨hlast, he⟩ h).2
  intro i raw d d' _ hd hread
  exact ⟨after_read hd.1 hread, (compile_read hd.1 hread).1 e hd.2⟩

/-- The first line with which a file does not compile is the one that its error names. -/
theorem compile_firstFault {e : CompileError} : ∀ (lines : List (Option (List Char)))
    {d d' : BehaviorFile.Draft} {set : BehaviorSet} {number : Nat}, d.after = [] →
    d.readAll .keepApart number lines = .ok d' → compile now d.sections = .ok set →
    compile now d'.sections = .error e →
      ∃ i, e.line = number + i ∧
        (∃ before set', d.readAll .keepApart number (lines.take i) = .ok before ∧
          compile now before.sections = .ok set') ∧
        ∃ upTo, d.readAll .keepApart number (lines.take (i + 1)) = .ok upTo ∧
          compile now upTo.sections = .error e := by
  intro lines
  induction lines with
  | nil =>
    intro d d' set number _ h hset he
    rw [← Except.ok.inj h, hset] at he
    cases he
  | cons line rest ih =>
    intro d d' set number hlast h hset he
    cases line with
    | none => cases h
    | some raw =>
      rw [BehaviorFile.Draft.readAll] at h
      cases hnext : d.read .keepApart number (.ofText raw) with
      | error e' => rw [hnext] at h; cases h
      | ok next =>
        rw [hnext] at h
        have hfirst : ∀ i, d.readAll .keepApart number ((some raw :: rest).take (i + 1)) =
            next.readAll .keepApart (number + 1) (rest.take i) := by
          intro i
          rw [List.take_succ_cons, BehaviorFile.Draft.readAll, hnext]
          rfl
        cases hcompile : compile now next.sections with
        | ok set' =>
          obtain ⟨i, hline, ⟨before, set'', hbefore, hset''⟩, upTo, hupTo, hfault⟩ :=
            ih (after_read hlast hnext) h hcompile he
          refine ⟨i + 1, by omega, ⟨before, set'', ?_, hset''⟩, upTo, ?_, hfault⟩
          · rw [hfirst, hbefore]
          · rw [hfirst, hupTo]
        | error e' =>
          -- the fault is that of this line, and stays to the end of the file
          have hsame := compile_readAll rest (after_read hlast hnext) h hcompile
          rw [he] at hsame
          obtain rfl := Except.error.inj hsame
          refine ⟨0, (compile_read hlast hnext).2 set e hset hcompile, ⟨d, set, rfl, hset⟩, next, ?_,
            hcompile⟩
          rw [hfirst]
          rfl

/-- **Faults are where the error says.** If a text was read and its sections do not compile,
the error names a line of the text and shows what stands there: the name in the brackets of a
header, or the key and the value of a property. If duplicates are kept apart that is the first
line with a fault: the lines before it compile, and together with it they have the same
fault. -/
theorem compile_located {policy : DuplicatePolicy} {text : String} {sections : List Section}
    {e : CompileError} (hread : ofText policy text = .ok sections)
    (hfault : compile now sections = .error e) :
    (∃ i raw, e.line = i + 1 ∧ (textLines text)[i]? = some raw ∧ e.Shows raw) ∧
    (policy = .keepApart →
      (∃ before set, ofText .keepApart (firstLines (e.line - 1) text) = .ok before ∧
        compile now before = .ok set) ∧
      ∃ upTo, ofText .keepApart (firstLines e.line text) = .ok upTo ∧
        compile now upTo = .error e) := by
  constructor
  · obtain ⟨s, hs, hconcerns⟩ := BehaviorSet.compile_eq_error hfault
    obtain ⟨i, raw, hi, hline, hshows⟩ :=
      hconcerns.shows (BehaviorFile.ofLines_sourced hread s hs)
    refine ⟨i, raw, hi, ?_, hshows⟩
    rw [List.getElem?_map] at hline
    obtain ⟨raw', hraw', hsame⟩ := Option.map_eq_some_iff.mp hline
    rw [← Option.some.inj hsame]
    exact hraw'
  · rintro rfl
    change ofLines .keepApart _ = _ at hread
    unfold ofLines at hread
    obtain ⟨d, hd, rfl⟩ := map_eq_ok.mp hread
    -- nothing is wrong with the empty implicit section
    have hstart : compile now BehaviorFile.Draft.start.sections = .ok { fallback := some {} } := rfl
    obtain ⟨i, hline, ⟨before, set, hbefore, hset⟩, upTo, hupTo, he⟩ :=
      compile_firstFault _ rfl hd hstart hfault
    have hprevious : e.line - 1 = i := by omega
    have hnumber : e.line = i + 1 := by omega
    rw [← List.map_take] at hbefore hupTo
    refine ⟨⟨before.sections, set, ?_, hset⟩, upTo.sections, ?_, he⟩
    · rw [hprevious, BehaviorFile.ofText_firstLines]
      exact map_eq_ok.mpr ⟨before, hbefore, rfl⟩
    · rw [hnumber, BehaviorFile.ofText_firstLines]
      exact map_eq_ok.mpr ⟨upTo, hupTo, rfl⟩

/-- A file with two faults, the first of them on its fifth line. -/
def twoFaults : String :=
  "; two faults\n[GET /a]\nbody = x\n[GET /b]\n delay = 5\nnope = 1\n"

theorem compile_located_twoFaults :
    ∃ sections, ofText .keepApart twoFaults = .ok sections ∧
      compile .epoch sections = .error (.property 5 "delay=5" .delay) ∧
      (∃ i raw, 5 = i + 1 ∧ (textLines twoFaults)[i]? = some raw ∧
        CompileError.Shows raw (.property 5 "delay=5" .delay)) ∧
      (∃ before set, ofText .keepApart (firstLines 4 twoFaults) = .ok before ∧
        compile .epoch before = .ok set) ∧
      ∃ upTo, ofText .keepApart (firstLines 5 twoFaults) = .ok upTo ∧
        compile .epoch upTo = .error (.property 5 "delay=5" .delay) := by
  have hread : ofText .keepApart twoFaults =
      .ok [⟨"default", 0, []⟩, ⟨"GET /a", 2, [⟨"body", "x", 3⟩]⟩,
        ⟨"GET /b", 4, [⟨"delay", "5", 5⟩, ⟨"nope", "1", 6⟩]⟩] := by decide +kernel
  have hfault : compile .epoch [⟨"default", 0, []⟩, ⟨"GET /a", 2, [⟨"body", "x", 3⟩]⟩,
      ⟨"GET /b", 4, [⟨"delay", "5", 5⟩, ⟨"nope", "1", 6⟩]⟩] =
        .error (.property 5 "delay=5" .delay) := by decide +kernel
  have hlocated := compile_located hread hfault
  exact ⟨_, hread, hfault, hlocated.1, hlocated.2 rfl⟩

end FirstFault

end StubServer
