import StubServer.Proofs.Behavior.Merging

/-!
# One list of sections after another

A list of sections that follows another one does what it does by itself: it has the same
behaviors or the same fault, and its default sections go on from the fallback so far. Nothing
else of the first list can be felt in the second one. What there is to feel would be a cookie
that was left open, and that is the point:

> `Abreast base`: besides being `Atop` a base, a draft has no cookie open where the section's
> own draft has none.

Every section starts without an open cookie, whatever came before it, so the two drafts start
abreast, and then they have a cookie open at the same times (`abreast_lockstep`). So the same
property is refused by both, with the same fault (`Lockstep.putAll`), and `addAll_follows`
carries this over to lists of sections.
-/

namespace StubServer

open BehaviorFile (Agree Property Section)

/-! ## Two drafts in step -/

namespace Draft

variable {now : Time.Instant}

/-- A simulation between drafts that have a cookie open at the same times. -/
structure Lockstep (R : Draft → Draft → Prop) : Prop extends Simulation R where
  closed : ∀ {own d : Draft}, R own d → own.hasCookie = false → d.hasCookie = false

/-- Drafts in step take the same properties, and refuse the same one with the same fault. -/
theorem Lockstep.putAll {R : Draft → Draft → Prop} (hR : Lockstep R) :
    ∀ (properties : List Property) {own d : Draft}, R own d →
      Agree R (own.putAll now properties) (d.putAll now properties) := by
  intro properties
  induction properties with
  | nil => exact fun h => h
  | cons p rest ih =>
    intro own d h
    have hsame : d.hasCookie = own.hasCookie := by
      cases hown : own.hasCookie with
      | true => exact hR.hasCookie h hown
      | false => exact hR.closed h hown
    have hput : Agree R (own.put now p) (d.put now p) := by
      unfold put
      rw [hsame]
      cases hread : Edit.read now own.hasCookie p with
      | error fault => exact rfl
      | ok edit => exact hR.apply edit h (Edit.read_eq_ok.mp hread).2
    exact hput.bind fun _ _ hnext => ih hnext

/-- A draft atop a base in which no cookie is open that the section did not open. -/
structure Abreast (base own d : Draft) : Prop extends Atop base own d where
  closed : own.cursor.place = none → d.cursor.place = none

theorem abreast_lockstep (base : Draft) : Lockstep (Abreast base) where
  hasCookie h := (atop_simulation base).hasCookie h.toAtop
  apply edit h hneeds := by
    refine ⟨(atop_simulation base).apply edit h.toAtop hneeds, ?_⟩
    cases edit with
    | openCookie name =>
      intro hplace
      cases hplace
    | _ => exact h.closed
  closed := by
    intro own d h hown
    refine Bool.eq_false_iff.mpr fun hd => ?_
    obtain ⟨place, hplace, hlt⟩ := hasCookie_iff.mp hd
    cases hown' : own.cursor.place with
    | none =>
      rw [h.closed hown'] at hplace
      cases hplace
    | some i =>
      -- the cookie that is open is one of the section's own
      rw [h.cursor i hown'] at hplace
      rw [h.cookies, List.length_append, ← Option.some.inj hplace] at hlt
      have hopen : own.hasCookie = true := hasCookie_iff.mpr ⟨i, hown', by omega⟩
      rw [hown] at hopen
      cases hopen

/-- The draft with which a default section starts. -/
def resumed (fallback : Option Response) : Draft :=
  { response := fallback.getD {} }

end Draft

/-- A fallback that has the fields of a later one, and those of the first elsewhere. -/
def Response.Atop (first own whole : Option Response) : Prop :=
  Draft.Atop (.resumed first) (.resumed own) (.resumed whole)

/-- A default section does the same to the fallback so far as to the one without a base. -/
theorem Response.withDefaults_agree {now : Time.Instant} {first own whole : Option Response}
    (h : Response.Atop first own whole) (s : Section) :
    Agree (fun r r' => Response.Atop first (some r) (some r'))
      (Response.withDefaults now own s) (Response.withDefaults now whole s) := by
  -- both drafts start without an open cookie
  have hstart : Draft.Abreast (.resumed first) (.resumed own) (.resumed whole) :=
    ⟨h, fun _ => rfl⟩
  refine ((Draft.abreast_lockstep _).putAll s.properties hstart).bind fun d d' hd => ?_
  exact { hd.toAtop with
    repetitions := rfl
    cursor := fun _ hplace => by cases hplace }

/-! ## Sets after sets -/

namespace BehaviorSet

variable {now : Time.Instant}

/-- What a whole set is to the set before and to one that would be there without it. -/
structure Follows (first own whole : BehaviorSet) : Prop where
  behaviors : whole.behaviors = first.behaviors ++ own.behaviors
  present : whole.fallback.isSome = (first.fallback.isSome || own.fallback.isSome)
  fallback : Response.Atop first.fallback own.fallback whole.fallback

theorem follows_start (first : BehaviorSet) : Follows first {} first :=
  ⟨(List.append_nil _).symm, (Bool.or_false _).symm, Draft.atop_empty _⟩

/-- One section does the same to the set without the first one and to the whole set. -/
theorem add_follows {first own whole : BehaviorSet} (h : Follows first own whole) (s : Section) :
    Agree (Follows first) (own.add now s) (whole.add now s) := by
  unfold add
  by_cases hname : s.name = BehaviorFile.defaultName
  · rw [if_pos hname, if_pos hname]
    refine (Response.withDefaults_agree h.fallback s).bind fun r r' hr => ?_
    exact ⟨h.behaviors, (Bool.or_true _).symm, hr⟩
  · rw [if_neg hname, if_neg hname]
    cases Behavior.ofSection now s with
    | error e => exact rfl
    | ok b =>
      refine ⟨?_, h.present, h.fallback⟩
      show whole.behaviors ++ [b] = _
      rw [h.behaviors, List.append_assoc]

/-- A list of sections does the same to the empty set and to what another list has made. -/
theorem addAll_follows {first : BehaviorSet} : ∀ (sections : List Section) {own whole : BehaviorSet},
    Follows first own whole →
      Agree (Follows first) (own.addAll now sections) (whole.addAll now sections)
  | [], _, _, h => h
  | s :: rest, _, _, h => (add_follows h s).bind fun _ _ hnext => addAll_follows rest hnext

/-- The sets of two lists of sections, each compiled by itself; a fault of the first one comes
first. -/
def compileEach (now : Time.Instant) (xs ys : List Section) :
    Except CompileError (BehaviorSet × BehaviorSet) := do
  let first ← compile now xs
  let second ← compile now ys
  return (first, second)

/-- What the set of two lists, one after the other, is to the sets of either. -/
structure Appends (now : Time.Instant) (ys : List Section) (first second whole : BehaviorSet) :
    Prop extends Follows first second whole where
  /-- The default sections of the second list are applied on top of the first fallback. -/
  resumes : Response.withAllDefaults now first.fallback (defaults ys) = .ok whole.fallback

/-- **Sections do not touch each other.** Two lists of sections, one after the other, have the
fault of the first one, if it has one, or else that of the second one. If neither has any, the
behaviors are those of the first list and then those of the second. There is a fallback if
either has one. It is the first one with the default sections of the second list applied on
top; each of its fields is the one that these set, if they do, and its cookies are those of the
first fallback and then those of the second. -/
theorem compile_append (now : Time.Instant) (xs ys : List Section) :
    Agree (fun each whole => Appends now ys each.1 each.2 whole)
      (compileEach now xs ys) (compile now (xs ++ ys)) := by
  unfold compileEach
  have hwhole : compile now (xs ++ ys) = compile now xs >>= fun first => first.addAll now ys :=
    addAll_append xs ys {}
  rw [hwhole]
  cases compile now xs with
  | error e => exact rfl
  | ok first =>
    have hagree : Agree (Follows first) (addAll now {} ys) (first.addAll now ys) :=
      addAll_follows ys (follows_start first)
    show Agree _ (compile now ys >>= fun second => pure (first, second)) (first.addAll now ys)
    unfold compile
    cases hsecond : addAll now {} ys with
    | error e =>
      rw [hsecond] at hagree
      cases hfirst : first.addAll now ys with
      | error e' => rw [hfirst] at hagree; exact hagree
      | ok whole => rw [hfirst] at hagree; exact hagree.elim
    | ok second =>
      rw [hsecond] at hagree
      cases hfirst : first.addAll now ys with
      | error e' => rw [hfirst] at hagree; exact hagree.elim
      | ok whole =>
        rw [hfirst] at hagree
        exact ⟨hagree, (addAll_eq_ok ys).mp hfirst |>.1⟩

end BehaviorSet

end StubServer
