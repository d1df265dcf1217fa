import StubServer.Duration

/-!
# Duration literals in writing

What a literal looks like can be said without reading it: `Component.Written` lists the texts
that write a component, `Written` those that write several of them one after the other, and
in front of these may stand a `Sign`. Components need nothing between them, because a unit
cannot contain what a number starts with:

> `scan_written`: the scanner finds the components that a text writes, whatever follows, as
> long as what follows does not go on with the last unit.
>
> `written_of_scan`: a text in which the scanner finds no defect writes the components that it
> finds there.

So a text writes at most one list of components (`written_iff_scan`), and the laws of durations
can be stated for literals as they are written.
-/

namespace StubServer.Duration

/-! ## Components -/

/-- The texts that write a component: its digits, with a point in front of those of the
fraction, and a spelling of its unit. The point may be missing if there is no fraction. -/
inductive Component.Written : Component → List Char → Prop
  | plain {whole spelling : List Char} {unit : TimeUnit}
      (hwhole : ∀ c ∈ whole, c.isDigit = true) (hne : whole ≠ [])
      (hunit : TimeUnit.ofText? spelling = some unit) :
      Written ⟨whole, [], unit⟩ (whole ++ spelling)
  | pointed {whole fraction spelling : List Char} {unit : TimeUnit}
      (hwhole : ∀ c ∈ whole, c.isDigit = true) (hfraction : ∀ c ∈ fraction, c.isDigit = true)
      (hne : whole ≠ [] ∨ fraction ≠ [])
      (hunit : TimeUnit.ofText? spelling = some unit) :
      Written ⟨whole, fraction, unit⟩ (whole ++ '.' :: (fraction ++ spelling))

/-- The texts that write a list of components, one after the other. -/
inductive Written : List Component → List Char → Prop
  | nil : Written [] []
  | cons {c : Component} {text : List Char} {rest : List Component} {texts : List Char}
      (hfirst : c.Written text) (hrest : Written rest texts) :
      Written (c :: rest) (text ++ texts)

/-- A text before which a unit ends: it has ended itself, or goes on with a digit or a
point. -/
def EndsUnit (rest : List Char) : Prop :=
  ∀ c ∈ rest.head?, c = '.' ∨ c.isDigit = true

theorem endsUnit_nil : EndsUnit [] :=
  fun _ hc => absurd hc (by simp)

section Parts

variable {p : Char → Bool} {xs ys : List Char}

/-- A run of characters ends where the first other one stands. -/
theorem span_append (hxs : ∀ c ∈ xs, p c = true) (hys : ∀ c ∈ ys.head?, p c = false) :
    (xs ++ ys).takeWhile p = xs ∧ (xs ++ ys).dropWhile p = ys := by
  rw [List.takeWhile_append_of_pos hxs, List.dropWhile_append_of_pos hxs]
  cases ys with
  | nil => exact ⟨List.append_nil xs, rfl⟩
  | cons c rest =>
    have hc : ¬p c = true := by simp [hys c rfl]
    rw [List.takeWhile_cons_of_neg hc, List.dropWhile_cons_of_neg hc, List.append_nil]
    exact ⟨rfl, rfl⟩

theorem EndsUnit.isUnitChar (h : EndsUnit ys) : ∀ c ∈ ys.head?, isUnitChar c = false := by
  intro c hc
  unfold Duration.isUnitChar
  rcases h c hc with rfl | hdigit
  · rfl
  · rw [hdigit, Bool.not_true, Bool.and_false]

/-- The spellings of a unit. -/
def TimeUnit.spellings : TimeUnit → List (List Char)
  | nanosecond => [['n', 's']]
  | microsecond => [['u', 's'], ['\u00B5', 's'], ['\u03BC', 's']]
  | millisecond => [['m', 's']]
  | second => [['s']]
  | minute => [['m']]
  | hour => [['h']]

theorem TimeUnit.ofText?_eq_some {spelling : List Char} {unit : TimeUnit} :
    TimeUnit.ofText? spelling = some unit ↔ spelling ∈ unit.spellings := by
  constructor
  · intro h
    unfold TimeUnit.ofText? at h
    repeat' split at h
    case isFalse.isFalse.isFalse.isFalse.isFalse.isFalse => cases h
    all_goals
      cases h
      simp_all [TimeUnit.spellings]
  · intro h
    cases unit <;> simp only [TimeUnit.spellings, List.mem_cons, List.not_mem_nil, or_false] at h
    case microsecond => rcases h with rfl | rfl | rfl <;> rfl
    all_goals
      subst h
      rfl

/-- No spelling has a digit or a point. -/
theorem TimeUnit.ofText?_chars {spelling : List Char} {unit : TimeUnit}
    (h : TimeUnit.ofText? spelling = some unit) :
    spelling ≠ [] ∧ ∀ c ∈ spelling, Duration.isUnitChar c = true := by
  have hword := TimeUnit.ofText?_eq_some.mp h
  cases unit <;> simp only [TimeUnit.spellings, List.mem_cons, List.not_mem_nil, or_false] at hword
  case microsecond =>
    rcases hword with rfl | rfl | rfl <;> exact ⟨List.cons_ne_nil _ _, by simp [Duration.isUnitChar]⟩
  all_goals
    subst hword
    exact ⟨List.cons_ne_nil _ _, by simp [Duration.isUnitChar]⟩

theorem not_isDigit_of_isUnitChar {c : Char} (h : isUnitChar c = true) : c.isDigit = false := by
  unfold isUnitChar at h
  simp only [Bool.and_eq_true, Bool.not_eq_true'] at h
  exact h.2

theorem ne_point_of_isUnitChar {c : Char} (h : isUnitChar c = true) : c ≠ '.' := by
  unfold isUnitChar at h
  simp only [Bool.and_eq_true, bne_iff_ne] at h
  exact h.1

/-- Without a point there is no fraction. -/
theorem splitFraction_of_ne (h : ∀ c ∈ xs.head?, c ≠ '.') : splitFraction xs = ([], xs) := by
  unfold splitFraction
  split
  next cs => exact absurd rfl (h '.' rfl)
  next => rfl

theorem all_digits (xs : List Char) : ∀ c ∈ xs.takeWhile Char.isDigit, c.isDigit = true :=
  List.all_eq_true.mp List.all_takeWhile

/-- A unit ends before the first digit or point. -/
theorem endsUnit_dropWhile (xs : List Char) : EndsUnit (xs.dropWhile isUnitChar) := by
  intro c hc
  have hstop := List.head?_dropWhile_not isUnitChar xs
  rw [hc] at hstop
  simpa [isUnitChar, Classical.or_iff_not_imp_left] using hstop

end Parts

/-! ## Reading one component -/

section Reading

variable {c : Component} {cs rest text : List Char}

/-- A text is read to a component if it has the digits, the fraction and the unit of that. -/
theorem readComponent_of_parts {whole fraction spelling afterWhole : List Char} {unit : TimeUnit}
    (hwhole : cs.takeWhile Char.isDigit = whole) (hafter : cs.dropWhile Char.isDigit = afterWhole)
    (hfraction : splitFraction afterWhole = (fraction, spelling ++ rest))
    (hne : whole ≠ [] ∨ fraction ≠ []) (hunit : TimeUnit.ofText? spelling = some unit)
    (hrest : EndsUnit rest) : readComponent cs = .ok (⟨whole, fraction, unit⟩, rest) := by
  obtain ⟨hspelling, hchars⟩ := TimeUnit.ofText?_chars hunit
  obtain ⟨htake, hdrop⟩ := span_append hchars hrest.isUnitChar
  have hdigits : (whole.isEmpty && fraction.isEmpty) = false := by
    rcases hne with hne | hne
    · rw [List.isEmpty_eq_false_iff.mpr hne, Bool.false_and]
    · rw [List.isEmpty_eq_false_iff.mpr hne, Bool.and_false]
  have hsome : ¬spelling.isEmpty = true := by simpa using hspelling
  unfold readComponent
  rw [hwhole, hafter, hfraction]
  dsimp only
  rw [hdigits, htake, hdrop, if_neg Bool.false_ne_true, if_neg hsome, hunit]

/-- A component is read as it is written, if what follows does not go on with its unit. -/
theorem readComponent_written (h : c.Written text) (hrest : EndsUnit rest) :
    readComponent (text ++ rest) = .ok (c, rest) := by
  cases h with
  | @plain whole spelling unit hwhole hne hunit =>
    obtain ⟨hspelling, hchars⟩ := TimeUnit.ofText?_chars hunit
    obtain ⟨first, tail, rfl⟩ := List.exists_cons_of_ne_nil hspelling
    have hfirst := hchars first (List.mem_cons_self ..)
    have hend : ∀ c ∈ (first :: tail ++ rest).head?, c.isDigit = false := by
      intro c hc
      rw [← Option.some.inj hc]
      exact not_isDigit_of_isUnitChar hfirst
    obtain ⟨htake, hdrop⟩ := span_append hwhole hend
    have hfraction : splitFraction (first :: tail ++ rest) = ([], first :: tail ++ rest) :=
      splitFraction_of_ne fun c hc => by
        rw [← Option.some.inj hc]
        exact ne_point_of_isUnitChar hfirst
    rw [List.append_assoc]
    exact readComponent_of_parts htake hdrop hfraction (Or.inl hne) hunit hrest
  | @pointed whole fraction spelling unit hwhole hfraction hne hunit =>
    obtain ⟨hspelling, hchars⟩ := TimeUnit.ofText?_chars hunit
    obtain ⟨first, tail, rfl⟩ := List.exists_cons_of_ne_nil hspelling
    -- the point ends the whole part, and the unit the fraction
    have hpoint : ∀ c ∈ ('.' :: (fraction ++ (first :: tail ++ rest))).head?, c.isDigit = false := by
      intro c hc
      rw [← Option.some.inj hc]
      rfl
    have hend : ∀ c ∈ (first :: tail ++ rest).head?, c.isDigit = false := by
      intro c hc
      rw [← Option.some.inj hc]
      exact not_isDigit_of_isUnitChar (hchars first (List.mem_cons_self ..))
    obtain ⟨htake, hdrop⟩ := span_append hwhole hpoint
    obtain ⟨htake', hdrop'⟩ := span_append hfraction hend
    have hsplit : splitFraction ('.' :: (fraction ++ (first :: tail ++ rest))) =
        (fraction, first :: tail ++ rest) := by
      show (List.takeWhile _ _, List.dropWhile _ _) = _
      rw [htake', hdrop']
    rw [List.append_assoc, List.cons_append, List.append_assoc]
    exact readComponent_of_parts htake hdrop hsplit hne hunit hrest

/-- What is read as a component writes it, and what is left does not go on with its unit. -/
theorem readComponent_eq_ok (h : readComponent cs = .ok (c, rest)) :
    ∃ text, c.Written text ∧ cs = text ++ rest ∧ EndsUnit rest := by
  have hwhole := List.takeWhile_append_dropWhile (p := Char.isDigit) (l := cs)
  unfold readComponent at h
  dsimp only at h
  split at h
  case isTrue => cases h
  case isFalse hdigits =>
    split at h
    case isTrue => cases h
    case isFalse =>
      split at h
      case h_1 => cases h
      case h_2 unit hunit =>
        obtain ⟨rfl, rfl⟩ := Prod.mk.inj (Except.ok.inj h)
        simp only [Bool.and_eq_true, List.isEmpty_iff, Classical.not_and_iff_not_or_not] at hdigits
        by_cases hpoint : (cs.dropWhile Char.isDigit).head? = some '.'
        · obtain ⟨tail, htail⟩ := List.head?_eq_some_iff.mp hpoint
          have hsplit : splitFraction (cs.dropWhile Char.isDigit) =
              (tail.takeWhile Char.isDigit, tail.dropWhile Char.isDigit) := by rw [htail]; rfl
          rw [hsplit] at hdigits hunit ⊢
          refine ⟨_, .pointed (all_digits cs) (all_digits tail) hdigits hunit, ?_,
            endsUnit_dropWhile _⟩
          rw [htail] at hwhole
          rw [List.append_assoc, List.cons_append, List.append_assoc, List.takeWhile_append_dropWhile,
            List.takeWhile_append_dropWhile]
          exact hwhole.symm
        · have hsplit : splitFraction (cs.dropWhile Char.isDigit) = ([], cs.dropWhile Char.isDigit) :=
            splitFraction_of_ne fun d hd hd' => hpoint (hd' ▸ hd)
          rw [hsplit] at hdigits hunit ⊢
          have hne : cs.takeWhile Char.isDigit ≠ [] := by simpa using hdigits
          refine ⟨_, .plain (all_digits cs) hne hunit, ?_, endsUnit_dropWhile _⟩
          rw [List.append_assoc, List.takeWhile_append_dropWhile]
          exact hwhole.symm

/-- A component starts with a digit or a point. -/
theorem Component.Written.endsUnit (h : c.Written text) : text ≠ [] ∧ EndsUnit (text ++ rest) := by
  cases h with
  | @plain whole spelling unit hwhole hne hunit =>
    obtain ⟨first, tail, rfl⟩ := List.exists_cons_of_ne_nil hne
    refine ⟨List.cons_ne_nil _ _, fun d hd => ?_⟩
    rw [← Option.some.inj hd]
    exact Or.inr (hwhole first (List.mem_cons_self ..))
  | @pointed whole fraction spelling unit hwhole hfraction hne hunit =>
    cases whole with
    | nil =>
      refine ⟨List.cons_ne_nil _ _, fun d hd => ?_⟩
      rw [← Option.some.inj hd]
      exact Or.inl rfl
    | cons first tail =>
      refine ⟨List.cons_ne_nil _ _, fun d hd => ?_⟩
      rw [← Option.some.inj hd]
      exact Or.inr (hwhole first (List.mem_cons_self ..))

end Reading

/-! ## Reading all of them -/

section Scanning

variable {c : Component} {components : List Component} {cs rest text : List Char}

theorem scan_of_ok (h : readComponent cs = .ok (c, rest)) :
    scan cs = (c :: (scan rest).1, (scan rest).2) := by
  have hne : ¬cs.isEmpty = true := by
    intro hempty
    have hlength := readComponent_length h
    rw [List.isEmpty_iff.mp hempty] at hlength
    exact absurd hlength (Nat.not_lt_zero _)
  rw [scan, if_neg hne]
  split
  next fault hfault => rw [h] at hfault; cases hfault
  next component rest' hok =>
    obtain ⟨rfl, rfl⟩ := Prod.mk.inj (Except.ok.inj (h.symm.trans hok))
    rfl

theorem scan_of_error {fault : Fault} (hne : cs ≠ []) (h : readComponent cs = .error fault) :
    scan cs = ([], some fault) := by
  rw [scan, if_neg (by simpa using hne)]
  split
  next fault' hfault => rw [Except.error.inj (h.symm.trans hfault)]
  next component rest' hok => rw [h] at hok; cases hok

theorem Written.endsUnit (h : Written components text) (hrest : EndsUnit rest) :
    EndsUnit (text ++ rest) := by
  cases h with
  | nil => exact hrest
  | cons hfirst hlater =>
    rw [List.append_assoc]
    exact hfirst.endsUnit.2

/-- The components of a text come first, and the scan goes on behind them. -/
theorem scan_written (h : Written components text) (hrest : EndsUnit rest) :
    scan (text ++ rest) = (components ++ (scan rest).1, (scan rest).2) := by
  induction h with
  | nil => rfl
  | cons hfirst hlater ih =>
    rw [List.append_assoc, scan_of_ok (readComponent_written hfirst (hlater.endsUnit hrest)), ih]
    rfl

/-- A text without a defect writes what is found in it. -/
theorem written_of_scan : ∀ (cs : List Char), (scan cs).2 = none → Written (scan cs).1 cs
  | cs, h => by
    by_cases hempty : cs = []
    · rw [hempty, scan]
      exact .nil
    · cases hread : readComponent cs with
      | error fault =>
        rw [scan_of_error hempty hread] at h
        cases h
      | ok found =>
        obtain ⟨c, rest⟩ := found
        have hshorter := readComponent_length hread
        obtain ⟨text, htext, hcs, -⟩ := readComponent_eq_ok hread
        rw [scan_of_ok hread] at h ⊢
        rw [hcs]
        exact .cons htext (written_of_scan rest h)
  termination_by cs => cs.length

/-- A text writes the components that are found in it without a defect, and no others. -/
theorem written_iff_scan : Written components cs ↔ scan cs = (components, none) := by
  constructor
  · intro h
    have hscan := scan_written h endsUnit_nil
    rw [List.append_nil, show scan [] = ([], none) by rw [scan]; rfl, List.append_nil] at hscan
    exact hscan
  · intro h
    have hwritten := written_of_scan cs (by rw [h])
    rw [h] at hwritten
    exact hwritten

end Scanning

/-! ## Signs -/

/-- What may stand in front of a literal. -/
inductive Sign
  | absent
  | plus
  | minus
  deriving DecidableEq, Repr

namespace Sign

def text : Sign → List Char
  | absent => []
  | plus => ['+']
  | minus => ['-']

/-- The number with a sign in front. -/
def of : Sign → Nat → Int
  | minus, n => -(n : Int)
  | _, n => n

end Sign

/-- A text without a sign in front. -/
def IsUnsigned (cs : List Char) : Prop :=
  ∀ c ∈ cs.head?, c ≠ '+' ∧ c ≠ '-'

instance (cs : List Char) : Decidable (IsUnsigned cs) :=
  match cs with
  | [] => .isTrue fun c hc => by cases hc
  | c :: _ => decidable_of_iff (c ≠ '+' ∧ c ≠ '-') (by simp [IsUnsigned])

section Signs

variable {cs : List Char}

/-- A sign is taken off and put in front of the number. -/
theorem parse_signed (sign : Sign) (h : sign = .absent → IsUnsigned cs) :
    parse (sign.text ++ cs) = (magnitude cs).map sign.of := by
  cases sign with
  | plus =>
    simp only [Sign.text, List.cons_append, List.nil_append, parse]
    cases magnitude cs <;> rfl
  | minus =>
    simp only [Sign.text, List.cons_append, List.nil_append, parse]
    cases magnitude cs <;> rfl
  | absent =>
    show parse cs = _
    unfold parse
    split
    next rest => exact absurd rfl (h rfl '-' rfl).2
    next rest => exact absurd rfl (h rfl '+' rfl).1
    next => cases magnitude cs <;> rfl

/-- Every text has a sign in front or none. -/
theorem exists_sign (cs : List Char) :
    ∃ (sign : Sign) (body : List Char), cs = sign.text ++ body ∧ (sign = .absent → IsUnsigned body) := by
  cases cs with
  | nil => exact ⟨.absent, [], rfl, fun _ c hc => by cases hc⟩
  | cons first rest =>
    by_cases hplus : first = '+'
    · exact ⟨.plus, rest, by rw [hplus]; rfl, fun h => by cases h⟩
    · by_cases hminus : first = '-'
      · exact ⟨.minus, rest, by rw [hminus]; rfl, fun h => by cases h⟩
      · refine ⟨.absent, first :: rest, rfl, fun _ c hc => ?_⟩
        rw [← Option.some.inj hc]
        exact ⟨hplus, hminus⟩

theorem EndsUnit.isUnsigned (h : EndsUnit cs) : IsUnsigned cs := by
  intro c hc
  rcases h c hc with rfl | hdigit
  · exact ⟨by decide, by decide⟩
  · constructor
    · rintro rfl
      cases hdigit
    · rintro rfl
      cases hdigit

/-- Components have no sign in front. -/
theorem Written.isUnsigned {components : List Component} (h : Written components cs) : IsUnsigned cs := by
  have hends := h.endsUnit endsUnit_nil
  rw [List.append_nil] at hends
  exact hends.isUnsigned

end Signs

end StubServer.Duration
