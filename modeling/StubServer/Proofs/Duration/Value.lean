import Mathlib
import StubServer.Proofs.Duration.Literal

/-!
# What a duration literal is worth

A component is a decimal number of units, so what it is worth is a matter of rational
numbers: `exactNanos` is that product, rounded down to a nanosecond. The reader looks at no
more than 18 digits of a fraction, and what a component counts for then (`countedNanos`) can be
less:

> `Loses`: the digits that it does not look at would have carried the product over to the next
> nanosecond. This takes more than 18 digits and a unit of minutes or hours, because the
> shorter units divide `10 ^ 18` nanoseconds, and it is one nanosecond at most.

The counts are added up from the left. As long as the sum is in range nothing else happens to it
(`total_of_le`), and the first component with which it is not ends the reading
(`total_of_firstBeyond`): the literal is refused there, unless that component is one that
`Crashes`, at which the program stops. So `parse_value` gives the number of every literal that
is accepted, and says when it is the exact one.
-/

namespace StubServer.Duration

open Text

/-! ## Digits -/

theorem digitValue_lt {c : Char} (h : c.isDigit = true) : digitValue c < 10 := by
  rw [Char.isDigit, Bool.and_eq_true, decide_eq_true_eq, decide_eq_true_eq] at h
  have hupper : c.toNat ≤ '9'.toNat := h.2
  have hnine : '9'.toNat = 57 := rfl
  have hzero : '0'.toNat = 48 := rfl
  unfold digitValue
  omega

/-- A number of so many digits. -/
theorem digitsValue_lt {ds : List Char} (h : ∀ c ∈ ds, c.isDigit = true) :
    digitsValue ds < 10 ^ ds.length := by
  induction ds using List.reverseRecOn with
  | nil => exact Nat.one_pos
  | append_singleton ds c ih =>
    have hfront := ih fun d hd => h d (List.mem_append_left _ hd)
    have hlast := digitValue_lt (h c (List.mem_append_right _ (List.mem_singleton_self c)))
    have hone : digitsValue [c] = digitValue c := by
      unfold digitsValue
      rw [List.foldl_cons, List.foldl_nil, Nat.mul_zero, Nat.zero_add]
    have hten : Nat.pow 10 [c].length = 10 := rfl
    rw [digitsValue_append, hone, hten, List.length_append, List.length_singleton, pow_succ]
    omega

namespace TimeUnit

theorem nanos_pos (unit : TimeUnit) : 0 < unit.nanos := by
  cases unit <;> decide

theorem nanos_le (unit : TimeUnit) : unit.nanos ≤ 10 ^ fractionDigits := by
  cases unit <;> decide

/-- All units but the two longest divide what 18 digits can tell. -/
theorem nanos_dvd {unit : TimeUnit} (h : ¬(unit = .minute ∨ unit = .hour)) :
    unit.nanos ∣ 10 ^ fractionDigits := by
  cases unit with
  | minute => exact absurd (Or.inl rfl) h
  | hour => exact absurd (Or.inr rfl) h
  | _ => decide

end TimeUnit

namespace Component

/-! ## Exact values -/

/-- The decimal number of a component. -/
def number (c : Component) : ℚ :=
  digitsValue c.whole + digitsValue c.fraction / 10 ^ c.fraction.length

/-- The nanoseconds of a component, rounded down only at the end. -/
def exactNanos (c : Component) : ℕ :=
  ⌊c.number * c.unit.nanos⌋₊

/-- The component without the digits of its fraction that are not looked at. -/
def cut (c : Component) : Component :=
  { c with fraction := c.fraction.take fractionDigits }

/-- The nanoseconds that a component counts for. -/
def countedNanos (c : Component) : ℕ :=
  c.cut.exactNanos

/-- Only the fraction has to be rounded. -/
theorem exactNanos_eq (c : Component) :
    c.exactNanos = digitsValue c.whole * c.unit.nanos +
      digitsValue c.fraction * c.unit.nanos / 10 ^ c.fraction.length := by
  have hpos : 0 < 10 ^ c.fraction.length := by positivity
  have hratio : c.number * c.unit.nanos =
      ((digitsValue c.fraction * c.unit.nanos +
        digitsValue c.whole * c.unit.nanos * 10 ^ c.fraction.length : ℕ) : ℚ) /
        ((10 ^ c.fraction.length : ℕ) : ℚ) := by
    unfold number
    push_cast
    field_simp
    ring
  unfold exactNanos
  rw [hratio, Nat.floor_div_eq_div, Nat.add_mul_div_right _ _ hpos, Nat.add_comm]

theorem countedNanos_eq (c : Component) :
    c.countedNanos = digitsValue c.whole * c.unit.nanos + c.fractionNanos :=
  exactNanos_eq c.cut

/-! ## Digits that are not looked at -/

/-- The fraction of a component consists of digits. -/
def IsDecimal (c : Component) : Prop :=
  ∀ d ∈ c.fraction, d.isDigit = true

theorem Written.isDecimal {c : Component} {text : List Char} (h : c.Written text) : c.IsDecimal := by
  cases h with
  | plain => exact fun d hd => absurd hd List.not_mem_nil
  | pointed hwhole hfraction => exact hfraction

/-- The digits that are not looked at would have carried the product over to the next
nanosecond. -/
def Loses (c : Component) : Prop :=
  c.countedNanos < c.exactNanos

instance (c : Component) : Decidable c.Loses :=
  inferInstanceAs (Decidable (_ < _))

theorem countedNanos_of_short {c : Component} (h : c.fraction.length ≤ fractionDigits) :
    c.countedNanos = c.exactNanos := by
  unfold countedNanos cut
  rw [List.take_of_length_le h]

/-- A long fraction is the digits that are looked at, and something less than one of the last
of them. The product with the unit is rounded for the one and for the other. -/
theorem exactNanos_long {c : Component} (hc : c.IsDecimal) (h : fractionDigits ≤ c.fraction.length) :
    ∃ scale rest, 0 < scale ∧ rest < scale ∧
      digitsValue c.fraction = digitsValue c.cut.fraction * scale + rest ∧
      c.exactNanos = digitsValue c.whole * c.unit.nanos +
        digitsValue c.fraction * c.unit.nanos / (10 ^ fractionDigits * scale) ∧
      c.countedNanos = digitsValue c.whole * c.unit.nanos +
        digitsValue c.cut.fraction * c.unit.nanos / 10 ^ fractionDigits := by
  have hsplit := digitsValue_append (c.fraction.take fractionDigits) (c.fraction.drop fractionDigits)
  rw [List.take_append_drop] at hsplit
  have hpow : 10 ^ c.fraction.length =
      10 ^ fractionDigits * 10 ^ (c.fraction.drop fractionDigits).length := by
    rw [← pow_add, List.length_drop]
    congr 1
    omega
  have hlength : c.cut.fraction.length = fractionDigits := by
    show (c.fraction.take fractionDigits).length = _
    rw [List.length_take, Nat.min_eq_left h]
  refine ⟨10 ^ (c.fraction.drop fractionDigits).length, digitsValue (c.fraction.drop fractionDigits),
    by positivity, ?_, hsplit, ?_, ?_⟩
  · exact digitsValue_lt fun d hd => hc d (List.mem_of_mem_drop hd)
  · rw [exactNanos_eq, hpow]
  · unfold countedNanos
    rw [exactNanos_eq, hlength]
    rfl

/-- The digits that are not looked at are worth less than a nanosecond. -/
theorem exactNanos_counted_bounds {c : Component} (hc : c.IsDecimal) :
    c.countedNanos ≤ c.exactNanos ∧ c.exactNanos ≤ c.countedNanos + 1 := by
  by_cases hlong : fractionDigits ≤ c.fraction.length
  case neg => rw [countedNanos_of_short (by omega)]; omega
  case pos =>
    obtain ⟨scale, rest, hscale, hrest, hvalue, hexact, hcut⟩ := exactNanos_long hc hlong
    -- both products in multiples of the last digit that is looked at
    have hlow : digitsValue c.cut.fraction * c.unit.nanos * scale ≤
        digitsValue c.fraction * c.unit.nanos := by
      rw [hvalue, Nat.add_mul, Nat.mul_right_comm]
      exact Nat.le_add_right _ _
    have hhigh : digitsValue c.fraction * c.unit.nanos ≤
        (digitsValue c.cut.fraction * c.unit.nanos + 10 ^ fractionDigits) * scale := by
      have hless : rest * c.unit.nanos ≤ 10 ^ fractionDigits * scale := by
        rw [Nat.mul_comm]
        exact Nat.mul_le_mul c.unit.nanos_le hrest.le
      rw [hvalue, Nat.add_mul, Nat.add_mul, Nat.mul_right_comm]
      exact Nat.add_le_add_left hless _
    have hten : 0 < 10 ^ fractionDigits := by positivity
    rw [hexact, hcut]
    constructor
    · refine Nat.add_le_add_left ?_ _
      calc digitsValue c.cut.fraction * c.unit.nanos / 10 ^ fractionDigits
          = digitsValue c.cut.fraction * c.unit.nanos * scale / (10 ^ fractionDigits * scale) :=
            (Nat.mul_div_mul_right _ _ hscale).symm
        _ ≤ _ := Nat.div_le_div_right hlow
    · rw [Nat.add_assoc]
      refine Nat.add_le_add_left ?_ _
      calc digitsValue c.fraction * c.unit.nanos / (10 ^ fractionDigits * scale)
          ≤ (digitsValue c.cut.fraction * c.unit.nanos + 10 ^ fractionDigits) * scale /
              (10 ^ fractionDigits * scale) := Nat.div_le_div_right hhigh
        _ = (digitsValue c.cut.fraction * c.unit.nanos + 10 ^ fractionDigits) / 10 ^ fractionDigits :=
            Nat.mul_div_mul_right _ _ hscale
        _ = _ := Nat.add_div_right _ hten

/-- A unit that divides `10 ^ 18` nanoseconds has no use for more digits. -/
theorem countedNanos_of_dvd {c : Component} (hc : c.IsDecimal)
    (hdvd : c.unit.nanos ∣ 10 ^ fractionDigits) : c.countedNanos = c.exactNanos := by
  by_cases hlong : fractionDigits ≤ c.fraction.length
  case neg => rw [countedNanos_of_short (by omega)]
  case pos =>
    obtain ⟨scale, rest, hscale, hrest, hvalue, hexact, hcut⟩ := exactNanos_long hc hlong
    obtain ⟨step, hstep⟩ := hdvd
    have hpos := c.unit.nanos_pos
    rw [hexact, hcut, hstep]
    congr 1
    -- what is looked at decides in which step of the unit the fraction lies
    calc digitsValue c.cut.fraction * c.unit.nanos / (c.unit.nanos * step)
        = digitsValue c.cut.fraction / step := by
          rw [Nat.mul_comm, Nat.mul_div_mul_left _ _ hpos]
      _ = (digitsValue c.cut.fraction * scale + rest) / scale / step := by
          rw [Nat.add_comm, Nat.add_mul_div_right _ _ hscale, Nat.div_eq_of_lt hrest, Nat.zero_add]
      _ = digitsValue c.fraction / (step * scale) := by
          rw [← hvalue, Nat.div_div_eq_div_mul, Nat.mul_comm]
      _ = digitsValue c.fraction * c.unit.nanos / (c.unit.nanos * step * scale) := by
          rw [Nat.mul_assoc, Nat.mul_comm (digitsValue c.fraction), Nat.mul_div_mul_left _ _ hpos]

/-- Digits are only lost from long fractions of minutes and hours. -/
theorem Loses.long {c : Component} (hc : c.IsDecimal) (h : c.Loses) :
    (c.unit = .minute ∨ c.unit = .hour) ∧ fractionDigits < c.fraction.length := by
  constructor
  · by_contra hunit
    unfold Loses at h
    rw [countedNanos_of_dvd hc (TimeUnit.nanos_dvd hunit)] at h
    exact lt_irrefl _ h
  · by_contra hshort
    unfold Loses at h
    rw [countedNanos_of_short (by omega)] at h
    exact lt_irrefl _ h

/-- How far a component is off. -/
theorem exactNanos_eq_counted {c : Component} (hc : c.IsDecimal) :
    c.exactNanos = c.countedNanos + if c.Loses then 1 else 0 := by
  have hbounds := exactNanos_counted_bounds hc
  by_cases hloses : c.Loses
  · rw [if_pos hloses]
    unfold Loses at hloses
    omega
  · rw [if_neg hloses]
    unfold Loses at hloses
    omega

/-! ## Words -/

/-- The whole part fits a word, and the fraction added to it does not. -/
def Crashes (c : Component) : Prop :=
  digitsValue c.whole * c.unit.nanos < wordSize 128 ∧ wordSize 128 ≤ c.countedNanos

instance (c : Component) : Decidable c.Crashes :=
  inferInstanceAs (Decidable (_ ∧ _))

/-- What becomes of a component that does not fit a word. -/
def sizeFault (c : Component) : Fault :=
  if c.Crashes then .crash else .overflow

/-- A component has a value if what it counts for fits a word. -/
theorem nanos_eq (c : Component) :
    c.nanos = if c.countedNanos < wordSize 128 then .ok c.countedNanos else .error c.sizeFault := by
  have hcount := countedNanos_eq c
  unfold nanos sizeFault
  dsimp only
  rw [← hcount]
  by_cases hfits : c.countedNanos < wordSize 128
  · rw [if_neg (by omega), if_neg (by omega), if_pos hfits]
  · rw [if_neg hfits]
    by_cases hwhole : digitsValue c.whole * c.unit.nanos < wordSize 128
    · rw [if_neg (by omega), if_pos (by omega), if_pos ⟨hwhole, by omega⟩]
    · rw [if_pos (by omega), if_neg fun hcrash => hwhole hcrash.1]

theorem sizeFault_of_fits {c : Component} (h : c.countedNanos < wordSize 128) :
    c.sizeFault = .overflow :=
  if_neg fun hcrash => absurd hcrash.2 (by omega)

end Component

/-! ## Sums -/

/-- The exact nanoseconds of a list of components. -/
def exactSum (components : List Component) : ℕ :=
  (components.map Component.exactNanos).sum

/-- The nanoseconds that a list of components counts for. -/
def countedSum (components : List Component) : ℕ :=
  (components.map Component.countedNanos).sum

theorem Written.isDecimal {components : List Component} {text : List Char}
    (h : Written components text) : ∀ c ∈ components, c.IsDecimal := by
  induction h with
  | nil => exact fun c hc => absurd hc List.not_mem_nil
  | cons hfirst _ ih =>
    intro c hc
    rcases List.mem_cons.mp hc with rfl | hlater
    · exact hfirst.isDecimal
    · exact ih c hlater

theorem countedSum_cons (c : Component) (rest : List Component) :
    countedSum (c :: rest) = c.countedNanos + countedSum rest := by
  unfold countedSum
  rw [List.map_cons, List.sum_cons]

theorem countedSum_append (xs ys : List Component) :
    countedSum (xs ++ ys) = countedSum xs + countedSum ys := by
  unfold countedSum
  rw [List.map_append, List.sum_append]

theorem countedSum_le {components : List Component} (h : ∀ c ∈ components, c.IsDecimal) :
    countedSum components ≤ exactSum components :=
  List.sum_le_sum fun c hc => (Component.exactNanos_counted_bounds (h c hc)).1

/-- A sum is exact if no component loses digits. -/
theorem countedSum_eq_iff : ∀ {components : List Component}, (∀ c ∈ components, c.IsDecimal) →
    (countedSum components = exactSum components ↔ ∀ c ∈ components, ¬c.Loses)
  | [], _ => ⟨fun _ c hc => absurd hc List.not_mem_nil, fun _ => rfl⟩
  | c :: rest, hdecimal => by
    have hrest : ∀ d ∈ rest, d.IsDecimal := fun d hd => hdecimal d (List.mem_cons_of_mem _ hd)
    have ih := countedSum_eq_iff hrest
    have hle := (Component.exactNanos_counted_bounds (hdecimal c (List.mem_cons_self ..))).1
    have hle' := countedSum_le hrest
    have hexact : exactSum (c :: rest) = c.exactNanos + exactSum rest := List.sum_cons
    have hfirst : ¬c.Loses ↔ c.countedNanos = c.exactNanos := by
      unfold Component.Loses
      omega
    rw [countedSum_cons, hexact, List.forall_mem_cons, hfirst, ← ih]
    omega

/-- The first component with which the sum of a list passes the largest number. -/
def FirstBeyond (components : List Component) (c : Component) : Prop :=
  ∃ front later, components = front ++ c :: later ∧ countedSum front ≤ maxNanos ∧
    maxNanos < countedSum front + c.countedNanos

theorem FirstBeyond.mem {components : List Component} {c : Component} (h : FirstBeyond components c) :
    c ∈ components := by
  obtain ⟨front, later, rfl, -, -⟩ := h
  exact List.mem_append_right front (List.mem_cons_self ..)

/-- A sum that is too large has such a component. -/
theorem exists_firstBeyond {components : List Component} (h : maxNanos < countedSum components) :
    ∃ c, FirstBeyond components c := by
  induction components using List.reverseRecOn with
  | nil => exact absurd h (Nat.not_lt_zero _)
  | append_singleton front last ih =>
    by_cases hfront : countedSum front ≤ maxNanos
    · have hlast : countedSum [last] = last.countedNanos := countedSum_cons last []
      rw [countedSum_append, hlast] at h
      exact ⟨last, front, [], rfl, hfront, h⟩
    · -- the sum is too large before the last one
      obtain ⟨c, before, after, rfl, hbefore, hc⟩ := ih (Nat.lt_of_not_le hfront)
      refine ⟨c, before, after ++ [last], ?_, hbefore, hc⟩
      rw [List.append_assoc, List.cons_append]

theorem total_append : ∀ (xs ys : List Component) (sum : ℕ),
    total sum (xs ++ ys) = (total sum xs).bind (total · ys)
  | [], _, _ => rfl
  | c :: rest, ys, sum => by
    rw [List.cons_append, total, total]
    cases c.nanos with
    | error fault => rfl
    | ok n =>
      dsimp only
      split
      next => exact total_append rest ys (sum + n)
      next => rfl

/-- Components are added up as long as the sum is in range. -/
theorem total_of_le : ∀ (components : List Component) {sum : ℕ},
    sum + countedSum components ≤ maxNanos → total sum components = .ok (sum + countedSum components)
  | [], _, _ => rfl
  | c :: rest, sum, h => by
    have hword : maxNanos < wordSize 128 := by decide
    rw [countedSum_cons] at h ⊢
    rw [total, Component.nanos_eq, if_pos (by omega)]
    dsimp only
    rw [if_pos (by omega), total_of_le rest (by omega), Nat.add_assoc]

/-- The first with which it is not ends the addition, whatever follows. -/
theorem total_of_firstBeyond {components : List Component} {c : Component}
    (h : FirstBeyond components c) (rest : List Component) :
    total 0 (components ++ rest) = .error c.sizeFault := by
  obtain ⟨front, later, rfl, hfront, hc⟩ := h
  have htotal : total 0 front = .ok (countedSum front) := by
    rw [total_of_le front (by omega), Nat.zero_add]
  have hlast : total (countedSum front) (c :: (later ++ rest)) = .error c.sizeFault := by
    rw [total, Component.nanos_eq]
    by_cases hfits : c.countedNanos < wordSize 128
    · rw [if_pos hfits]
      dsimp only
      rw [if_neg (by omega), Component.sizeFault_of_fits hfits]
    · rw [if_neg hfits]
  rw [List.append_assoc, List.cons_append, total_append, htotal]
  exact hlast

/-- What comes of an addition: the sum of the counts, or the fault of the first component with
which it is not in range. -/
theorem total_cases (components : List Component) :
    (countedSum components ≤ maxNanos ∧ total 0 components = .ok (countedSum components)) ∨
      ∃ c, FirstBeyond components c ∧ total 0 components = .error c.sizeFault := by
  by_cases hrange : countedSum components ≤ maxNanos
  · refine Or.inl ⟨hrange, ?_⟩
    rw [total_of_le components (by omega), Nat.zero_add]
  · obtain ⟨c, hc⟩ := exists_firstBeyond (Nat.lt_of_not_le hrange)
    have htotal := total_of_firstBeyond hc []
    rw [List.append_nil] at htotal
    exact Or.inr ⟨c, hc, htotal⟩

/-! ## Literals -/

section Literals

variable {components : List Component} {body rest : List Char}

/-- A text with a component in front is neither empty nor the bare zero. -/
theorem Written.ne_zero (h : Written components body) (hne : components ≠ []) (hrest : EndsUnit rest) :
    body ++ rest ≠ [] ∧ body ++ rest ≠ ['0'] := by
  have hscan := scan_written h hrest
  have hfound : (scan (body ++ rest)).1 ≠ [] := by
    rw [hscan]
    exact List.append_ne_nil_of_left_ne_nil hne _
  constructor
  · intro hempty
    rw [hempty, scan] at hfound
    exact hfound rfl
  · intro hzero
    have hunit : readComponent ['0'] = .error .missingUnit := rfl
    rw [hzero, scan_of_error (List.cons_ne_nil _ _) hunit] at hfound
    exact hfound rfl

/-- The first component with which a sum is too large decides, whatever follows. -/
theorem magnitude_firstBeyond {c : Component} (h : Written components body) (hrest : EndsUnit rest)
    (hc : FirstBeyond components c) : magnitude (body ++ rest) = .error c.sizeFault := by
  obtain ⟨hempty, hzero⟩ := h.ne_zero (List.ne_nil_of_mem hc.mem) hrest
  unfold magnitude
  rw [if_neg hzero, if_neg (by simpa using hempty), scan_written h hrest]
  dsimp only
  rw [total_of_firstBeyond hc]

/-- A text of components is worth their sum. -/
theorem magnitude_components (h : Written components body) (hne : components ≠ []) :
    magnitude body = total 0 components := by
  obtain ⟨hempty, hzero⟩ := h.ne_zero hne endsUnit_nil
  rw [List.append_nil] at hempty hzero
  unfold magnitude
  rw [if_neg hzero, if_neg (by simpa using hempty), written_iff_scan.mp h]
  dsimp only
  cases total 0 components <;> rfl

/-- A sum in range is the value. -/
theorem magnitude_written (h : Written components body) (hne : components ≠ [])
    (hsmall : countedSum components ≤ maxNanos) : magnitude body = .ok (countedSum components) := by
  rw [magnitude_components h hne, total_of_le components (by omega), Nat.zero_add]

/-- What is accepted without a sign is the bare zero or a sum in range. -/
theorem magnitude_eq_ok {cs : List Char} {n : ℕ} (h : magnitude cs = .ok n) :
    (cs = ['0'] ∧ n = 0) ∨ ∃ components, components ≠ [] ∧ Written components cs ∧
      countedSum components ≤ maxNanos ∧ n = countedSum components := by
  by_cases hzero : cs = ['0']
  · subst hzero
    exact Or.inl ⟨rfl, (Except.ok.inj h).symm⟩
  · unfold magnitude at h
    rw [if_neg hzero] at h
    split at h
    case isTrue => cases h
    case isFalse hempty =>
      dsimp only at h
      rcases total_cases (scan cs).1 with ⟨hrange, htotal⟩ | ⟨c, -, htotal⟩
      · cases hfault : (scan cs).2 with
        | some fault => rw [htotal, hfault] at h; cases h
        | none =>
          have hwritten := written_of_scan cs hfault
          have hne : (scan cs).1 ≠ [] := by
            intro hnone
            rw [hnone] at hwritten
            cases hwritten
            exact hempty rfl
          rw [htotal, hfault] at h
          exact Or.inr ⟨_, hne, hwritten, hrange, (Except.ok.inj h).symm⟩
      · rw [htotal] at h
        cases h

end Literals

theorem Sign.of_inj (sign : Sign) {m n : ℕ} : sign.of m = sign.of n ↔ m = n := by
  cases sign with
  | minus =>
    show -(m : ℤ) = -(n : ℤ) ↔ _
    rw [neg_inj, Nat.cast_inj]
  | _ => exact Nat.cast_inj

/-- Every accepted number is in range. -/
theorem natAbs_le_of_parse {text : List Char} {n : ℤ} (h : parse text = .ok n) :
    n.natAbs ≤ maxNanos := by
  obtain ⟨sign, body, rfl, hsign⟩ := exists_sign text
  rw [parse_signed sign hsign] at h
  cases hbody : magnitude body with
  | error fault => rw [hbody] at h; cases h
  | ok m =>
    rw [hbody] at h
    obtain rfl : sign.of m = n := Except.ok.inj h
    have habs : (sign.of m).natAbs = m := by
      cases sign with
      | minus => exact (Int.natAbs_neg _).trans (Int.natAbs_natCast m)
      | _ => exact Int.natAbs_natCast m
    rw [habs]
    rcases magnitude_eq_ok hbody with ⟨-, rfl⟩ | ⟨components, -, -, hrange, rfl⟩
    · exact Nat.zero_le _
    · exact hrange

/-- The number of an accepted literal with the given sign and components. -/
structure ValueLaw (sign : Sign) (components : List Component) (n : ℤ) : Prop where
  inRange : countedSum components ≤ maxNanos
  value : n = sign.of (countedSum components)
  /-- The exact nanoseconds of a component are those that it counts for, and one more if it
  loses digits. -/
  off : ∀ c ∈ components, c.exactNanos = c.countedNanos + if c.Loses then 1 else 0
  /-- The number is the exact one if and only if no component does. -/
  exact : n = sign.of (exactSum components) ↔ ∀ c ∈ components, ¬c.Loses
  /-- Fractions of up to 18 digits lose nothing, and those of seconds and less never do. -/
  loses : ∀ c ∈ components, c.Loses →
    (c.unit = .minute ∨ c.unit = .hour) ∧ fractionDigits < c.fraction.length

/-- **What an accepted literal is worth.** It is the bare zero, or a sign and one or more
components. Its number is then the sum of what the components count for, with that sign, and
that is the exact sum, each component rounded down to a nanosecond by itself, unless some
component loses digits. -/
theorem parse_value {text : List Char} {n : ℤ} (h : parse text = .ok n) :
    (∃ sign : Sign, text = sign.text ++ ['0'] ∧ n = 0) ∨
    ∃ (sign : Sign) (components : List Component) (body : List Char), text = sign.text ++ body ∧
      components ≠ [] ∧ Written components body ∧ ValueLaw sign components n := by
  obtain ⟨sign, body, rfl, hsign⟩ := exists_sign text
  rw [parse_signed sign hsign] at h
  cases hbody : magnitude body with
  | error fault => rw [hbody] at h; cases h
  | ok m =>
    rw [hbody] at h
    obtain rfl : sign.of m = n := Except.ok.inj h
    rcases magnitude_eq_ok hbody with ⟨rfl, rfl⟩ | ⟨components, hne, hwritten, hrange, rfl⟩
    · exact Or.inl ⟨sign, rfl, by cases sign <;> rfl⟩
    · refine Or.inr ⟨sign, components, body, rfl, hne, hwritten, hrange, rfl, ?_, ?_, ?_⟩
      · exact fun c hc => Component.exactNanos_eq_counted (hwritten.isDecimal c hc)
      · rw [sign.of_inj]
        exact countedSum_eq_iff hwritten.isDecimal
      · exact fun c hc => Component.Loses.long (hwritten.isDecimal c hc)

/-- A literal with a sign, a point without digits in front and a fraction that loses digits. -/
theorem parse_value_signed :
    parse "-.5s0.0000000000166666667m".toList = .ok (-500000000) ∧
    ((∃ sign : Sign, "-.5s0.0000000000166666667m".toList = sign.text ++ ['0'] ∧ (-500000000 : ℤ) = 0) ∨
      ∃ (sign : Sign) (components : List Component) (body : List Char),
        "-.5s0.0000000000166666667m".toList = sign.text ++ body ∧ components ≠ [] ∧
        Written components body ∧ ValueLaw sign components (-500000000)) := by
  have h : parse "-.5s0.0000000000166666667m".toList = .ok (-500000000) := by decide +kernel
  exact ⟨h, parse_value h⟩

/-- An hour has more nanoseconds than these digits can tell: the number is a little more than
one nanosecond, and its first 18 digits are a little less. -/
theorem not_exact_longFraction :
    Written [⟨['0'], "0000000000002777778".toList, .hour⟩] "0.0000000000002777778h".toList ∧
      exactSum [⟨['0'], "0000000000002777778".toList, .hour⟩] = 1 ∧
      parse "0.0000000000002777778h".toList = .ok 0 := by
  refine ⟨written_iff_scan.mpr (by decide +kernel), ?_, by decide +kernel⟩
  show Component.exactNanos _ + 0 = 1
  rw [Component.exactNanos_eq]
  decide +kernel

end StubServer.Duration
