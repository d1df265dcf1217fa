import StubServer.Proofs.Duration.Value

/-!
# Durations out of range

A literal is out of range once its components, added up from the left, pass the largest
number of nanoseconds. It must be refused then, whatever follows, and no word that the reader
works with may get in the way.

Most of its words cannot: the product of the digits of a fraction with a unit always fits one
(`fraction_fits`), and a whole part that does not fit is refused by itself. The one sum that
is not watched is that of the whole part and the fraction, and a component within a unit of the
largest word can crash there (`Crashes.narrow`). So the law holds for literals whose components
neither lose digits nor crash, and of any others it is known how they end:

> `parse_range`: a literal has a number as long as what its components count for is in range.
> The first component with which it is not ends the reading, in a refusal or in a crash.

`not_refused` shows both ways to get past the refusal.
-/

namespace StubServer.Duration

open Text

namespace Component

variable {c : Component}

theorem digitsValue_cut_lt (hc : c.IsDecimal) :
    digitsValue c.cut.fraction < 10 ^ c.cut.fraction.length :=
  digitsValue_lt fun d hd => hc d (List.mem_of_mem_take hd)

/-- The digits of a fraction times a unit fit a word, and so does the power of ten by which
they are divided. -/
theorem fraction_fits (hc : c.IsDecimal) :
    digitsValue c.cut.fraction * c.unit.nanos < wordSize 128 ∧
      10 ^ c.cut.fraction.length < wordSize 128 := by
  have hlength : c.cut.fraction.length ≤ fractionDigits := List.length_take_le _ _
  have hpow : 10 ^ c.cut.fraction.length ≤ 10 ^ fractionDigits :=
    Nat.pow_le_pow_right (by decide) hlength
  have hdigits := digitsValue_cut_lt hc
  have hword : 10 ^ fractionDigits * 10 ^ fractionDigits < wordSize 128 := by decide
  constructor
  · calc digitsValue c.cut.fraction * c.unit.nanos
        ≤ 10 ^ fractionDigits * 10 ^ fractionDigits := Nat.mul_le_mul (by omega) c.unit.nanos_le
      _ < wordSize 128 := hword
  · have hone : 1 ≤ 10 ^ fractionDigits := by decide
    calc 10 ^ c.cut.fraction.length ≤ 10 ^ fractionDigits := hpow
      _ ≤ 10 ^ fractionDigits * 10 ^ fractionDigits := Nat.le_mul_of_pos_left _ hone
      _ < wordSize 128 := hword

/-- A fraction is worth less than its unit. -/
theorem fractionNanos_lt (hc : c.IsDecimal) : c.fractionNanos < c.unit.nanos := by
  show digitsValue c.cut.fraction * c.unit.nanos / 10 ^ c.cut.fraction.length < _
  rw [Nat.div_lt_iff_lt_mul (by positivity), Nat.mul_comm]
  exact Nat.mul_lt_mul_of_pos_left (digitsValue_cut_lt hc) c.unit.nanos_pos

/-- A component only crashes if its whole part is less than a unit short of a word. -/
theorem Crashes.narrow (hc : c.IsDecimal) (h : c.Crashes) :
    wordSize 128 < digitsValue c.whole * c.unit.nanos + c.unit.nanos := by
  have hword := h.2
  have hfraction := fractionNanos_lt hc
  rw [countedNanos_eq] at hword
  omega

end Component

/-- What becomes of a literal with the given sign and components, whatever follows these. -/
structure RangeLaw (sign : Sign) (components : List Component) (body rest : List Char) : Prop where
  /-- No product that the reader forms for a fraction passes a word, -/
  fits : ∀ c ∈ components, digitsValue c.cut.fraction * c.unit.nanos < wordSize 128
  /-- and a sum only does if the whole part alone comes close to that. -/
  narrow : ∀ c ∈ components, c.Crashes →
    wordSize 128 < digitsValue c.whole * c.unit.nanos + c.unit.nanos
  /-- A sum out of range is refused if no component loses digits or crashes. -/
  exact : (∀ c ∈ components, ¬c.Loses ∧ ¬c.Crashes) → maxNanos < exactSum components →
    parse (sign.text ++ (body ++ rest)) = .error .overflow
  /-- Else the counts of the components decide. If they are out of range, there is a first
  component with which they are, -/
  beyond : maxNanos < countedSum components → ∃ c, FirstBeyond components c
  /-- and the literal is refused there or the program crashes. -/
  refused : ∀ c, FirstBeyond components c →
    parse (sign.text ++ (body ++ rest)) = .error (if c.Crashes then .crash else .overflow)
  /-- If they are in range, they are the number of the literal that ends here. -/
  accepted : countedSum components ≤ maxNanos → components ≠ [] →
    parse (sign.text ++ body) = .ok (sign.of (countedSum components))

/-- **What is out of range is refused, unless a component loses digits or crashes.** Take any
literal, and the components at its front up to some point: if their exact sum is out of
range, the literal is refused, provided that none of them loses digits or crashes. In general
it has no number either if what they count for is out of range, and it depends on the first
component with which it is whether the literal is refused or the program crashes. A literal of
just these components has that number otherwise. -/
theorem parse_range (sign : Sign) {components : List Component} {body rest : List Char}
    (hbody : Written components body) (hrest : EndsUnit rest) :
    RangeLaw sign components body rest := by
  have hrefused : ∀ c, FirstBeyond components c →
      parse (sign.text ++ (body ++ rest)) = .error (if c.Crashes then .crash else .overflow) := by
    intro c hc
    rw [parse_signed sign fun _ => (hbody.endsUnit hrest).isUnsigned,
      magnitude_firstBeyond hbody hrest hc]
    rfl
  refine ⟨?_, ?_, ?_, exists_firstBeyond, hrefused, ?_⟩
  · exact fun c hc => (Component.fraction_fits (hbody.isDecimal c hc)).1
  · exact fun c hc => Component.Crashes.narrow (hbody.isDecimal c hc)
  · intro hexact hlarge
    rw [← (countedSum_eq_iff hbody.isDecimal).mpr fun c hc => (hexact c hc).1] at hlarge
    obtain ⟨c, hc⟩ := exists_firstBeyond hlarge
    rw [hrefused c hc, if_neg (hexact c hc.mem).2]
  · intro hsmall hne
    rw [parse_signed sign fun _ => hbody.isUnsigned, magnitude_written hbody hne hsmall]
    rfl

/-- The smallest number of nanoseconds that is out of range, below zero and with more to
follow. -/
theorem parse_range_leftmost :
    Written [⟨"2562047".toList, [], .hour⟩, ⟨"47".toList, [], .minute⟩,
        ⟨"16".toList, "854775808".toList, .second⟩] "2562047h47m16.854775808s".toList ∧
      EndsUnit ".x".toList ∧
      RangeLaw .minus [⟨"2562047".toList, [], .hour⟩, ⟨"47".toList, [], .minute⟩,
        ⟨"16".toList, "854775808".toList, .second⟩] "2562047h47m16.854775808s".toList ".x".toList := by
  have hbody : Written [⟨"2562047".toList, [], .hour⟩, ⟨"47".toList, [], .minute⟩,
      ⟨"16".toList, "854775808".toList, .second⟩] "2562047h47m16.854775808s".toList :=
    written_iff_scan.mpr (by decide +kernel)
  have hrest : EndsUnit ".x".toList := fun c hc => Or.inl (Option.some.inj hc).symm
  exact ⟨hbody, hrest, parse_range .minus hbody hrest⟩

/-- Two literals of one component that are out of range and are not refused. The first is as
large as a word, and its fraction is what does not fit: the program crashes. The second is
one nanosecond out of range, and that is the one that the digits not looked at would have
carried over; it counts for the largest number. -/
theorem not_refused :
    (Written [⟨"340282366920938463463374607431768211".toList, "456".toList, .microsecond⟩]
        "340282366920938463463374607431768211.456us".toList ∧
      exactSum [⟨"340282366920938463463374607431768211".toList, "456".toList, .microsecond⟩] =
        wordSize 128 ∧
      parse "340282366920938463463374607431768211.456us".toList = .error .crash) ∧
    Written [⟨"2562047".toList, "7880152155022222223".toList, .hour⟩]
        "2562047.7880152155022222223h".toList ∧
      exactSum [⟨"2562047".toList, "7880152155022222223".toList, .hour⟩] = maxNanos + 1 ∧
      parse "2562047.7880152155022222223h".toList = .ok maxNanos := by
  refine ⟨⟨written_iff_scan.mpr (by decide +kernel), ?_, by decide +kernel⟩,
    written_iff_scan.mpr (by decide +kernel), ?_, by decide +kernel⟩
  · show Component.exactNanos _ + 0 = _
    rw [Component.exactNanos_eq]
    decide +kernel
  · show Component.exactNanos _ + 0 = _
    rw [Component.exactNanos_eq]
    decide +kernel

end StubServer.Duration
