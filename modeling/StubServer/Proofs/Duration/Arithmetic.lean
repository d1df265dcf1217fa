import StubServer.Proofs.Duration.Value

/-!
# Adding and negating durations

Two literals can be written one after the other, and one can be written behind a sign. The
value follows the text: `countedSum` takes components in a row to the sum of theirs
(`countedSum_append`), and since no component can go on with the next one, a text of two
literals has the components of both (`Written.append`). The sum only grows on the way, so it
is out of range at some component if and only if it is in the end, wherever the first literal
ends. None of these components crashes, because each of them is in range by itself.
-/

namespace StubServer.Duration

section Adding

variable {xs ys components : List Component} {a b text : List Char}

/-- What two texts write, they write one after the other. -/
theorem Written.append (hxs : Written xs a) (hys : Written ys b) : Written (xs ++ ys) (a ++ b) := by
  induction hxs with
  | nil => exact hys
  | cons hfirst _ ih =>
    rw [List.cons_append, List.append_assoc]
    exact .cons hfirst ih

/-- Components in range do not crash. -/
theorem not_crashes_of_le (h : countedSum components ≤ maxNanos) : ∀ c ∈ components, ¬c.Crashes := by
  intro c hc hcrash
  have hpart : c.countedNanos ≤ countedSum components :=
    List.le_sum_of_mem (List.mem_map_of_mem hc)
  have hword : maxNanos < Text.wordSize 128 := by decide
  have hlarge := hcrash.2
  omega

/-- The value of components is their sum, if that is in range. -/
theorem parse_components (h : Written components text) (hne : components ≠ [])
    (hruns : ∀ c ∈ components, ¬c.Crashes) :
    parse text =
      if countedSum components ≤ maxNanos then .ok (countedSum components : ℤ) else .error .overflow := by
  have hparse : parse text = (magnitude text).map Sign.absent.of :=
    parse_signed .absent fun _ => h.isUnsigned
  rw [hparse]
  by_cases hrange : countedSum components ≤ maxNanos
  · rw [magnitude_written h hne hrange, if_pos hrange]
    rfl
  · obtain ⟨c, hc⟩ := exists_firstBeyond (Nat.lt_of_not_le hrange)
    have hsize := magnitude_firstBeyond h endsUnit_nil hc
    rw [List.append_nil] at hsize
    rw [hsize, if_neg hrange, show c.sizeFault = .overflow from if_neg (hruns c hc.mem)]
    rfl

/-- What is accepted without a sign, but the bare zero, is components in range. -/
theorem exists_components {n : ℤ} (hsign : IsUnsigned text) (hzero : text ≠ ['0'])
    (h : parse text = .ok n) :
    ∃ components, components ≠ [] ∧ Written components text ∧ countedSum components ≤ maxNanos ∧
      n = countedSum components := by
  have hparse : parse text = (magnitude text).map Sign.absent.of := parse_signed .absent fun _ => hsign
  rw [hparse] at h
  cases hbody : magnitude text with
  | error fault => rw [hbody] at h; cases h
  | ok m =>
    rw [hbody] at h
    obtain rfl : (m : ℤ) = n := Except.ok.inj h
    rcases magnitude_eq_ok hbody with ⟨hbare, -⟩ | ⟨components, hne, hwritten, hrange, rfl⟩
    · exact absurd hbare hzero
    · exact ⟨components, hne, hwritten, hrange, rfl⟩

/-- Literals one after the other are worth their sum. -/
theorem parse_append {m n : ℤ} (ha : IsUnsigned a) (hazero : a ≠ ['0']) (hm : parse a = .ok m)
    (hb : IsUnsigned b) (hbzero : b ≠ ['0']) (hn : parse b = .ok n) :
    parse (a ++ b) = if m + n ≤ maxNanos then .ok (m + n) else .error .overflow := by
  obtain ⟨xs, hxs, hawritten, hxsrange, rfl⟩ := exists_components ha hazero hm
  obtain ⟨ys, -, hbwritten, hysrange, rfl⟩ := exists_components hb hbzero hn
  have hruns : ∀ c ∈ xs ++ ys, ¬c.Crashes :=
    List.forall_mem_append.mpr ⟨not_crashes_of_le hxsrange, not_crashes_of_le hysrange⟩
  have hcast : (countedSum xs : ℤ) + countedSum ys ≤ maxNanos ↔
      countedSum xs + countedSum ys ≤ maxNanos := by
    rw [← Nat.cast_add, Nat.cast_le]
  rw [parse_components (hawritten.append hbwritten) (List.append_ne_nil_of_left_ne_nil hxs ys) hruns,
    countedSum_append]
  push_cast
  simp only [hcast]

/-- A plus says nothing, and a minus negates. -/
theorem parse_sign (h : IsUnsigned text) :
    parse ('+' :: text) = parse text ∧ parse ('-' :: text) = (parse text).map fun n => -n := by
  have hparse : parse text = (magnitude text).map Sign.absent.of := parse_signed .absent fun _ => h
  have hplus : parse ('+' :: text) = (magnitude text).map Sign.plus.of :=
    parse_signed .plus fun hsign => by cases hsign
  have hminus : parse ('-' :: text) = (magnitude text).map Sign.minus.of :=
    parse_signed .minus fun hsign => by cases hsign
  rw [hparse, hplus, hminus]
  cases magnitude text with
  | error fault => exact ⟨rfl, rfl⟩
  | ok n => exact ⟨rfl, rfl⟩

end Adding

/-- **Durations add up and negate as they are written.** Two accepted literals without a sign,
other than the bare zero, make a literal of their sum, or one that is out of range if the sum
is. A plus in front of a text changes nothing; a minus negates its number, and leaves its fault
if it has one. -/
theorem parse_arithmetic :
    (∀ {a b : List Char} {m n : ℤ}, IsUnsigned a → a ≠ ['0'] → parse a = .ok m →
      IsUnsigned b → b ≠ ['0'] → parse b = .ok n →
        parse (a ++ b) = if m + n ≤ maxNanos then .ok (m + n) else .error .overflow) ∧
    ∀ {text : List Char}, IsUnsigned text →
      parse ('+' :: text) = parse text ∧ parse ('-' :: text) = (parse text).map fun n => -n :=
  ⟨parse_append, parse_sign⟩

/-- One nanosecond more than the largest number, and a text with a fault behind either sign. -/
theorem parse_arithmetic_boundary :
    (IsUnsigned "2562047h47m16.854775807s".toList ∧
      parse "2562047h47m16.854775807s".toList = .ok maxNanos ∧ IsUnsigned ".001us".toList ∧
      parse ".001us".toList = .ok 1 ∧
      parse ("2562047h47m16.854775807s".toList ++ ".001us".toList) = .error .overflow) ∧
    IsUnsigned "1h-30m".toList ∧ parse ('+' :: "1h-30m".toList) = parse "1h-30m".toList ∧
      parse ('-' :: "1h-30m".toList) = (parse "1h-30m".toList).map fun n => -n := by
  have hlong : IsUnsigned "2562047h47m16.854775807s".toList := by decide +kernel
  have hshort : IsUnsigned ".001us".toList := by decide +kernel
  have hfaulty : IsUnsigned "1h-30m".toList := by decide +kernel
  have hlargest : parse "2562047h47m16.854775807s".toList = .ok maxNanos := by decide +kernel
  have hone : parse ".001us".toList = .ok 1 := by decide +kernel
  refine ⟨⟨hlong, hlargest, hshort, hone, ?_⟩, hfaulty, parse_arithmetic.2 hfaulty⟩
  rw [parse_arithmetic.1 hlong (by decide) hlargest hshort (by decide) hone]
  exact if_neg (by decide)

end StubServer.Duration
