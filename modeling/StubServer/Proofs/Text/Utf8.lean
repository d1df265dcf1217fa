import Mathlib
import StubServer.Text.Utf8

/-!
# Reading what was written

A text and its octets determine each other:

> `decode_eq_some_iff`: octets are read as a text if and only if they are what that text is
> written as.

For one character (`first?_encodeChar`, `eq_encodeChar_of_first?`) this is arithmetic on the digits
of its scalar value to the base 64. The lead octet tells how many there are, and the bounds of
`scalar?` rule out every form but the shortest.
-/

namespace StubServer.Text.Utf8

/-! ## Octets and scalar values -/

section Octets

variable {n : Nat} {a b b' b'' : UInt8} {c : Char}

theorem toNat_octet (h : n < 256) : (UInt8.ofNat n).toNat = n :=
  UInt8.toNat_ofNat_of_lt' h

theorem octet_eq (h : n = a.toNat) : UInt8.ofNat n = a := by
  rw [h, UInt8.ofNat_toNat]

theorem toNat_lt (c : Char) : c.toNat < 0x110000 := by
  rcases c.valid with h | ⟨-, h⟩
  · exact Nat.lt_trans h (by decide)
  · exact h

theorem continuation?_eq_some :
    continuation? b = some n ↔ (0x80 ≤ b.toNat ∧ b.toNat < 0xC0) ∧ b.toNat - 0x80 = n := by
  unfold continuation?
  rw [Option.ite_none_right_eq_some, Option.some.injEq]

theorem scalar?_eq_some {least : Nat} : scalar? least n = some c ↔ least ≤ n ∧ c.toNat = n := by
  unfold scalar?
  rw [Option.ite_none_right_eq_some, Option.some.injEq]
  constructor
  · rintro ⟨⟨hleast, hvalid⟩, rfl⟩
    exact ⟨hleast, by rw [Char.toNat_ofNat, if_pos hvalid]⟩
  · rintro ⟨hleast, rfl⟩
    exact ⟨⟨hleast, c.valid⟩, Char.ofNat_toNat c⟩

/-- Whether an octet goes on with a character. -/
def IsContinuation (b : UInt8) : Prop :=
  0x80 ≤ b.toNat ∧ b.toNat < 0xC0

theorem two?_eq_some : two? a b = some c ↔ IsContinuation b ∧ 0x80 ≤ c.toNat ∧
    c.toNat = (a.toNat - 0xC0) * 0x40 + (b.toNat - 0x80) := by
  unfold two? IsContinuation
  simp only [Option.bind_eq_bind, Option.bind_eq_some_iff, continuation?_eq_some, scalar?_eq_some]
  constructor
  · rintro ⟨_, ⟨hb, rfl⟩, hleast, hc⟩
    exact ⟨hb, hc ▸ hleast, hc⟩
  · rintro ⟨hb, hleast, hc⟩
    exact ⟨_, ⟨hb, rfl⟩, hc ▸ hleast, hc⟩

theorem three?_eq_some : three? a b b' = some c ↔ IsContinuation b ∧ IsContinuation b' ∧
    0x800 ≤ c.toNat ∧
    c.toNat = (a.toNat - 0xE0) * 0x1000 + (b.toNat - 0x80) * 0x40 + (b'.toNat - 0x80) := by
  unfold three? IsContinuation
  simp only [Option.bind_eq_bind, Option.bind_eq_some_iff, continuation?_eq_some, scalar?_eq_some]
  constructor
  · rintro ⟨_, ⟨hb, rfl⟩, _, ⟨hb', rfl⟩, hleast, hc⟩
    exact ⟨hb, hb', hc ▸ hleast, hc⟩
  · rintro ⟨hb, hb', hleast, hc⟩
    exact ⟨_, ⟨hb, rfl⟩, _, ⟨hb', rfl⟩, hc ▸ hleast, hc⟩

theorem four?_eq_some : four? a b b' b'' = some c ↔
    IsContinuation b ∧ IsContinuation b' ∧ IsContinuation b'' ∧ 0x10000 ≤ c.toNat ∧
    c.toNat = (a.toNat - 0xF0) * 0x40000 + (b.toNat - 0x80) * 0x1000 + (b'.toNat - 0x80) * 0x40 +
      (b''.toNat - 0x80) := by
  unfold four? IsContinuation
  simp only [Option.bind_eq_bind, Option.bind_eq_some_iff, continuation?_eq_some, scalar?_eq_some]
  constructor
  · rintro ⟨_, ⟨hb, rfl⟩, _, ⟨hb', rfl⟩, _, ⟨hb'', rfl⟩, hleast, hc⟩
    exact ⟨hb, hb', hb'', hc ▸ hleast, hc⟩
  · rintro ⟨hb, hb', hb'', hleast, hc⟩
    exact ⟨_, ⟨hb, rfl⟩, _, ⟨hb', rfl⟩, _, ⟨hb'', rfl⟩, hc ▸ hleast, hc⟩

end Octets

/-! ## One character -/

/-- The octets of a character, in terms of its scalar value. -/
theorem encodeChar_eq (c : Char) : String.utf8EncodeChar c =
    if c.toNat ≤ 0x7F then [UInt8.ofNat c.toNat]
    else if c.toNat ≤ 0x7FF then
      [UInt8.ofNat (c.toNat / 0x40 % 0x20 + 0xC0), UInt8.ofNat (c.toNat % 0x40 + 0x80)]
    else if c.toNat ≤ 0xFFFF then
      [UInt8.ofNat (c.toNat / 0x1000 % 0x10 + 0xE0), UInt8.ofNat (c.toNat / 0x40 % 0x40 + 0x80),
        UInt8.ofNat (c.toNat % 0x40 + 0x80)]
    else
      [UInt8.ofNat (c.toNat / 0x40000 % 8 + 0xF0), UInt8.ofNat (c.toNat / 0x1000 % 0x40 + 0x80),
        UInt8.ofNat (c.toNat / 0x40 % 0x40 + 0x80), UInt8.ofNat (c.toNat % 0x40 + 0x80)] :=
  rfl

/-- A character that was written is read, and what follows it is left. -/
theorem first?_encodeChar (c : Char) (rest : List UInt8) :
    first? (String.utf8EncodeChar c ++ rest) = some (c, rest) := by
  have hc := toNat_lt c
  rw [encodeChar_eq]
  split
  case isTrue hone =>
    simp only [List.cons_append, List.nil_append, first?]
    rw [toNat_octet (by omega), if_pos (by omega), Char.ofNat_toNat]
  case isFalse hone =>
    split
    case isTrue htwo =>
      have hread : two? (UInt8.ofNat (c.toNat / 0x40 % 0x20 + 0xC0))
          (UInt8.ofNat (c.toNat % 0x40 + 0x80)) = some c := by
        rw [two?_eq_some, IsContinuation, toNat_octet (by omega), toNat_octet (by omega)]
        omega
      simp only [List.cons_append, List.nil_append, first?]
      rw [toNat_octet (by omega), if_neg (by omega), if_neg (by omega), if_pos (by omega), hread]
      rfl
    case isFalse htwo =>
      split
      case isTrue hthree =>
        have hread : three? (UInt8.ofNat (c.toNat / 0x1000 % 0x10 + 0xE0))
            (UInt8.ofNat (c.toNat / 0x40 % 0x40 + 0x80)) (UInt8.ofNat (c.toNat % 0x40 + 0x80)) =
            some c := by
          rw [three?_eq_some, IsContinuation, IsContinuation, toNat_octet (by omega),
            toNat_octet (by omega), toNat_octet (by omega)]
          omega
        simp only [List.cons_append, List.nil_append, first?]
        rw [toNat_octet (by omega), if_neg (by omega), if_neg (by omega), if_neg (by omega),
          if_pos (by omega), hread]
        rfl
      case isFalse hthree =>
        have hread : four? (UInt8.ofNat (c.toNat / 0x40000 % 8 + 0xF0))
            (UInt8.ofNat (c.toNat / 0x1000 % 0x40 + 0x80))
            (UInt8.ofNat (c.toNat / 0x40 % 0x40 + 0x80)) (UInt8.ofNat (c.toNat % 0x40 + 0x80)) =
            some c := by
          rw [four?_eq_some, IsContinuation, IsContinuation, IsContinuation, toNat_octet (by omega),
            toNat_octet (by omega), toNat_octet (by omega), toNat_octet (by omega)]
          omega
        simp only [List.cons_append, List.nil_append, first?]
        rw [toNat_octet (by omega), if_neg (by omega), if_neg (by omega), if_neg (by omega),
          if_neg (by omega), if_pos (by omega), hread]
        rfl

section Written

variable {a b b' b'' : UInt8} {c : Char}

/-- What was read of two, three or four octets is written as these. -/
theorem encodeChar_of_two? (ha : 0xC0 ≤ a.toNat ∧ a.toNat < 0xE0) (h : two? a b = some c) :
    String.utf8EncodeChar c = [a, b] := by
  obtain ⟨hb, hleast, hc⟩ := two?_eq_some.mp h
  unfold IsContinuation at hb
  rw [encodeChar_eq, if_neg (by omega), if_pos (by omega), octet_eq (a := a) (by omega),
    octet_eq (a := b) (by omega)]

@[inherit_doc encodeChar_of_two?]
theorem encodeChar_of_three? (ha : 0xE0 ≤ a.toNat ∧ a.toNat < 0xF0) (h : three? a b b' = some c) :
    String.utf8EncodeChar c = [a, b, b'] := by
  obtain ⟨hb, hb', hleast, hc⟩ := three?_eq_some.mp h
  unfold IsContinuation at hb hb'
  rw [encodeChar_eq, if_neg (by omega), if_neg (by omega), if_pos (by omega),
    octet_eq (a := a) (by omega), octet_eq (a := b) (by omega), octet_eq (a := b') (by omega)]

@[inherit_doc encodeChar_of_two?]
theorem encodeChar_of_four? (ha : 0xF0 ≤ a.toNat ∧ a.toNat < 0xF8) (h : four? a b b' b'' = some c) :
    String.utf8EncodeChar c = [a, b, b', b''] := by
  obtain ⟨hb, hb', hb'', hleast, hc⟩ := four?_eq_some.mp h
  unfold IsContinuation at hb hb' hb''
  rw [encodeChar_eq, if_neg (by omega), if_neg (by omega), if_neg (by omega),
    octet_eq (a := a) (by omega), octet_eq (a := b) (by omega), octet_eq (a := b') (by omega),
    octet_eq (a := b'') (by omega)]

end Written

/-- A character that was read is written as the octets it was read from. -/
theorem eq_encodeChar_of_first? {bs rest : List UInt8} {c : Char}
    (h : first? bs = some (c, rest)) : bs = String.utf8EncodeChar c ++ rest := by
  cases bs with
  | nil => cases h
  | cons a bs =>
    simp only [first?] at h
    split at h
    case isTrue hone =>
      obtain ⟨rfl, rfl⟩ := Prod.mk.inj (Option.some.inj h)
      have hvalue : (Char.ofNat a.toNat).toNat = a.toNat := by
        rw [Char.toNat_ofNat, if_pos (Or.inl (by omega))]
      rw [encodeChar_eq, hvalue, if_pos (by omega), octet_eq rfl]
      rfl
    case isFalse hone =>
      split at h
      case isTrue => cases h
      case isFalse hlead =>
        -- each length has its range of lead octets and wants so many octets after it
        split at h
        case isTrue htwo =>
          split at h
          next b bs =>
            obtain ⟨c', hread, hc⟩ := Option.map_eq_some_iff.mp h
            obtain ⟨rfl, rfl⟩ := Prod.mk.inj hc
            rw [encodeChar_of_two? ⟨by omega, htwo⟩ hread]
            rfl
          next => cases h
        case isFalse htwo =>
          split at h
          case isTrue hthree =>
            split at h
            next b b' bs =>
              obtain ⟨c', hread, hc⟩ := Option.map_eq_some_iff.mp h
              obtain ⟨rfl, rfl⟩ := Prod.mk.inj hc
              rw [encodeChar_of_three? ⟨by omega, hthree⟩ hread]
              rfl
            next => cases h
          case isFalse hthree =>
            split at h
            case isTrue hfour =>
              split at h
              next b b' b'' bs =>
                obtain ⟨c', hread, hc⟩ := Option.map_eq_some_iff.mp h
                obtain ⟨rfl, rfl⟩ := Prod.mk.inj hc
                rw [encodeChar_of_four? ⟨by omega, hfour⟩ hread]
                rfl
              next => cases h
            case isFalse => cases h

/-! ## Whole texts -/

theorem encode_cons (c : Char) (cs : List Char) :
    encode (c :: cs) = String.utf8EncodeChar c ++ encode cs :=
  List.flatMap_cons

/-- Reading goes on after a character that was read. -/
theorem go_of_first? {bs rest : List UInt8} {c : Char} (h : first? bs = some (c, rest))
    (read : List Char) : decode.go bs read = decode.go rest (c :: read) := by
  have hbs : bs.isEmpty = false := by
    cases bs with
    | nil => cases h
    | cons => rfl
  rw [decode.go, if_neg (by simp [hbs])]
  split
  next hnone => rw [h] at hnone; cases hnone
  next c' rest' hsome =>
    rw [h] at hsome
    obtain ⟨rfl, rfl⟩ := Prod.mk.inj (Option.some.inj hsome)
    rfl

/-- The octets of a text are read as that text. -/
theorem decode_encode (cs : List Char) : decode (encode cs) = some cs := by
  have hgo : ∀ (cs read : List Char), decode.go (encode cs) read = some (read.reverse ++ cs) := by
    intro cs
    induction cs with
    | nil =>
      intro read
      rw [decode.go, List.append_nil]
      rfl
    | cons c cs ih =>
      intro read
      rw [encode_cons, go_of_first? (first?_encodeChar c _), ih, List.reverse_cons, List.append_assoc]
      rfl
  exact hgo cs []

/-- Octets that are read as a text are those of that text. -/
theorem encode_of_decode {bs : List UInt8} {cs : List Char} (h : decode bs = some cs) :
    encode cs = bs := by
  have hgo : ∀ (bs : List UInt8) (read : List Char) {cs : List Char}, decode.go bs read = some cs →
      ∃ more, cs = read.reverse ++ more ∧ encode more = bs := by
    intro bs read
    fun_induction decode.go bs read with
    | case1 bs read hempty =>
      intro cs h
      exact ⟨[], by rw [← Option.some.inj h, List.append_nil], (List.isEmpty_iff.mp hempty).symm⟩
    | case2 => intro cs h; cases h
    | case3 bs read hempty c rest hfirst _ ih =>
      intro cs h
      obtain ⟨more, rfl, rfl⟩ := ih h
      refine ⟨c :: more, by simp, ?_⟩
      rw [encode_cons, eq_encodeChar_of_first? hfirst]
  obtain ⟨more, rfl, hmore⟩ := hgo bs [] h
  exact hmore

/-- **Octets and texts determine each other.** -/
theorem decode_eq_some_iff {bs : List UInt8} {cs : List Char} :
    decode bs = some cs ↔ encode cs = bs := by
  constructor
  · exact encode_of_decode
  · rintro rfl
    exact decode_encode cs

/-- Octets that no text is written as are not read. -/
theorem decode_eq_none_iff {bs : List UInt8} : decode bs = none ↔ ∀ cs, encode cs ≠ bs := by
  rw [Option.eq_none_iff_forall_ne_some]
  exact forall_congr' fun cs => not_congr decode_eq_some_iff

/-! ## Lines -/

/-- No octet of another character is that of a line feed: those of more than one octet have only
octets from 0x80 on. -/
theorem newline_mem_encodeChar {c : Char} : 0x0A ∈ String.utf8EncodeChar c ↔ c = '\n' := by
  have hc := toNat_lt c
  have hnewline : c = '\n' ↔ c.toNat = 0x0A := by
    rw [← Char.toNat_inj]
    rfl
  have hoctet : ∀ n < 256, 0x0A = UInt8.ofNat n ↔ n = 0x0A := by
    intro n hn
    rw [← UInt8.toNat_inj, toNat_octet hn]
    exact eq_comm
  rw [encodeChar_eq, hnewline]
  split
  case isTrue hone => rw [List.mem_singleton, hoctet _ (by omega)]
  case isFalse hone =>
    split
    case isTrue htwo =>
      simp only [List.mem_cons, List.not_mem_nil, or_false]
      rw [hoctet _ (by omega), hoctet _ (by omega)]
      omega
    case isFalse htwo =>
      split
      case isTrue hthree =>
        simp only [List.mem_cons, List.not_mem_nil, or_false]
        rw [hoctet _ (by omega), hoctet _ (by omega), hoctet _ (by omega)]
        omega
      case isFalse hthree =>
        simp only [List.mem_cons, List.not_mem_nil, or_false]
        rw [hoctet _ (by omega), hoctet _ (by omega), hoctet _ (by omega), hoctet _ (by omega)]
        omega

theorem newline_mem_encode {cs : List Char} : 0x0A ∈ encode cs ↔ '\n' ∈ cs := by
  unfold encode
  simp only [List.mem_flatMap, newline_mem_encodeChar, exists_eq_right]

theorem encode_append (xs ys : List Char) : encode (xs ++ ys) = encode xs ++ encode ys :=
  List.flatMap_append

/-- Lines are written one after the other. -/
theorem encode_intercalate : ∀ lines : List (List Char),
    encode (['\n'].intercalate lines) = [0x0A].intercalate (lines.map encode)
  | [] => rfl
  | [line] => by
    rw [List.map_singleton, List.intercalate_singleton, List.intercalate_singleton]
  | line :: next :: rest => by
    rw [List.map_cons, List.map_cons, List.intercalate_cons_cons, List.intercalate_cons_cons,
      encode_append, encode_append, encode_intercalate (next :: rest), List.map_cons]
    rfl

end StubServer.Text.Utf8
