/-!
# UTF-8

Writing is core's encoding of a character; reading accepts the shortest form of every Unicode scalar
value and nothing else, so overlong forms, surrogates and values past U+10FFFF are refused.
-/

namespace StubServer.Text.Utf8

/-- The octets of a text. -/
def encode (cs : List Char) : List UInt8 :=
  cs.flatMap String.utf8EncodeChar

/-- The six bits that a continuation octet carries. -/
def continuation? (b : UInt8) : Option Nat :=
  if 0x80 ≤ b.toNat ∧ b.toNat < 0xC0 then some (b.toNat - 0x80) else none

/-- The scalar value `n`, if it needs at least `least` and is one. -/
def scalar? (least n : Nat) : Option Char :=
  if least ≤ n ∧ n.isValidChar then some (Char.ofNat n) else none

/-- The character that a lead octet and two, three or four continuation octets write. -/
def two? (a b : UInt8) : Option Char := do
  let y ← continuation? b
  scalar? 0x80 ((a.toNat - 0xC0) * 0x40 + y)

@[inherit_doc two?]
def three? (a b c : UInt8) : Option Char := do
  let y ← continuation? b
  let z ← continuation? c
  scalar? 0x800 ((a.toNat - 0xE0) * 0x1000 + y * 0x40 + z)

@[inherit_doc two?]
def four? (a b c d : UInt8) : Option Char := do
  let x ← continuation? b
  let y ← continuation? c
  let z ← continuation? d
  scalar? 0x10000 ((a.toNat - 0xF0) * 0x40000 + x * 0x1000 + y * 0x40 + z)

/-- The first character of a sequence of octets, and the octets after it. -/
def first? : List UInt8 → Option (Char × List UInt8)
  | [] => none
  | a :: rest =>
    if a.toNat < 0x80 then some (Char.ofNat a.toNat, rest)
    else if a.toNat < 0xC0 then none
    else if a.toNat < 0xE0 then
      match rest with
      | b :: rest => (two? a b).map (·, rest)
      | _ => none
    else if a.toNat < 0xF0 then
      match rest with
      | b :: c :: rest => (three? a b c).map (·, rest)
      | _ => none
    else if a.toNat < 0xF8 then
      match rest with
      | b :: c :: d :: rest => (four? a b c d).map (·, rest)
      | _ => none
    else none

/-- Reading a character consumes octets. -/
theorem first?_length {bs rest : List UInt8} {c : Char} (h : first? bs = some (c, rest)) :
    rest.length < bs.length := by
  cases bs with
  | nil => simp [first?] at h
  | cons a bs =>
    simp only [first?] at h
    repeat' split at h
    all_goals try (rw [Option.map_eq_some_iff] at h; obtain ⟨_, _, h⟩ := h)
    all_goals cases h
    all_goals simp only [List.length_cons]; omega

/-- The text that the octets write, if they are well formed to the end. -/
def decode (bs : List UInt8) : Option (List Char) :=
  go bs []
where
  /-- Reads on, with the characters read so far in reverse. -/
  go (bs : List UInt8) (read : List Char) : Option (List Char) :=
    if bs.isEmpty then some read.reverse
    else
      match h : first? bs with
      | none => none
      | some (c, rest) =>
        have := first?_length h
        go rest (c :: read)
  termination_by bs.length

end StubServer.Text.Utf8
