import StubServer.Proofs.BehaviorFile.Contents

/-!
# Blanks in a line

A line is trimmed before it is read, and so are the name in the brackets of a header and the
key and the value of a property. So blanks in these places do not count:

> `Spaced.ofText`: a line that was given more blanks at its ends, just inside its brackets or
> around its first equals sign says what it said before.

For the equals sign the reason is that it is not blank itself. The two sides of it are trimmed
as if each stood alone (`Text.trim_around`), and whether the whole is a property is seen from
what the left side begins with and the right side ends with (`isPlain_halves`).

The lines that mean nothing, however they are spaced, are the blank ones, the comments, and
those neither in brackets nor with an equals sign (`Line.ofText_eq_skipped`).
-/

namespace StubServer

/-! ## Blanks around a text -/

namespace Text

/-- A text of blanks. -/
def IsPadding (cs : List Char) : Prop :=
  ∀ c ∈ cs, isBlank c = true

instance (cs : List Char) : Decidable (IsPadding cs) :=
  decidable_of_iff (cs.all isBlank = true) List.all_eq_true

section Padding

variable {front back pad : List Char}

theorem trim_padding_append (h : IsPadding pad) (cs : List Char) : trim (pad ++ cs) = trim cs := by
  unfold trim trimStart
  rw [List.dropWhile_append_of_pos h]

theorem trim_append_padding (h : IsPadding pad) (cs : List Char) : trim (cs ++ pad) = trim cs := by
  induction pad using List.reverseRecOn with
  | nil => rw [List.append_nil]
  | append_singleton pad c ih =>
    rw [← List.append_assoc, trim_concat_blank (h c (by simp))]
    exact ih fun c' hc' => h c' (List.mem_append_left _ hc')

theorem trim_padded (hfront : IsPadding front) (hback : IsPadding back) (cs : List Char) :
    trim (front ++ cs ++ back) = trim cs := by
  rw [trim_append_padding hback, trim_padding_append hfront]

theorem trim_trimStart (cs : List Char) : trim (trimStart cs) = trim cs := by
  have hpad : IsPadding (cs.takeWhile isBlank) := List.all_eq_true.mp List.all_takeWhile
  conv => rhs; rw [← List.takeWhile_append_dropWhile (p := isBlank) (l := cs)]
  exact (trim_padding_append hpad _).symm

theorem trimEnd_eq (cs : List Char) : trimEnd cs = (trimStart cs.reverse).reverse :=
  rfl

theorem trim_trimEnd (cs : List Char) : trim (trimEnd cs) = trim cs := by
  have hpad : IsPadding (cs.reverse.takeWhile isBlank).reverse := fun c hc =>
    List.all_eq_true.mp List.all_takeWhile c (List.mem_reverse.mp hc)
  have hcs : trimEnd cs ++ (cs.reverse.takeWhile isBlank).reverse = cs := by
    rw [trimEnd_eq, ← List.reverse_append, trimStart, List.takeWhile_append_dropWhile,
      List.reverse_reverse]
  conv => rhs; rw [← hcs]
  exact (trim_append_padding hpad _).symm

/-- Blanks at the end of a text are not its first characters. -/
theorem head?_trimStart_append (h : IsPadding pad) (cs : List Char) :
    (trimStart (cs ++ pad)).head? = (trimStart cs).head? := by
  have hpad : trimStart pad = [] := List.dropWhile_eq_nil_iff.mpr h
  unfold trimStart at hpad ⊢
  rw [List.dropWhile_append]
  split
  next hall => rw [hpad, List.isEmpty_iff.mp hall]
  next hsome =>
    rw [Bool.not_eq_true, List.isEmpty_eq_false_iff] at hsome
    exact List.head?_append_of_ne_nil _ hsome

theorem getLast?_trimEnd_append (h : IsPadding pad) (cs : List Char) :
    (trimEnd (pad ++ cs)).getLast? = (trimEnd cs).getLast? := by
  have hpad : IsPadding pad.reverse := fun c hc => h c (List.mem_reverse.mp hc)
  rw [trimEnd_eq, trimEnd_eq, List.getLast?_reverse, List.getLast?_reverse, List.reverse_append,
    head?_trimStart_append hpad]

end Padding

/-- Around a character that is not blank a text is trimmed on either side by itself. -/
theorem trim_around {c : Char} (hc : isBlank c = false) (left right : List Char) :
    trim (left ++ c :: right) = trimStart left ++ c :: trimEnd right := by
  have hstart : ∀ xs ys : List Char, trimStart (xs ++ c :: ys) = trimStart xs ++ c :: ys := by
    intro xs ys
    unfold trimStart
    rw [List.dropWhile_append]
    split
    next hall =>
      rw [List.isEmpty_iff.mp hall, List.dropWhile_cons_of_neg (by simp [hc])]
      rfl
    next => rfl
  -- the end is trimmed like the start of the reversed text, in which the character still stands
  have hreverse : (trimStart left ++ c :: right).reverse =
      right.reverse ++ c :: (trimStart left).reverse := by
    simp
  unfold trim
  rw [hstart, trimEnd_eq, hreverse, hstart, trimEnd_eq]
  simp

end Text

namespace BehaviorFile

open Text (IsPadding)

/-! ## Lines that mean nothing -/

/-- A line that is blank, a comment, or neither in brackets nor with an equals sign. -/
def IsIdle (raw : List Char) : Prop :=
  Text.trim raw = [] ∨ isComment (Text.trim raw) = true ∨ (headerOn? raw = none ∧ '=' ∉ raw)

instance (raw : List Char) : Decidable (IsIdle raw) :=
  inferInstanceAs (Decidable (_ ∨ _ ∨ _))

/-- An equals sign is not trimmed off. -/
theorem equals_mem_trim {raw : List Char} : '=' ∈ Text.trim raw ↔ '=' ∈ raw := by
  constructor
  · exact fun h => (Text.trim_sublist raw).subset h
  · intro h
    obtain ⟨left, right, rfl⟩ := List.append_of_mem h
    rw [Text.trim_around (by decide)]
    exact List.mem_append_right _ (List.mem_cons_self ..)

/-- These lines mean nothing, and all others mean something. -/
theorem Line.ofText_eq_skipped {raw : List Char} : ofText raw = .skipped ↔ IsIdle raw := by
  unfold ofText ofTrimmed IsIdle headerOn?
  rw [Option.map_eq_none_iff, ← equals_mem_trim]
  generalize Text.trim raw = cs
  split
  next hskipped =>
    rw [Bool.or_eq_true, List.isEmpty_iff] at hskipped
    exact ⟨fun _ => hskipped.elim Or.inl fun h => Or.inr (Or.inl h), fun _ => rfl⟩
  next hread =>
    rw [Bool.or_eq_true, List.isEmpty_iff, not_or] at hread
    cases hbrackets : bracketed? cs with
    | some inner => simp [hread]
    | none =>
      by_cases hsign : '=' ∈ cs
      · obtain ⟨left, right, rfl, hleft⟩ := List.eq_append_cons_of_mem hsign
        simp [hread, Text.cut_append hleft]
      · simp [Text.cut_eq_none hsign, hsign]

/-! ## Lines with more blanks -/

/-- A line with more blanks: at its ends, just inside the brackets of a header, or around the
first equals sign of a property. -/
inductive Spaced : List Char → List Char → Prop
  | ends {raw front back : List Char} (hfront : IsPadding front) (hback : IsPadding back) :
    Spaced raw (front ++ raw ++ back)
  | brackets {inner front back left right : List Char} (hfront : IsPadding front)
      (hback : IsPadding back) (hleft : IsPadding left) (hright : IsPadding right) :
    Spaced (front ++ ('[' :: inner ++ [']']) ++ back)
      (front ++ ('[' :: (left ++ inner ++ right) ++ [']']) ++ back)
  | sign {key value left right : List Char} (hfirst : '=' ∉ key)
      (hproperty : (propertyOn? (key ++ '=' :: value)).isSome = true) (hleft : IsPadding left)
      (hright : IsPadding right) :
    Spaced (key ++ '=' :: value) ((key ++ left) ++ '=' :: (right ++ value))

/-- Whether a text is plain is seen from what its halves begin and end with. -/
theorem isPlain_halves {left right : List Char} : IsPlain (left ++ '=' :: right) ↔
    (∀ c ∈ left.head?, c ≠ '#' ∧ c ≠ ';') ∧
      ¬(left.head? = some '[' ∧ right.getLast? = some ']') := by
  have hcomment : isComment (left ++ '=' :: right) = false ↔
      ∀ c ∈ left.head?, c ≠ '#' ∧ c ≠ ';' := by
    rw [isComment_eq]
    cases left <;> simp
  have hbrackets : bracketed? (left ++ '=' :: right) = none ↔
      ¬(left.head? = some '[' ∧ right.getLast? = some ']') := by
    rw [Option.eq_none_iff_forall_ne_some, ← not_exists, not_iff_not]
    simp only [bracketed?_eq_some]
    constructor
    · rintro ⟨inner, hinner⟩
      cases left with
      | nil => exact absurd (List.cons.inj hinner).1 (by decide)
      | cons c rest =>
        obtain ⟨rfl, htail⟩ := List.cons.inj hinner
        refine ⟨rfl, ?_⟩
        have hlast : (rest ++ '=' :: right).getLast? = some ']' :=
          (congrArg List.getLast? htail).trans List.getLast?_concat
        rw [List.getLast?_append_of_ne_nil _ (by simp)] at hlast
        cases right with
        | nil => exact absurd (Option.some.inj hlast) (by decide)
        | cons a more => exact hlast
    · rintro ⟨hopening, hclosing⟩
      obtain ⟨rest, rfl⟩ := List.head?_eq_some_iff.mp hopening
      obtain ⟨front, rfl⟩ := List.getLast?_eq_some_iff.mp hclosing
      exact ⟨rest ++ '=' :: front, by simp⟩
  rw [← hcomment, ← hbrackets]
  exact ⟨fun h => ⟨h.comment, h.brackets⟩, fun h => ⟨h.1, h.2⟩⟩

/-- What the two sides of the first equals sign say. -/
theorem Line.ofText_halves {left right : List Char} (hfirst : '=' ∉ left) {key value : String} :
    ofText (left ++ '=' :: right) = .property key value ↔
      IsPlain (Text.trimStart left ++ '=' :: Text.trimEnd right) ∧
        key = kept left ∧ value = kept right := by
  have hcut : Text.cut '=' (Text.trimStart left ++ '=' :: Text.trimEnd right) =
      some (Text.trimStart left, Text.trimEnd right) :=
    Text.cut_append (fun hmem => hfirst ((List.dropWhile_sublist _).subset hmem)) _
  rw [Line.ofText_eq_property, Text.trim_around (by decide), hcut]
  unfold kept
  constructor
  · rintro ⟨hplain, k, v, hkv, rfl, rfl⟩
    obtain ⟨rfl, rfl⟩ := Prod.mk.inj (Option.some.inj hkv)
    rw [Text.trim_trimStart, Text.trim_trimEnd]
    exact ⟨hplain, rfl, rfl⟩
  · rintro ⟨hplain, rfl, rfl⟩
    refine ⟨hplain, _, _, rfl, ?_, ?_⟩
    · rw [Text.trim_trimStart]
    · rw [Text.trim_trimEnd]

/-- A line with more blanks says the same. -/
theorem Spaced.ofText {raw raw' : List Char} (h : Spaced raw raw') :
    Line.ofText raw' = Line.ofText raw := by
  cases h with
  | ends hfront hback =>
    unfold Line.ofText
    rw [Text.trim_padded hfront hback]
  | @brackets inner front back left right hfront hback hleft hright =>
    have hheader : ∀ inner : List Char,
        Line.ofText (front ++ ('[' :: inner ++ [']']) ++ back) = .header (kept inner) := by
      intro inner
      have hbare := Line.ofText_header inner
      unfold Line.ofText at hbare ⊢
      rw [Text.trim_padded hfront hback, hbare]
    rw [hheader, hheader]
    unfold kept
    rw [Text.trim_padded hleft hright]
  | @sign key value left right hfirst hproperty hleft hright =>
    obtain ⟨⟨name, text⟩, hread⟩ := Option.isSome_iff_exists.mp hproperty
    have hline := propertyOn?_eq_some.mp hread
    obtain ⟨hplain, rfl, rfl⟩ := (Line.ofText_halves hfirst).mp hline
    -- a sign is not blank, so the first one is still the first
    have hfirst' : '=' ∉ key ++ left := by
      intro hmem
      rcases List.mem_append.mp hmem with hin | hin
      · exact hfirst hin
      · exact absurd (hleft _ hin) (by decide)
    rw [hline]
    refine (Line.ofText_halves hfirst').mpr ⟨?_, ?_, ?_⟩
    · rw [isPlain_halves] at hplain ⊢
      rw [Text.head?_trimStart_append hleft, Text.getLast?_trimEnd_append hright]
      exact hplain
    · unfold kept
      rw [Text.trim_append_padding hleft]
    · unfold kept
      rw [Text.trim_padding_append hright]

end BehaviorFile

end StubServer
