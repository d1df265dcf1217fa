import Mathlib.Data.List.DropRight
import StubServer.BehaviorFile.Section

/-!
# What a line says

A header may name anything: whatever stands between its brackets is the name, without the
blanks around it (`Line.ofText_header`). So a file of one header line has the implicit
section and, below it, one section of that name (`ofText_header`). It makes no difference
what becomes of duplicates, as long as the name is not that of the implicit section.

In the other direction, what a line was read to tells what it looks like: a header stands in
brackets (`Line.ofText_eq_header`), and a property has an equals sign, but no brackets around
it and no comment sign in front (`Line.ofText_eq_property`).
-/

namespace StubServer

/-! ## Texts without blanks at their ends -/

namespace Text

variable {cs : List Char}

theorem trimStart_eq_self (h : ∀ c ∈ cs.head?, isBlank c = false) : trimStart cs = cs := by
  cases cs with
  | nil => rfl
  | cons c rest => exact List.dropWhile_cons_of_neg (by simp [h c rfl])

theorem trimEnd_eq_self (h : ∀ c ∈ cs.getLast?, isBlank c = false) : trimEnd cs = cs := by
  show cs.rdropWhile isBlank = cs
  refine List.rdropWhile_eq_self_iff.mpr fun hne => ?_
  simp [h _ (List.getLast?_eq_some_getLast hne)]

/-- A text without blanks at its ends is not trimmed. -/
theorem trim_eq_self (hfirst : ∀ c ∈ cs.head?, isBlank c = false)
    (hlast : ∀ c ∈ cs.getLast?, isBlank c = false) : trim cs = cs := by
  unfold trim
  rw [trimStart_eq_self hfirst, trimEnd_eq_self hlast]

theorem trim_sublist (cs : List Char) : (trim cs).Sublist cs :=
  (List.rdropWhile_prefix isBlank (l := trimStart cs)).sublist.trans (List.dropWhile_sublist _)

theorem length_trim_le (cs : List Char) : (trim cs).length ≤ cs.length :=
  (trim_sublist cs).length_le

/-- What stays of a text that begins with something to keep begins with the same. -/
theorem head?_rdropWhile {p : Char → Bool} {c : Char} (hhead : cs.head? = some c) (hc : p c = false) :
    (cs.rdropWhile p).head? = some c := by
  obtain ⟨rest, rfl⟩ := List.head?_eq_some_iff.mp hhead
  obtain ⟨t, ht⟩ := List.rdropWhile_prefix p (l := c :: rest)
  cases hkept : (c :: rest).rdropWhile p with
  | nil =>
    have := List.rdropWhile_eq_nil_iff.mp hkept c (List.mem_cons_self ..)
    rw [hc] at this
    cases this
  | cons a kept =>
    rw [hkept] at ht
    rw [(List.cons.inj ht).1]
    rfl

/-- Trimming leaves a first character alone that is not blank. -/
theorem head?_trim {c : Char} (hhead : cs.head? = some c) (hc : isBlank c = false) :
    (trim cs).head? = some c := by
  unfold trim
  rw [trimStart_eq_self]
  · exact head?_rdropWhile hhead hc
  · intro first hfirst
    rw [hhead] at hfirst
    rw [← Option.some.inj hfirst]
    exact hc

/-- A trimmed text does not end in a blank. -/
theorem getLast?_trim : ∀ c ∈ (trim cs).getLast?, isBlank c = false := by
  intro c hc
  obtain ⟨hne, rfl⟩ := List.mem_getLast?_eq_getLast hc
  exact Bool.eq_false_iff.mpr (List.rdropWhile_last_not isBlank (trimStart cs) hne)

/-- A trimmed text does not begin with a blank either. -/
theorem isBlank_head?_trim : ∀ c ∈ (trim cs).head?, isBlank c = false := by
  intro c hc
  have hstart : (trimStart cs).head? = some c := by
    obtain ⟨rest, hrest⟩ := List.rdropWhile_prefix isBlank (l := trimStart cs)
    rw [← hrest, List.head?_append]
    have hkept : ((trimStart cs).rdropWhile isBlank).head? = some c := hc
    rw [hkept]
    rfl
  have hfirst := List.head?_dropWhile_not isBlank cs
  rw [show (cs.dropWhile isBlank).head? = some c from hstart] at hfirst
  simpa using hfirst

@[simp] theorem trim_trim (cs : List Char) : trim (trim cs) = trim cs :=
  trim_eq_self isBlank_head?_trim getLast?_trim

/-- A blank in front does not count. -/
theorem trim_cons_blank {c : Char} (hc : isBlank c = true) (cs : List Char) :
    trim (c :: cs) = trim cs := by
  unfold trim trimStart
  rw [List.dropWhile_cons_of_pos hc]

/-- A blank at the end does not count. -/
theorem trim_concat_blank {c : Char} (hc : isBlank c = true) (cs : List Char) :
    trim (cs ++ [c]) = trim cs := by
  unfold trim trimStart
  rw [List.dropWhile_append]
  split
  next hall =>
    rw [List.isEmpty_iff.mp hall, List.dropWhile_cons_of_pos hc]
    rfl
  next => exact List.rdropWhile_concat_pos isBlank _ c hc

/-- The end of a text that has something to keep stays where it is. -/
theorem getLast?_trim_of {c : Char} (hlast : cs.getLast? = some c) (hc : isBlank c = false) :
    (trim cs).getLast? = some c := by
  obtain ⟨front, rfl⟩ := List.getLast?_eq_some_iff.mp hlast
  have hstays : ∀ xs : List Char, (trimEnd (xs ++ [c])).getLast? = some c := by
    intro xs
    rw [trimEnd_eq_self (by simpa using hc), List.getLast?_concat]
  unfold trim trimStart
  rw [List.dropWhile_append, List.dropWhile_cons_of_neg (by simp [hc])]
  split
  next => exact hstays []
  next => exact hstays _

end Text

namespace BehaviorFile

/-! ## Kinds of lines -/

/-- What stands in brackets begins with an opening one and ends with a closing one. -/
theorem bracketed?_eq_some {cs inner : List Char} :
    bracketed? cs = some inner ↔ cs = '[' :: inner ++ [']'] := by
  constructor
  · intro h
    unfold bracketed? at h
    split at h
    next rest =>
      split at h
      next hlast =>
        obtain ⟨front, rfl⟩ := List.getLast?_eq_some_iff.mp hlast
        rw [List.dropLast_concat] at h
        rw [Option.some.inj h]
        rfl
      next => cases h
    next => cases h
  · rintro rfl
    show (if (inner ++ [']']).getLast? = some ']' then some (inner ++ [']']).dropLast else none) = _
    rw [List.getLast?_concat, if_pos rfl, List.dropLast_concat]

/-- Only its first character makes a text a comment. -/
theorem isComment_eq (cs : List Char) : isComment cs = cs.head?.any fun c => c == '#' || c == ';' := by
  cases cs with
  | nil => rfl
  | cons c rest =>
    unfold isComment
    split <;> simp_all

/-- A text that is neither a comment nor in brackets; it is a property if it has an equals
sign. -/
structure IsPlain (cs : List Char) : Prop where
  comment : isComment cs = false
  brackets : bracketed? cs = none

/-- Whether a text is plain can be seen from its ends. -/
theorem IsPlain.of_ends {cs cs' : List Char} (h : IsPlain cs) (hlength : 2 ≤ cs.length)
    (hhead : cs'.head? = cs.head?) (hlast : cs'.getLast? = some ']' → cs.getLast? = some ']') :
    IsPlain cs' := by
  refine ⟨by rw [isComment_eq, hhead, ← isComment_eq, h.comment], ?_⟩
  refine Option.eq_none_iff_forall_ne_some.mpr fun inner hinner => ?_
  -- the other text would stand in brackets as well
  obtain rfl := bracketed?_eq_some.mp hinner
  obtain ⟨rest, rfl⟩ := List.head?_eq_some_iff.mp (hhead.symm.trans rfl)
  have hclosing := hlast List.getLast?_concat
  have hrest : rest ≠ [] := by
    rintro rfl
    exact absurd hlength (by decide)
  rw [List.getLast?_cons_of_ne_nil hrest] at hclosing
  obtain ⟨inner', rfl⟩ := List.getLast?_eq_some_iff.mp hclosing
  have hbrackets : bracketed? ('[' :: inner' ++ [']']) = none := h.brackets
  rw [bracketed?_eq_some.mpr rfl] at hbrackets
  cases hbrackets

/-- A header is a line in brackets. -/
theorem Line.ofText_eq_header {raw : List Char} {name : String} (h : ofText raw = .header name) :
    ∃ inner, Text.trim raw = '[' :: inner ++ [']'] ∧ name = kept inner := by
  unfold ofText ofTrimmed at h
  split at h
  next => cases h
  next =>
    split at h
    next inner hinner => exact ⟨inner, bracketed?_eq_some.mp hinner, (Line.header.inj h).symm⟩
    next => split at h <;> cases h

theorem Line.ofTrimmed_eq_property {cs : List Char} {key value : String} :
    ofTrimmed cs = .property key value ↔ IsPlain cs ∧
      ∃ k v, Text.cut '=' cs = some (k, v) ∧ key = kept k ∧ value = kept v := by
  constructor
  · intro h
    unfold ofTrimmed at h
    split at h
    next => cases h
    next hskipped =>
      split at h
      next => cases h
      next hbrackets =>
        split at h
        next k v hcut =>
          obtain ⟨hkey, hvalue⟩ := Line.property.inj h
          rw [Bool.or_eq_true, not_or, Bool.not_eq_true, Bool.not_eq_true] at hskipped
          exact ⟨⟨hskipped.2, hbrackets⟩, k, v, hcut, hkey.symm, hvalue.symm⟩
        next => cases h
  · rintro ⟨hplain, k, v, hcut, rfl, rfl⟩
    have hne : cs.isEmpty = false := by
      rw [(Text.cut_eq_some hcut).1]
      cases k <;> rfl
    unfold ofTrimmed
    rw [hne, hplain.comment, hplain.brackets, hcut]
    rfl

/-- A property is a plain line with an equals sign, which separates the key from the value. -/
theorem Line.ofText_eq_property {raw : List Char} {key value : String} :
    ofText raw = .property key value ↔ IsPlain (Text.trim raw) ∧
      ∃ k v, Text.cut '=' (Text.trim raw) = some (k, v) ∧ key = kept k ∧ value = kept v :=
  ofTrimmed_eq_property

/-! ## Headers -/

/-- A line in brackets is a header, and names what is between them. -/
theorem Line.ofText_header (inner : List Char) :
    Line.ofText ('[' :: inner ++ [']']) = .header (kept inner) := by
  have htrim : Text.trim ('[' :: inner ++ [']']) = '[' :: inner ++ [']'] := by
    refine Text.trim_eq_self ?_ ?_
    · intro c hc
      rw [← Option.some.inj hc]
      decide
    · intro c hc
      rw [List.getLast?_concat] at hc
      rw [← Option.some.inj hc]
      decide
  unfold Line.ofText Line.ofTrimmed
  rw [htrim, bracketed?_eq_some.mpr rfl]
  rfl

/-- A file of one header line has a section of that name, whatever becomes of duplicates. -/
theorem ofText_header (policy : DuplicatePolicy) {inner : List Char} (hline : '\n' ∉ inner)
    (hname : kept inner ≠ "") (hother : kept inner ≠ defaultName) :
    ofText policy (String.ofList ('[' :: inner ++ [']'])) =
      .ok [⟨defaultName, 0, []⟩, ⟨kept inner, 1, []⟩] := by
  have hlines : ('[' :: inner ++ [']']).splitOn '\n' = ['[' :: inner ++ [']']] := by
    refine List.splitOn_eq_singleton ?_
    simp [hline]
  have hread : Draft.start.read policy 1 (.header (kept inner)) =
      .ok (Draft.start.openSection policy (kept inner) 1) :=
    if_neg (by simpa using hname)
  have hopen : Draft.start.openSection policy (kept inner) 1 =
      ⟨[⟨defaultName, 0, []⟩], ⟨kept inner, 1, []⟩, []⟩ := by
    cases policy with
    | keepApart => rfl
    | merge =>
      -- there is only the implicit section to return to
      show Draft.start.returnTo (kept inner) 1 = _
      unfold Draft.returnTo
      have hnone : Draft.start.sections.dropWhile (·.name != kept inner) = [] :=
        List.dropWhile_cons_of_pos (by simpa [Draft.start] using Ne.symm hother)
      rw [hnone]
      rfl
  unfold ofText
  rw [String.toList_ofList, hlines, List.map_singleton]
  unfold ofLines
  rw [Draft.readAll, Line.ofText_header, hread, hopen]
  rfl

end BehaviorFile

end StubServer
