/-!
# Cutting a text at a separator

`cut` splits a text at the first occurrence of a separator and loses nothing but that separator. The
halves are `takeWhile` and `dropWhile` of one test, so their laws are those of the two list functions.
-/

namespace StubServer.Text

/-- The texts before and after the first `sep`; `none` if `sep` does not occur. -/
def cut (sep : Char) (cs : List Char) : Option (List Char × List Char) :=
  match cs.dropWhile (· != sep) with
  | [] => none
  | _ :: rest => some (cs.takeWhile (· != sep), rest)

/-- The rest of the text after a given beginning; `none` if the text does not begin with it. -/
def after? : List Char → List Char → Option (List Char)
  | [], cs => some cs
  | _ :: _, [] => none
  | b :: bs, c :: cs => if b = c then after? bs cs else none

/-- The text before a given ending; `none` if the text does not end with it. -/
def before? (ending cs : List Char) : Option (List Char) :=
  (after? ending.reverse cs.reverse).map List.reverse

/-- Cutting loses only the separator, and the first half has none. -/
theorem cut_eq_some {sep : Char} {cs l r : List Char} (h : cut sep cs = some (l, r)) :
    cs = l ++ sep :: r ∧ sep ∉ l := by
  unfold cut at h
  split at h
  · cases h
  next c rest heq =>
    simp only [Option.some.injEq, Prod.mk.injEq] at h
    obtain ⟨rfl, rfl⟩ := h
    have hc : c = sep := by
      have := List.head?_dropWhile_not (· != sep) cs
      rw [heq] at this
      simpa using this
    subst hc
    refine ⟨?_, fun hmem => ?_⟩
    · conv => lhs; rw [← List.takeWhile_append_dropWhile (p := (· != c)) (l := cs), heq]
    · have := List.all_eq_true.1 List.all_takeWhile c hmem
      simp at this

/-- A text is cut at a separator if there is none before it. -/
theorem cut_append {sep : Char} {l : List Char} (h : sep ∉ l) (r : List Char) :
    cut sep (l ++ sep :: r) = some (l, r) := by
  have hbefore : ∀ c ∈ l, (c != sep) = true := by
    intro c hc
    simp only [bne_iff_ne]
    rintro rfl
    exact h hc
  unfold cut
  rw [List.dropWhile_append_of_pos hbefore, List.takeWhile_append_of_pos hbefore]
  simp

/-- A text without a separator is not cut. -/
theorem cut_eq_none {sep : Char} {cs : List Char} (h : sep ∉ cs) : cut sep cs = none := by
  have hbefore : ∀ c ∈ cs, (c != sep) = true := by
    intro c hc
    simp only [bne_iff_ne]
    rintro rfl
    exact h hc
  unfold cut
  rw [← List.append_nil cs, List.dropWhile_append_of_pos hbefore]
  rfl

/-- A text that begins as required is that beginning followed by what is left. -/
theorem after?_eq_some {b cs r : List Char} (h : after? b cs = some r) : cs = b ++ r := by
  induction b generalizing cs with
  | nil => simpa [after?] using h
  | cons x b ih =>
    cases cs with
    | nil => simp [after?] at h
    | cons c cs =>
      simp only [after?] at h
      split at h
      next hx => simp [hx, ih h]
      next => cases h

/-- What follows a beginning is found. -/
theorem after?_append (b r : List Char) : after? b (b ++ r) = some r := by
  induction b with
  | nil => rfl
  | cons c b ih =>
    rw [List.cons_append, after?, if_pos rfl]
    exact ih

end StubServer.Text
