import Mathlib.Data.Char
import StubServer.Cookie.Basic
import StubServer.Http.Header

/-!
# Cookies that can be sent

The line of a cookie goes out as the value of a header field, and a value with a control
character cannot be sent. The texts of a cookie stand in its line without escaping, so:

> `isFieldValue_line`: the line of a cookie can be sent if and only if its name, its value, its
> path and its domain have no control characters (`isSendable`).

The other attributes make no difference. Their texts are the server's own, with numbers and
dates in between.
-/

namespace StubServer

/-! ## Numbers and dates -/

section Dates

variable {p : Char → Bool}

/-- A number is written with digits. -/
theorem all_toString (hdigit : ∀ c, c.isDigit = true → p c = true) (n : Nat) :
    (toString n).toList.all p = true := by
  rw [Nat.toString_eq_ofList_toDigits, String.toList_ofList, List.all_eq_true]
  intro c hc
  exact hdigit c (Nat.isDigit_of_mem_toDigits (by decide) (by decide) hc)

theorem all_padded (hdigit : ∀ c, c.isDigit = true → p c = true) (width n : Nat) :
    (Text.padded width n).toList.all p = true := by
  have hzeros : ∀ k, (String.ofList (List.replicate k '0')).toList.all p = true := by
    intro k
    rw [String.toList_ofList, List.all_eq_true]
    intro c hc
    rw [List.eq_of_mem_replicate hc]
    exact hdigit '0' rfl
  unfold Text.padded
  rw [String.toList_append, List.all_append, hzeros, all_toString hdigit]
  rfl

/-- What stands in a date besides digits. -/
def dateWords : List String :=
  Time.Instant.weekdayNames ++ Time.Instant.monthNames ++ [", ", " ", ":", " GMT", "+", "-"]

/-- What holds of digits and of the words of a date holds of all characters of a date. -/
theorem all_httpDate (hdigit : ∀ c, c.isDigit = true → p c = true)
    (hall : dateWords.all (fun word => word.toList.all p) = true) (t : Time.Instant) :
    t.httpDate.toList.all p = true := by
  have hwords := List.all_eq_true.mp hall
  have hpadded := all_padded hdigit
  have hword : ∀ {table : List String}, table ⊆ dateWords → ∀ i : Nat,
      (table[i]?.getD "").toList.all p = true := by
    intro table hsub i
    cases hentry : table[i]? with
    | none => rfl
    | some word => exact hwords word (hsub (List.mem_of_getElem? hentry))
  have hweekday : ∀ i : Nat, (Time.Instant.weekdayNames[i]?.getD "").toList.all p = true :=
    hword (by decide)
  have hmonth : ∀ i : Nat, (Time.Instant.monthNames[i]?.getD "").toList.all p = true :=
    hword (by decide)
  have hcomma := hwords ", " (by decide)
  have hspace := hwords " " (by decide)
  have hcolon := hwords ":" (by decide)
  have hzone := hwords " GMT" (by decide)
  have hplus := hwords "+" (by decide)
  have hminus := hwords "-" (by decide)
  have hyear : ∀ year, (Time.Instant.yearText year).toList.all p = true := by
    intro year
    unfold Time.Instant.yearText
    split
    next => exact hpadded _ _
    next =>
      rw [String.toList_append, List.all_append, hpadded, Bool.and_true]
      split
      next => exact hminus
      next => exact hplus
  unfold Time.Instant.httpDate Time.Instant.clock
  simp only [toString, String.toList_append, List.all_append, hpadded, hyear, hweekday, hmonth, hcomma,
    hspace, hcolon, hzone, Bool.and_true]

end Dates

namespace Http

/-! ## Texts that can be sent -/

@[simp] theorem isFieldValue_append (a b : String) :
    isFieldValue (a ++ b) = (isFieldValue a && isFieldValue b) := by
  unfold isFieldValue
  rw [String.toList_append, List.all_append]

theorem isValueChar_of_isDigit {c : Char} (h : c.isDigit = true) : isValueChar c = true := by
  have hbounds : 48 ≤ c.toNat ∧ c.toNat ≤ 57 := Char.isDigit_iff_toNat.mp h
  simp only [isValueChar, Bool.or_eq_true, Bool.and_eq_true, decide_eq_true_eq, bne_iff_ne]
  omega

@[simp] theorem isFieldValue_toString (n : Nat) : isFieldValue (toString n) = true :=
  all_toString (fun _ => isValueChar_of_isDigit) n

/-- A date can always be sent. -/
@[simp] theorem isFieldValue_httpDate (t : Time.Instant) : isFieldValue t.httpDate = true :=
  all_httpDate (fun _ => isValueChar_of_isDigit) rfl t

/-- A text in parts can be sent when all of its parts can. -/
theorem isFieldValue_intercalate {separator : String} (h : isFieldValue separator = true) :
    ∀ parts : List String, isFieldValue (separator.intercalate parts) = parts.all isFieldValue
  | [] => rfl
  | [part] => by
    rw [String.intercalate_singleton, List.all_cons, List.all_nil, Bool.and_true]
  | part :: next :: rest => by
    rw [String.intercalate_cons_cons, isFieldValue_append, isFieldValue_append, h, Bool.and_true,
      isFieldValue_intercalate h (next :: rest), List.all_cons, List.all_cons, List.all_cons]

end Http

/-! ## The line of a cookie -/

/-- What holds of all the values in a list that are there. -/
theorem all_present {α : Type} (p : α → Bool) (values : List (Option α)) :
    (values.filterMap id).all p = values.all (·.all p) := by
  rw [List.all_filterMap]
  refine congrArg (List.all values ·) (funext fun value => ?_)
  cases value <;> rfl

namespace Cookie

open Http

/-- The texts in the line of a cookie that were configured as they are. -/
def texts (c : Cookie) : List String :=
  c.name :: c.value :: [c.path, c.domain].filterMap id

/-- Whether none of the texts of a cookie has a control character. -/
def isSendable (c : Cookie) : Bool :=
  c.texts.all isFieldValue

theorem isFieldValue_pair (c : Cookie) :
    isFieldValue c.pair = (isFieldValue c.name && isFieldValue c.value) := by
  have hequals : isFieldValue "=" = true := by decide
  have hopen : isFieldValue "=\"" = true := by decide
  have hclose : isFieldValue "\"" = true := by decide
  unfold pair
  split
  next => simp [hopen, hclose]
  next => simp [hequals]

/-- A path that is left out has no characters. -/
theorem all_pathPart (c : Cookie) : c.pathPart.all isFieldValue = c.path.all isFieldValue := by
  have hlabel : isFieldValue "Path=" = true := by decide
  unfold pathPart
  cases c.path with
  | none => rfl
  | some path =>
    dsimp only
    split
    next hempty =>
      obtain rfl : path = "" := String.isEmpty_iff.mp hempty
      rfl
    next => simp [hlabel]

/-- A leading point can be sent as well as not. -/
theorem isFieldValue_bareDomain (domain : String) :
    isFieldValue (bareDomain domain) = isFieldValue domain := by
  unfold bareDomain
  split
  next rest hpoint =>
    have hchar : isValueChar '.' = true := by decide
    unfold isFieldValue
    rw [hpoint, String.toList_ofList, List.all_cons, hchar, Bool.true_and]
  next => rfl

theorem all_domainPart (c : Cookie) : c.domainPart.all isFieldValue = c.domain.all isFieldValue := by
  have hlabel : isFieldValue "Domain=" = true := by decide
  unfold domainPart
  cases c.domain with
  | none => rfl
  | some domain =>
    dsimp only
    rw [Option.all_some, ← isFieldValue_bareDomain]
    split
    next hempty =>
      rw [String.isEmpty_iff.mp hempty]
      rfl
    next => simp [hlabel]

/-! The other parts are made of texts of the server, digits and the characters of a date. -/

theorem all_expiresPart (c : Cookie) : c.expiresPart.all isFieldValue = true := by
  have hlabel : isFieldValue "Expires=" = true := by decide
  unfold expiresPart
  cases c.expires with
  | none => rfl
  | some time =>
    dsimp only
    split
    next => simp [hlabel]
    next => rfl

theorem all_maxAgePart (c : Cookie) : c.maxAgePart.all isFieldValue = true := by
  have hlabel : isFieldValue "Max-Age=" = true := by decide
  unfold maxAgePart
  cases c.maxAge with
  | none => rfl
  | some age =>
    dsimp only
    split
    next => rw [Option.all_some, isFieldValue_append, hlabel, isFieldValue_toString, Bool.and_true]
    next =>
      split
      next => decide
      next => rfl

theorem all_flagPart {name : String} (h : isFieldValue name = true) (isSet : Bool) :
    (flagPart name isSet).all isFieldValue = true := by
  cases isSet with
  | false => rfl
  | true => exact h

theorem all_sameSite (policy : Option SameSite) :
    (policy.map ("SameSite=" ++ ·.text)).all isFieldValue = true := by
  cases policy with
  | none => rfl
  | some policy => cases policy <;> decide

/-- **Which cookies can be sent**: those whose name, value, path and domain can. -/
theorem isFieldValue_line (c : Cookie) : isFieldValue c.line = c.isSendable := by
  unfold line lineParts attributeParts isSendable texts
  rw [isFieldValue_intercalate (by decide), List.all_cons, List.all_cons, List.all_cons, all_present,
    all_present, isFieldValue_pair, Bool.and_assoc]
  simp only [List.all_cons, List.all_nil, all_pathPart, all_domainPart, all_expiresPart,
    all_maxAgePart, all_sameSite, all_flagPart (by decide : isFieldValue "HttpOnly" = true),
    all_flagPart (by decide : isFieldValue "Secure" = true),
    all_flagPart (by decide : isFieldValue "Partitioned" = true), Bool.and_true]

end Cookie

end StubServer
