import StubServer.Proofs.Behavior.CookieGroups
import StubServer.Proofs.BehaviorFile.Lines
import StubServer.Proofs.BehaviorFile.Reading
import StubServer.Proofs.Cookie.Line

/-!
# What can be read from the line of a cookie

A client cuts a `Set-Cookie` line at its semicolons and trims the segments. The first one is the
name and the value, and each other one is an attribute. Nothing in a line is escaped, but if no
text of a cookie has a semicolon and its name no equals sign (`IsSeparable`), the segments are the
parts that were written:

> `ofLine?_line`: then the name, the value and the attributes that have something to say
> (`attributes`) are read back from the line.

The attributes stand in one order, each with its own label, so none appears twice and none that
was not configured (`Carries`). Segments are only trimmed back to what was written if no text has
blanks at its ends. All that is kept of a file is trimmed, and the texts of a cookie are values of
its properties (`mem_texts_of_makes`).
-/

namespace StubServer

open Text

namespace Cookie

/-! ## A reader -/

/-- What a client reads from a line. An attribute may be a label without a text. -/
structure Reading where
  name : String
  value : String
  attributes : List (String × Option String)
  deriving DecidableEq, Repr

/-- A value without the quotes that stand around it because of a space or a comma. -/
def unquoted (text : List Char) : String :=
  match text with
  | '"' :: rest =>
    let inner := rest.dropLast
    if rest.getLast? = some '"' ∧ (' ' ∈ inner ∨ ',' ∈ inner) then String.ofList inner
    else String.ofList text
  | _ => String.ofList text

/-- The label of a segment and the text after its first equals sign. -/
def attributeOf (segment : List Char) : String × Option String :=
  match cut '=' segment with
  | some (label, text) => (String.ofList label, some (String.ofList text))
  | none => (String.ofList segment, none)

/-- The name and the value, and the attributes after them. -/
def Reading.ofLine? (line : String) : Option Reading :=
  match (line.toList.splitOn ';').map trim with
  | [] => none
  | first :: rest => (cut '=' first).map fun pair =>
    ⟨String.ofList pair.1, unquoted pair.2, rest.map attributeOf⟩

/-! ## What is written -/

/-- A label alone, if a flag is set. -/
def flag (isSet : Bool) : Option (Option String) :=
  if isSet then some none else none

/-- What each attribute says, if it says anything. -/
def sayings (c : Cookie) : List (String × Option (Option String)) :=
  [("Path", (c.path.filter (· != "")).map some),
    ("Domain", ((c.domain.map bareDomain).filter (· != "")).map some),
    ("Expires", (c.expires.filter (firstExpiryYear ≤ ·.year)).map fun t => some t.httpDate),
    ("Max-Age", (c.maxAge.filter (· != 0)).map fun age => some (toString age.toNat)),
    ("HttpOnly", flag c.httpOnly), ("Secure", flag c.secure),
    ("SameSite", c.sameSite.map fun policy => some policy.text),
    ("Partitioned", flag c.partitioned)]

/-- The attributes that say something. -/
def attributes (c : Cookie) : List (String × Option String) :=
  c.sayings.filterMap fun entry => entry.2.map (entry.1, ·)

/-- An attribute as it is written. -/
def attributeText : String × Option String → String
  | (label, some text) => label ++ "=" ++ text
  | (label, none) => label

section Written

variable (c : Cookie)

/-- A text under a label, unless it is empty. -/
theorem unlessEmpty_eq (label text : String) :
    (if text.isEmpty then none else some (label ++ "=" ++ text)) =
      (((some text).filter (· != "")).map some).map fun text => attributeText (label, text) := by
  rw [Option.filter_some]
  by_cases h : text = ""
  · subst h
    rfl
  · rw [if_neg (by simpa using h), if_pos (by simpa using h)]
    rfl

theorem pathPart_eq : c.pathPart =
    ((c.path.filter (· != "")).map some).map fun text => attributeText ("Path", text) := by
  unfold pathPart
  cases c.path with
  | none => rfl
  | some path => exact unlessEmpty_eq "Path" path

theorem domainPart_eq : c.domainPart =
    (((c.domain.map bareDomain).filter (· != "")).map some).map
      fun text => attributeText ("Domain", text) := by
  unfold domainPart
  cases c.domain with
  | none => rfl
  | some domain => exact unlessEmpty_eq "Domain" (bareDomain domain)

theorem expiresPart_eq : c.expiresPart =
    ((c.expires.filter (firstExpiryYear ≤ ·.year)).map fun t => some t.httpDate).map
      fun text => attributeText ("Expires", text) := by
  unfold expiresPart
  cases c.expires with
  | none => rfl
  | some t =>
    rw [Option.filter_some]
    by_cases h : firstExpiryYear ≤ t.year
    · rw [if_pos (decide_eq_true h)]
      exact if_pos h
    · rw [if_neg (by simpa using h)]
      exact if_neg h

/-- A lifetime that is not zero is written as the natural number next to it. -/
theorem maxAgePart_eq : c.maxAgePart =
    ((c.maxAge.filter (· != 0)).map fun age => some (toString age.toNat)).map
      fun text => attributeText ("Max-Age", text) := by
  unfold maxAgePart
  cases c.maxAge with
  | none => rfl
  | some age =>
    rw [Option.filter_some]
    dsimp only
    rcases Int.lt_trichotomy age 0 with h | rfl | h
    · rw [if_neg (by omega), if_pos h, if_pos (by simp; omega), Option.map_some, Option.map_some,
        Int.toNat_of_nonpos (Int.le_of_lt h)]
      rfl
    · rfl
    · rw [if_pos h, if_pos (by simp; omega)]
      rfl

theorem flagPart_eq (name : String) (isSet : Bool) :
    flagPart name isSet = (flag isSet).map fun text => attributeText (name, text) := by
  cases isSet <;> rfl

theorem sameSitePart_eq : c.sameSite.map ("SameSite=" ++ ·.text) =
    (c.sameSite.map fun policy => some policy.text).map
      fun text => attributeText ("SameSite", text) := by
  cases c.sameSite <;> rfl

/-- The parts of a line are its attributes. -/
theorem attributeParts_eq : c.attributeParts = c.attributes.map attributeText := by
  have hentry : (fun entry : String × Option (Option String) =>
        (entry.2.map (entry.1, ·)).map attributeText) =
      id ∘ fun entry => entry.2.map fun text => attributeText (entry.1, text) :=
    funext fun entry => Option.map_map ..
  unfold attributeParts attributes
  rw [List.map_filterMap, hentry, ← List.filterMap_map, pathPart_eq, domainPart_eq, expiresPart_eq,
    maxAgePart_eq, flagPart_eq, flagPart_eq, flagPart_eq, sameSitePart_eq]
  rfl

end Written

/-! ## What is carried -/

/-- The labels of the attributes, in their order. -/
def labels : List String :=
  ["Path", "Domain", "Expires", "Max-Age", "HttpOnly", "Secure", "SameSite", "Partitioned"]

/-- A reading of a cookie: its name, its value, and of its attributes those with something to
say. -/
structure Carries (c : Cookie) (r : Reading) : Prop where
  name : r.name = c.name
  value : r.value = c.value
  /-- No attribute appears twice, or out of order, or under another label. -/
  order : (r.attributes.map (·.1)).Sublist labels
  path : ∀ v, ("Path", v) ∈ r.attributes ↔ ∃ path, c.path = some path ∧ path ≠ "" ∧ v = some path
  domain : ∀ v, ("Domain", v) ∈ r.attributes ↔ ∃ domain bare, c.domain = some domain ∧
    (domain = "." ++ bare ∨ domain = bare ∧ bare.toList.head? ≠ some '.') ∧ bare ≠ "" ∧ v = some bare
  expires : ∀ v, ("Expires", v) ∈ r.attributes ↔
    ∃ t, c.expires = some t ∧ firstExpiryYear ≤ t.year ∧ v = some t.httpDate
  maxAge : ∀ v, ("Max-Age", v) ∈ r.attributes ↔
    ∃ age, c.maxAge = some age ∧ age ≠ 0 ∧ v = some (toString (max age 0))
  httpOnly : ∀ v, ("HttpOnly", v) ∈ r.attributes ↔ c.httpOnly = true ∧ v = none
  secure : ∀ v, ("Secure", v) ∈ r.attributes ↔ c.secure = true ∧ v = none
  sameSite : ∀ v, ("SameSite", v) ∈ r.attributes ↔
    ∃ policy, c.sameSite = some policy ∧ v = some policy.text
  partitioned : ∀ v, ("Partitioned", v) ∈ r.attributes ↔ c.partitioned = true ∧ v = none

theorem mem_attributes {c : Cookie} {label : String} {v : Option String} :
    (label, v) ∈ c.attributes ↔ (label, some v) ∈ c.sayings := by
  unfold attributes
  rw [List.mem_filterMap]
  constructor
  · rintro ⟨⟨l, saying⟩, hmem, h⟩
    obtain ⟨w, rfl, hw⟩ := Option.map_eq_some_iff.mp h
    obtain ⟨rfl, rfl⟩ := Prod.mk.inj hw
    exact hmem
  · exact fun hmem => ⟨(label, some v), hmem, rfl⟩

/-- Of a list of labelled things, those that are there have the same labels in the same order. -/
theorem map_fst_filterMap_sublist {α : Type} : ∀ (entries : List (String × Option α)),
    ((entries.filterMap fun entry => entry.2.map (entry.1, ·)).map (·.1)).Sublist
      (entries.map (·.1))
  | [] => .slnil
  | (label, none) :: rest => (map_fst_filterMap_sublist rest).cons label
  | (label, some _) :: rest => (map_fst_filterMap_sublist rest).cons_cons label

/-- A domain is bare without one leading point. -/
theorem bareDomain_eq_iff {domain bare : String} : bareDomain domain = bare ↔
    domain = "." ++ bare ∨ domain = bare ∧ bare.toList.head? ≠ some '.' := by
  have hpoint : domain = "." ++ bare ↔ domain.toList = '.' :: bare.toList := by
    rw [← String.toList_inj, String.toList_append]
    rfl
  rw [hpoint]
  unfold bareDomain
  split
  next rest hrest =>
    rw [hrest, List.cons.injEq, and_iff_right rfl]
    constructor
    · rintro rfl
      exact .inl String.toList_ofList.symm
    · rintro (h | ⟨rfl, hhead⟩)
      · rw [h, String.ofList_toList]
      · rw [hrest] at hhead
        exact absurd rfl hhead
  next hnone =>
    constructor
    · rintro rfl
      refine .inr ⟨rfl, fun hhead => ?_⟩
      obtain ⟨rest, hrest⟩ := List.head?_eq_some_iff.mp hhead
      exact hnone rest hrest
    · rintro (h | h)
      · exact absurd h (hnone _)
      · exact h.1

theorem flag_eq_some {isSet : Bool} {v : Option String} :
    flag isSet = some v ↔ isSet = true ∧ v = none := by
  cases isSet <;> simp [flag, eq_comm]

theorem carries (c : Cookie) : Carries c ⟨c.name, c.value, c.attributes⟩ where
  name := rfl
  value := rfl
  order := map_fst_filterMap_sublist c.sayings
  path v := by
    rw [mem_attributes]
    simp [sayings, @eq_comm _ (some v), @eq_comm _ (some _) v, Option.filter_eq_some_iff, and_assoc]
  domain v := by
    simp only [← bareDomain_eq_iff]
    rw [mem_attributes]
    simp [sayings, @eq_comm _ (some v), @eq_comm _ (some _) v, Option.filter_eq_some_iff, and_assoc]
  expires v := by
    rw [mem_attributes]
    simp [sayings, @eq_comm _ (some v), @eq_comm _ (some _) v, Option.filter_eq_some_iff, and_assoc]
  maxAge v := by
    have hmax : ∀ age : Int, toString age.toNat = toString (max age 0) := fun age => by
      rw [← Int.toNat_eq_max]
      rfl
    rw [mem_attributes]
    simp only [← hmax]
    simp [sayings, @eq_comm _ (some v), @eq_comm _ (some _) v, Option.filter_eq_some_iff, and_assoc]
  httpOnly v := by
    rw [mem_attributes, ← flag_eq_some]
    simp [sayings, eq_comm]
  secure v := by
    rw [mem_attributes, ← flag_eq_some]
    simp [sayings, eq_comm]
  sameSite v := by
    rw [mem_attributes]
    simp [sayings, @eq_comm _ (some v), @eq_comm _ (some _) v]
  partitioned v := by
    rw [mem_attributes, ← flag_eq_some]
    simp [sayings, eq_comm]

/-! ## Segments -/

/-- A cookie whose texts have no semicolon, and whose name has no equals sign. -/
structure IsSeparable (c : Cookie) : Prop where
  semicolon : ∀ text ∈ c.texts, ';' ∉ text.toList
  equals : '=' ∉ c.name.toList

/-- A cookie whose texts have no blanks at their ends. -/
def IsTrimmed (c : Cookie) : Prop :=
  ∀ text ∈ c.texts, trim text.toList = text.toList

/-- A part that is cut out of a line as it was put in. -/
structure IsSegment (part : List Char) : Prop where
  semicolon : ';' ∉ part
  trimmed : trim part = part

/-- A text that can end a segment. -/
structure EndsSegment (text : List Char) : Prop where
  semicolon : ';' ∉ text
  last : ∀ c ∈ text.getLast?, isBlank c = false

/-- The separator of the parts is a semicolon, and a blank in front of the next part. -/
theorem intercalate_separator : ∀ (first : List Char) (rest : List (List Char)),
    [';', ' '].intercalate (first :: rest) = [';'].intercalate (first :: rest.map (' ' :: ·))
  | first, [] => by
    rw [List.map_nil, List.intercalate_singleton, List.intercalate_singleton]
  | first, next :: rest => by
    rw [List.intercalate_cons_cons, intercalate_separator next rest, List.map_cons,
      List.intercalate_cons_cons, List.intercalate_cons_cons_left]
    simp only [List.append_assoc, List.cons_append, List.nil_append]

/-- Segments that were joined are found again. -/
theorem segments_intercalate {first : List Char} {rest : List (List Char)}
    (h : ∀ part ∈ first :: rest, IsSegment part) :
    (([';', ' '].intercalate (first :: rest)).splitOn ';').map trim = first :: rest := by
  obtain ⟨hfirst, hrest⟩ := List.forall_mem_cons.mp h
  have hparts : ∀ part ∈ first :: rest.map (' ' :: ·), ';' ∉ part := by
    refine List.forall_mem_cons.mpr ⟨hfirst.semicolon, List.forall_mem_map.mpr fun part hpart => ?_⟩
    exact List.not_mem_cons_of_ne_of_not_mem (by decide) (hrest part hpart).semicolon
  rw [intercalate_separator, List.splitOn_intercalate _ hparts (List.cons_ne_nil _ _), List.map_cons,
    hfirst.trimmed, List.map_map]
  refine congrArg (first :: ·) ((List.map_congr_left fun part hpart => ?_).trans (List.map_id rest))
  exact (trim_cons_blank (by decide) part).trans (hrest part hpart).trimmed

section Parts

variable {label text : List Char}

/-- A label, an equals sign and a text are a segment. -/
theorem isSegment_equals (hlabel : ';' ∉ label) (hfirst : ∀ c ∈ label.head?, isBlank c = false)
    (htext : EndsSegment text) : IsSegment (label ++ '=' :: text) where
  semicolon h := by
    rcases List.mem_append.mp h with h | h
    · exact hlabel h
    · rcases List.mem_cons.mp h with h | h
      · cases h
      · exact htext.semicolon h
  trimmed := by
    refine trim_eq_self ?_ ?_
    · cases label with
      | nil => exact fun c hc => Option.some.inj hc ▸ rfl
      | cons first label => exact hfirst
    · rw [List.getLast?_append_cons]
      cases text with
      | nil => exact fun c hc => Option.some.inj hc ▸ rfl
      | cons first text =>
        rw [List.getLast?_cons_cons]
        exact htext.last

/-- A text without its first character ends a segment where the whole text does. -/
theorem EndsSegment.tail {c : Char} (h : EndsSegment (c :: text)) : EndsSegment text where
  semicolon hmem := h.semicolon (List.mem_cons_of_mem _ hmem)
  last := by
    cases text with
    | nil => exact fun c hc => nomatch hc
    | cons first text =>
      have hlast := h.last
      rwa [List.getLast?_cons_cons] at hlast

/-- A character that ends no segment and is no blank. -/
def isSolid (c : Char) : Bool :=
  !isBlank c && c != ';'

theorem isSolid_iff {c : Char} : isSolid c = true ↔ isBlank c = false ∧ c ≠ ';' := by
  simp [isSolid]

theorem endsSegment_of_all (h : text.all isSolid = true) : EndsSegment text := by
  have hsolid := fun c hc => isSolid_iff.mp (List.all_eq_true.mp h c hc)
  exact ⟨fun hmem => (hsolid _ hmem).2 rfl, fun c hc => (hsolid c (List.mem_of_getLast? hc)).1⟩

theorem head?_of_all (h : text.all isSolid = true) : ∀ c ∈ text.head?, isBlank c = false :=
  fun c hc => (isSolid_iff.mp (List.all_eq_true.mp h c (List.mem_of_head? hc))).1

theorem isSolid_of_isDigit {c : Char} (h : c.isDigit = true) : isSolid c = true := by
  have hbounds : 48 ≤ c.toNat ∧ c.toNat ≤ 57 := Char.isDigit_iff_toNat.mp h
  have hblank : isBlank c = false := by
    simp only [isBlank, inRanges, blankRanges, List.any_cons, List.any_nil, Bool.or_eq_false_iff,
      Bool.and_eq_false_iff, decide_eq_false_iff_not, and_true]
    omega
  have hsemicolon : c ≠ ';' := by
    rintro rfl
    cases h
  exact isSolid_iff.mpr ⟨hblank, hsemicolon⟩

end Parts

/-- A date ends with its zone. -/
theorem endsSegment_httpDate (t : Time.Instant) : EndsSegment t.httpDate.toList where
  semicolon h := by
    have hall : t.httpDate.toList.all (· != ';') = true :=
      all_httpDate (fun c hc => by
        rw [bne_iff_ne]
        rintro rfl
        cases hc) rfl t
    have := List.all_eq_true.mp hall ';' h
    cases this
  last := by
    obtain ⟨front, hfront⟩ : ∃ front, t.httpDate = front ++ " GMT" := ⟨_, rfl⟩
    rw [hfront, String.toList_append]
    show ∀ c ∈ (front.toList ++ ' ' :: ['G', 'M', 'T']).getLast?, isBlank c = false
    rw [List.getLast?_append_cons]
    exact fun c hc => Option.some.inj hc ▸ rfl

/-! ## Quotes -/

/-- A value as it is written. -/
def quoted (value : String) : List Char :=
  if needsQuotes value then '"' :: (value.toList ++ ['"']) else value.toList

theorem endsSegment_quoted {value : String} (h : EndsSegment value.toList) :
    EndsSegment (quoted value) := by
  unfold quoted
  split
  next =>
    refine ⟨?_, ?_⟩
    · simpa using h.semicolon
    · rw [← List.cons_append, List.getLast?_concat]
      exact fun c hc => Option.some.inj hc ▸ rfl
  next => exact h

theorem unquoted_cons (rest : List Char) : unquoted ('"' :: rest) =
    if rest.getLast? = some '"' ∧ (' ' ∈ rest.dropLast ∨ ',' ∈ rest.dropLast) then
      String.ofList rest.dropLast
    else String.ofList ('"' :: rest) :=
  rfl

theorem needsQuotes_iff {value : String} :
    needsQuotes value = true ↔ ' ' ∈ value.toList ∨ ',' ∈ value.toList := by
  unfold needsQuotes
  simp only [List.any_eq_true, Bool.or_eq_true, beq_iff_eq, and_or_left, exists_or, exists_eq_right]

/-- Quotes that were added are removed, and no others. -/
theorem unquoted_quoted (value : String) : unquoted (quoted value) = value := by
  unfold quoted
  split
  next h =>
    rw [unquoted_cons, List.dropLast_concat, List.getLast?_concat, String.ofList_toList,
      if_pos ⟨rfl, needsQuotes_iff.mp h⟩]
  next h =>
    rw [needsQuotes_iff] at h
    cases hvalue : value.toList with
    | nil => exact (String.toList_injective hvalue).symm
    | cons first rest =>
      by_cases hquote : first = '"'
      · -- quotes around a text that needs them would stand in a value that needs them
        subst hquote
        have hsub : rest.dropLast ⊆ value.toList := by
          rw [hvalue]
          exact List.Subset.trans (List.dropLast_subset rest) (List.subset_cons_self ..)
        rw [unquoted_cons, if_neg (fun hinner => h (hinner.2.imp (hsub ·) (hsub ·))), ← hvalue,
          String.ofList_toList]
      · unfold unquoted
        split
        next rest' heq => exact absurd (List.cons.inj heq).1 hquote
        next => rw [← hvalue, String.ofList_toList]

/-! ## Lines -/

section Lines

variable {c : Cookie}

theorem texts_cons (c : Cookie) :
    c.texts = c.name :: c.value :: (c.path.toList ++ c.domain.toList) := by
  unfold texts
  cases c.path <;> cases c.domain <;> rfl

/-- A text of a cookie has the end of a segment, if it has no semicolon. -/
theorem endsSegment_text (hsep : c.IsSeparable) (htrim : c.IsTrimmed) {text : String}
    (h : text ∈ c.texts) : EndsSegment text.toList where
  semicolon := hsep.semicolon text h
  last := by
    rw [← htrim text h]
    exact getLast?_trim

/-- The text of every attribute ends a segment. -/
theorem endsSegment_attribute (hsep : c.IsSeparable) (htrim : c.IsTrimmed) {label text : String}
    (h : (label, some text) ∈ c.attributes) : EndsSegment text.toList := by
  have hlabel : label ∈ labels :=
    (carries c).order.subset (List.mem_map.mpr ⟨(label, some text), h, rfl⟩)
  have hof : ∀ {value : String}, some text = some value → EndsSegment value.toList →
      EndsSegment text.toList := fun heq hvalue => Option.some.inj heq ▸ hvalue
  simp only [labels, List.mem_cons, List.not_mem_nil, or_false] at hlabel
  rcases hlabel with rfl | rfl | rfl | rfl | rfl | rfl | rfl | rfl
  · obtain ⟨path, hpath, -, htext⟩ := ((carries c).path _).mp h
    exact hof htext (endsSegment_text hsep htrim (by simp [texts_cons, hpath]))
  · obtain ⟨domain, bare, hdomain, hbare, -, htext⟩ := ((carries c).domain _).mp h
    have hends : EndsSegment domain.toList :=
      endsSegment_text hsep htrim (by simp [texts_cons, hdomain])
    refine hof htext ?_
    rcases hbare with rfl | ⟨rfl, -⟩
    · rw [String.toList_append] at hends
      exact EndsSegment.tail hends
    · exact hends
  · obtain ⟨t, -, -, htext⟩ := ((carries c).expires _).mp h
    exact hof htext (endsSegment_httpDate t)
  · obtain ⟨age, -, -, htext⟩ := ((carries c).maxAge _).mp h
    refine hof htext (endsSegment_of_all ?_)
    rw [← Int.toNat_eq_max]
    exact all_toString (fun _ => isSolid_of_isDigit) age.toNat
  · cases (((carries c).httpOnly _).mp h).2
  · cases (((carries c).secure _).mp h).2
  · obtain ⟨policy, -, htext⟩ := ((carries c).sameSite _).mp h
    refine hof htext (endsSegment_of_all ?_)
    cases policy <;> rfl
  · cases (((carries c).partitioned _).mp h).2

/-- Labels have neither blanks nor semicolons. -/
theorem all_isSolid_label {label : String} (h : label ∈ labels) :
    label.toList.all isSolid = true :=
  List.all_eq_true.mp (by rfl : labels.all (fun label => label.toList.all isSolid) = true) label h

/-- Labels have no equals sign. -/
theorem equals_notMem_label {label : String} (h : label ∈ labels) : '=' ∉ label.toList := by
  have hall : labels.all (fun label => label.toList.all (· != '=')) = true := rfl
  intro hmem
  cases List.all_eq_true.mp (List.all_eq_true.mp hall label h) '=' hmem

/-- An attribute whose text ends a segment is a segment, and is read from it. -/
theorem attribute_roundtrip {label : String} {v : Option String} (hlabel : label ∈ labels)
    (htext : ∀ text, v = some text → EndsSegment text.toList) :
    IsSegment (attributeText (label, v)).toList ∧
      attributeOf (attributeText (label, v)).toList = (label, v) := by
  have hsolid := all_isSolid_label hlabel
  have hequals := equals_notMem_label hlabel
  have hends := endsSegment_of_all hsolid
  have hfirst := head?_of_all hsolid
  unfold attributeOf
  cases v with
  | none =>
    rw [show attributeText (label, none) = label from rfl, cut_eq_none hequals]
    exact ⟨⟨hends.semicolon, trim_eq_self hfirst hends.last⟩,
      congrArg (·, none) String.ofList_toList⟩
  | some text =>
    have hjoin : (attributeText (label, some text)).toList = label.toList ++ '=' :: text.toList := by
      show (label ++ "=" ++ text).toList = _
      rw [String.toList_append, String.toList_append, List.append_assoc]
      rfl
    rw [hjoin, cut_append hequals]
    refine ⟨isSegment_equals hends.semicolon hfirst (htext text rfl), ?_⟩
    dsimp only
    rw [String.ofList_toList, String.ofList_toList]

/-- The first part has the name up to its first equals sign. -/
theorem toList_pair (c : Cookie) : c.pair.toList = c.name.toList ++ '=' :: quoted c.value := by
  unfold pair quoted
  split
  next =>
    rw [String.toList_append, String.toList_append, String.toList_append, List.append_assoc,
      List.append_assoc]
    rfl
  next =>
    rw [String.toList_append, String.toList_append, List.append_assoc]
    rfl

theorem isSegment_pair (hsep : c.IsSeparable) (htrim : c.IsTrimmed) : IsSegment c.pair.toList := by
  have hname : c.name ∈ c.texts := List.mem_cons_self
  have hvalue : c.value ∈ c.texts := List.mem_cons_of_mem _ List.mem_cons_self
  rw [toList_pair]
  refine isSegment_equals (hsep.semicolon _ hname) ?_
    (endsSegment_quoted (endsSegment_text hsep htrim hvalue))
  rw [← htrim _ hname]
  exact isBlank_head?_trim

/-- **What is read from the line of a cookie** whose texts do not end its parts. -/
theorem ofLine?_line (hsep : c.IsSeparable) (htrim : c.IsTrimmed) :
    Reading.ofLine? c.line = some ⟨c.name, c.value, c.attributes⟩ := by
  have hattributes : ∀ a ∈ c.attributes, IsSegment (attributeText a).toList ∧
      attributeOf (attributeText a).toList = a := by
    rintro ⟨label, v⟩ hmem
    refine attribute_roundtrip ((carries c).order.subset (List.mem_map.mpr ⟨_, hmem, rfl⟩)) ?_
    rintro text rfl
    exact endsSegment_attribute hsep htrim hmem
  have hparts : ∀ part ∈ c.pair.toList :: c.attributes.map (attributeText · |>.toList),
      IsSegment part := by
    refine List.forall_mem_cons.mpr ⟨isSegment_pair hsep htrim, List.forall_mem_map.mpr ?_⟩
    exact fun a ha => (hattributes a ha).1
  have hline : c.line.toList =
      [';', ' '].intercalate (c.pair.toList :: c.attributes.map (attributeText · |>.toList)) := by
    unfold line lineParts
    rw [String.toList_intercalate, List.map_cons, attributeParts_eq, List.map_map]
    rfl
  have hread : (c.attributes.map (attributeText · |>.toList)).map attributeOf = c.attributes := by
    rw [List.map_map]
    exact (List.map_congr_left fun a ha => (hattributes a ha).2).trans (List.map_id _)
  unfold Reading.ofLine?
  rw [hline, segments_intercalate hparts]
  dsimp only
  rw [hread, toList_pair, cut_append hsep.equals, Option.map_some]
  dsimp only
  rw [String.ofList_toList, unquoted_quoted]

end Lines

end Cookie

/-! ## Cookies of a file -/

section Files

open BehaviorFile (Property Section)

variable {now : Time.Instant}

theorem mem_of_lastNamed {name text : String} {properties : List Property}
    (h : lastNamed name properties = some text) : ∃ p ∈ properties, p.value = text := by
  obtain ⟨p, hlast, rfl⟩ := Option.map_eq_some_iff.mp h
  exact ⟨p, List.mem_of_mem_filter (List.mem_of_getLast? hlast), rfl⟩

/-- The name and the attributes of a group are properties. -/
theorem mem_of_cookieGroups {g : CookieGroup} : ∀ {properties : List Property},
    g ∈ cookieGroups properties →
      (∃ p ∈ properties, p.value = g.name) ∧ g.attributes ⊆ properties
  | [], h => absurd h List.not_mem_nil
  | p :: rest, h => by
    have hlater : g ∈ cookieGroups rest →
        (∃ q ∈ p :: rest, q.value = g.name) ∧ g.attributes ⊆ p :: rest := by
      intro h
      obtain ⟨⟨q, hq, hname⟩, hsub⟩ := mem_of_cookieGroups h
      exact ⟨⟨q, List.mem_cons_of_mem _ hq, hname⟩, List.subset_cons_of_subset _ hsub⟩
    rw [cookieGroups] at h
    split at h
    next =>
      rcases List.mem_cons.mp h with rfl | h
      · refine ⟨⟨p, List.mem_cons_self, rfl⟩, fun q hq => List.mem_cons_of_mem _ ?_⟩
        exact (List.takeWhile_sublist _).subset (List.mem_of_mem_filter hq)
      · exact hlater h
    next => exact hlater h

/-- A text of a cookie is the value of a property, or empty. -/
theorem mem_texts_of_makes {properties : List Property} {g : CookieGroup} {c : Cookie}
    (hg : g ∈ cookieGroups properties) (h : g.Makes now c) {text : String} (htext : text ∈ c.texts) :
    text = "" ∨ ∃ p ∈ properties, p.value = text := by
  obtain ⟨hname, hsub⟩ := mem_of_cookieGroups hg
  have hlast : ∀ {word value}, lastNamed word g.attributes = some value →
      ∃ p ∈ properties, p.value = value := by
    intro word value hword
    obtain ⟨p, hp, hvalue⟩ := mem_of_lastNamed hword
    exact ⟨p, hsub hp, hvalue⟩
  rw [Cookie.texts_cons, List.mem_cons, List.mem_cons, List.mem_append, Option.mem_toList,
    Option.mem_toList, h.name, h.value, h.path, h.domain] at htext
  rcases htext with rfl | rfl | hpath | hdomain
  · exact .inr hname
  · cases hvalue : lastNamed "cookie.value" g.attributes with
    | none => exact .inl rfl
    | some value => exact .inr (hlast hvalue)
  · exact .inr (hlast hpath)
  · exact .inr (hlast hdomain)

/-- What is kept of a file has no blanks at its ends. -/
theorem trim_value {policy : BehaviorFile.DuplicatePolicy} {lines : List (Option (List Char))}
    {sections : List Section} (hread : BehaviorFile.ofLines policy lines = .ok sections)
    {s : Section} (hs : s ∈ sections) {p : Property} (hp : p ∈ s.properties) :
    trim p.value.toList = p.value.toList := by
  obtain ⟨-, i, raw, -, -, hline⟩ := (BehaviorFile.ofLines_sourced hread s hs).properties p hp
  obtain ⟨-, k, v, -, -, hvalue⟩ := BehaviorFile.Line.ofText_eq_property.mp hline
  rw [hvalue, BehaviorFile.kept, String.toList_ofList, trim_trim]

theorem exists_of_forall₂ {α β : Type} {R : α → β → Prop} {xs : List α} {ys : List β}
    (h : List.Forall₂ R xs ys) {y : β} (hy : y ∈ ys) : ∃ x ∈ xs, R x y := by
  induction h with
  | nil => exact absurd hy List.not_mem_nil
  | @cons x _ _ _ hxy _ ih =>
    rcases List.mem_cons.mp hy with rfl | hy
    · exact ⟨x, List.mem_cons_self, hxy⟩
    · obtain ⟨x', hx', hr⟩ := ih hy
      exact ⟨x', List.mem_cons_of_mem _ hx', hr⟩

namespace BehaviorSet

/-- Each cookie of a compiled set is made by a group of some section. -/
theorem compile_makes {sections : List Section} {set : BehaviorSet}
    (h : compile now sections = .ok set) : set.Every fun r => ∀ c ∈ r.cookies,
      ∃ s ∈ sections, ∃ g ∈ cookieGroups s.properties, g.Makes now c := by
  obtain ⟨hfallback, hbehaviors⟩ := compile_eq_ok.mp h
  constructor
  · intro r hr c hc
    obtain ⟨-, added, hadded, hcookies⟩ := Response.withAllDefaults_groups _ hfallback
    rw [hr] at hcookies
    have hall : r.cookies = added.flatten := hcookies
    obtain ⟨own, hown, hc⟩ := List.mem_flatten.mp (hall ▸ hc)
    obtain ⟨s, hs, hmakes⟩ := exists_of_forall₂ hadded hown
    obtain ⟨g, hg, hmakes⟩ := exists_of_forall₂ hmakes hc
    exact ⟨s, List.mem_of_mem_filter hs, g, hg, hmakes⟩
  · intro b hb c hc
    obtain ⟨s, hs, hsection⟩ := exists_of_forall₂ hbehaviors hb
    obtain ⟨g, hg, hmakes⟩ := exists_of_forall₂ (Behavior.ofSection_groups hsection).2 hc
    exact ⟨s, List.mem_of_mem_filter hs, g, hg, hmakes⟩

/-- **The line of a cookie carries the cookie.** If the texts of a cookie that was compiled from a
file have no semicolon, and its name no equals sign, its line is read back to the name, the value
and the attributes with something to say, and to nothing else. -/
theorem compile_cookieLines {policy : BehaviorFile.DuplicatePolicy}
    {lines : List (Option (List Char))} {sections : List Section} {set : BehaviorSet}
    (hread : BehaviorFile.ofLines policy lines = .ok sections)
    (h : compile now sections = .ok set) : set.Every fun r => ∀ c ∈ r.cookies, c.IsSeparable →
      ∃ reading, Cookie.Reading.ofLine? c.line = some reading ∧ Cookie.Carries c reading := by
  refine (compile_makes h).imp fun hmade c hc hsep => ?_
  obtain ⟨s, hs, g, hg, hmakes⟩ := hmade c hc
  have htrim : c.IsTrimmed := by
    intro text htext
    rcases mem_texts_of_makes hg hmakes htext with rfl | ⟨p, hp, rfl⟩
    · rfl
    · exact trim_value hread hs hp
  exact ⟨_, Cookie.ofLine?_line hsep htrim, Cookie.carries c⟩

/-- A cookie with a quoted value, an empty path, a point before its domain and no lifetime left. -/
theorem compile_cookieLines_attributes :
    let sections : List Section :=
      [⟨"default", 0, []⟩,
        ⟨"GET /a", 1, [⟨"cookie.name", "a", 2⟩, ⟨"cookie.value", "x, y", 3⟩, ⟨"cookie.path", "", 4⟩,
          ⟨"cookie.domain", ".b.c", 5⟩, ⟨"cookie.max_age", "-5", 6⟩, ⟨"cookie.http_only", "true", 7⟩,
          ⟨"cookie.same_site", "lax", 8⟩]⟩]
    let c : Cookie :=
      { name := "a", value := "x, y", path := some "", domain := some ".b.c", maxAge := some (-5)
        httpOnly := true, sameSite := some .lax }
    BehaviorFile.ofText .merge ("[GET /a]\ncookie.name = a\ncookie.value = x, y\ncookie.path =\n" ++
        "cookie.domain = .b.c\ncookie.max_age = -5\ncookie.http_only = true\n" ++
        "cookie.same_site = lax\n") = .ok sections ∧
      compile .epoch sections =
        .ok { fallback := some {}, behaviors := [⟨.get, "/a", none, { cookies := [c] }⟩] } ∧
      c.line = "a=\"x, y\"; Domain=b.c; Max-Age=0; HttpOnly; SameSite=Lax" ∧
      ∃ reading, Cookie.Reading.ofLine? c.line = some reading ∧ Cookie.Carries c reading := by
  intro sections c
  have hread : BehaviorFile.ofText .merge
      ("[GET /a]\ncookie.name = a\ncookie.value = x, y\ncookie.path =\n" ++
        "cookie.domain = .b.c\ncookie.max_age = -5\ncookie.http_only = true\n" ++
        "cookie.same_site = lax\n") = .ok sections := by
    decide +kernel
  have hcompile : compile .epoch sections =
      .ok { fallback := some {}, behaviors := [⟨.get, "/a", none, { cookies := [c] }⟩] } := by
    decide +kernel
  have hsep : c.IsSeparable := ⟨by decide +kernel, by decide +kernel⟩
  refine ⟨hread, hcompile, by decide +kernel, ?_⟩
  exact (compile_cookieLines hread hcompile).2 _ (List.mem_singleton_self _) c
    (List.mem_singleton_self c) hsep

/-- Lines that do not carry their cookie. An empty path, a domain of one point and a time of expiry
before the first year of such dates are not written; a semicolon in a value begins an attribute
that was not configured; and an equals sign in a name ends it. -/
theorem not_carried :
    let silent : Cookie :=
      { name := "a", path := some "", domain := some ".", expires := some ⟨-11676096000, 0⟩
        rawExpires := some "1600-01-01T00:00:00Z" }
    let divided : Cookie := { name := "a", value := "x;Secure" }
    let renamed : Cookie := { name := "a=b" }
    let setOf (c : Cookie) : BehaviorSet :=
      { fallback := some {}, behaviors := [⟨.get, "/a", none, { cookies := [c] }⟩] }
    ((∃ sections, BehaviorFile.ofText .merge ("[GET /a]\ncookie.name = a\ncookie.path =\n" ++
          "cookie.domain = .\ncookie.raw_expires = 1600-01-01T00:00:00Z\n") = .ok sections ∧
        compile .epoch sections = .ok (setOf silent)) ∧ silent.isSendable = true ∧
      Cookie.Reading.ofLine? silent.line = some ⟨"a", "", []⟩) ∧
    ((∃ sections, BehaviorFile.ofText .merge
          "[GET /a]\ncookie.name = a\ncookie.value = x;Secure\n" = .ok sections ∧
        compile .epoch sections = .ok (setOf divided)) ∧ divided.isSendable = true ∧
      Cookie.Reading.ofLine? divided.line = some ⟨"a", "x", [("Secure", none)]⟩) ∧
    (∃ sections, BehaviorFile.ofText .merge "[GET /a]\ncookie.name = a=b\n" = .ok sections ∧
        compile .epoch sections = .ok (setOf renamed)) ∧ renamed.isSendable = true ∧
      Cookie.Reading.ofLine? renamed.line = some ⟨"a", "b=", []⟩ := by
  intro silent divided renamed setOf
  refine ⟨⟨⟨[⟨"default", 0, []⟩, ⟨"GET /a", 1, [⟨"cookie.name", "a", 2⟩, ⟨"cookie.path", "", 3⟩,
      ⟨"cookie.domain", ".", 4⟩, ⟨"cookie.raw_expires", "1600-01-01T00:00:00Z", 5⟩]⟩], ?_, ?_⟩, ?_, ?_⟩,
    ⟨⟨[⟨"default", 0, []⟩, ⟨"GET /a", 1, [⟨"cookie.name", "a", 2⟩,
      ⟨"cookie.value", "x;Secure", 3⟩]⟩], ?_, ?_⟩, ?_, ?_⟩,
    ⟨[⟨"default", 0, []⟩, ⟨"GET /a", 1, [⟨"cookie.name", "a=b", 2⟩]⟩], ?_, ?_⟩, ?_, ?_⟩
  all_goals decide +kernel

end BehaviorSet

end Files

end StubServer
