import StubServer.Proofs.BehaviorFile.Contents
import StubServer.Proofs.BehaviorFile.Reading
import StubServer.Proofs.Text.Utf8

/-!
# Files of octets

The lines of a file are decoded one by one, as they are read. It makes no difference to decode
the file as a whole, because the octet of a line feed is no part of any other character: octets
and text are cut into lines at the same places (`Text.Utf8.splitOn_encode`).

The difference lies in files that are not text. There the lines before the first that cannot be
decoded have been read when it is met, and a fault in them is the one that is reported:

> `FirstStop`: an error is that of the first line that cannot be decoded, or lacks the name of
> its header or the key of its property.

Nothing below that line is looked at, and what becomes of duplicates does not matter either
(`ofLines_eq_error`). `ofBytes_octets` is the law for whole files.
-/

namespace StubServer

namespace Text.Utf8

variable {bytes : List UInt8}

/-- The octets of a text are cut into lines where the text is. -/
theorem splitOn_encode (cs : List Char) :
    (encode cs).splitOn 0x0A = (cs.splitOn '\n').map encode := by
  conv => lhs; rw [← @List.intercalate_splitOn _ cs _ _ '\n', encode_intercalate]
  refine List.splitOn_intercalate _ (fun part hpart => ?_) (by simp [List.splitOn_ne_nil])
  obtain ⟨line, hline, rfl⟩ := List.mem_map.mp hpart
  rw [newline_mem_encode]
  exact BehaviorFile.notMem_of_mem_splitOn '\n' cs line hline

/-- The lines of a text are those of its octets. -/
theorem decode_lines {cs : List Char} (h : decode bytes = some cs) :
    (bytes.splitOn 0x0A).map decode = (cs.splitOn '\n').map some := by
  rw [← encode_of_decode h, splitOn_encode, List.map_map]
  exact List.map_congr_left fun line _ => decode_encode line

/-- Lines that were decoded are those that they are decoded to, in octets. -/
theorem eq_map_encode : ∀ {parts : List (List UInt8)} {lines : List (List Char)},
    parts.map decode = lines.map some → parts = lines.map encode
  | [], [], _ => rfl
  | part :: parts, line :: lines, h => by
    obtain ⟨hfirst, hrest⟩ := List.cons.inj h
    rw [List.map_cons, encode_of_decode hfirst, eq_map_encode hrest]

/-- Lines that can be decoded make a text. -/
theorem decode_intercalate {parts : List (List UInt8)} {lines : List (List Char)}
    (h : parts.map decode = lines.map some) :
    decode ([0x0A].intercalate parts) = some (['\n'].intercalate lines) := by
  rw [eq_map_encode h, ← encode_intercalate]
  exact decode_encode _

end Text.Utf8

namespace BehaviorFile

open Text (Utf8.decode)

/-! ## The line that ends the reading -/

/-- A line that ends the reading: it is not text, or has a fault. -/
def Stops : Option (List Char) → Prop
  | none => True
  | some raw => Faulty raw

/-- The error of such a line below a header of the given name. -/
def stopError (name : String) : Option (List Char) → ReadError
  | none => .system .notText
  | some raw => fault name raw

/-- An error is that of the first line that ends the reading. -/
def FirstStop (lines : List (Option (List Char))) (e : ReadError) : Prop :=
  ∃ before line after, lines = before.map some ++ line :: after ∧ (∀ raw ∈ before, ¬Faulty raw) ∧
    Stops line ∧ e = stopError (lastName before) line

section Lines

variable {lines : List (Option (List Char))} {e : ReadError}

/-- Lines that all can be read, or a first one that ends the reading. -/
theorem faultless_or_firstStop : ∀ lines : List (Option (List Char)),
    (∃ texts : List (List Char), lines = texts.map some ∧ ∀ raw ∈ texts, ¬Faulty raw) ∨
      ∃ e, FirstStop lines e
  | [] => Or.inl ⟨[], rfl, List.forall_mem_nil _⟩
  | line :: rest => by
    by_cases hline : Stops line
    · exact Or.inr ⟨_, [], line, rest, rfl, List.forall_mem_nil _, hline, rfl⟩
    · cases line with
      | none => exact absurd trivial hline
      | some raw =>
        rcases faultless_or_firstStop rest with
          ⟨texts, rfl, htexts⟩ | ⟨_, before, line, after, rfl, hbefore, hstops, -⟩
        · exact Or.inl ⟨raw :: texts, rfl, List.forall_mem_cons.mpr ⟨hline, htexts⟩⟩
        · exact Or.inr ⟨_, raw :: before, line, after, rfl,
            List.forall_mem_cons.mpr ⟨hline, hbefore⟩, hstops, rfl⟩

theorem ofLines_faultless (policy : DuplicatePolicy) {texts : List (List Char)}
    (h : ∀ raw ∈ texts, ¬Faulty raw) : ∃ sections, ofLines policy (texts.map some) = .ok sections := by
  obtain ⟨d, hread, -⟩ := readAll_faultless policy h
  unfold ofLines
  rw [hread]
  exact ⟨d.sections, rfl⟩

theorem ofLines_firstStop (policy : DuplicatePolicy) (h : FirstStop lines e) :
    ofLines policy lines = .error e := by
  obtain ⟨before, line, after, rfl, hbefore, hstops, rfl⟩ := h
  obtain ⟨d, hread, hfilled⟩ := readAll_faultless policy hbefore
  unfold ofLines
  rw [Draft.readAll_append, hread]
  cases line with
  | none => rfl
  | some raw =>
    show (d.read policy _ (.ofText raw) >>= fun next => next.readAll policy _ after).map _ = _
    rw [Draft.read_faulty hstops, hfilled.current]
    rfl

/-- The error of a file is that of the first line that ends the reading. -/
theorem ofLines_eq_error {policy : DuplicatePolicy} :
    ofLines policy lines = .error e ↔ FirstStop lines e := by
  constructor
  · intro h
    rcases faultless_or_firstStop lines with ⟨texts, rfl, htexts⟩ | ⟨e', hstop⟩
    · obtain ⟨sections, hread⟩ := ofLines_faultless policy htexts
      rw [hread] at h
      cases h
    · rw [ofLines_firstStop policy hstop] at h
      exact Except.error.inj h ▸ hstop
  · exact ofLines_firstStop policy

/-- Below a first line that is not text nothing is read. -/
theorem ofLines_notText (policy : DuplicatePolicy) (before : List (List Char))
    (after : List (Option (List Char))) : ofLines policy (before.map some ++ none :: after) =
      ofLines policy (before.map some) >>= fun _ => .error (.system .notText) := by
  unfold ofLines
  rw [Draft.readAll_append]
  cases Draft.start.readAll policy 1 (before.map some) <;> rfl

end Lines

/-! ## Files -/

/-- The lines of a file, in octets. -/
def octetLines (bytes : List UInt8) : List (List UInt8) :=
  bytes.splitOn 0x0A

/-- The first lines of a file. -/
def firstOctets (n : Nat) (bytes : List UInt8) : List UInt8 :=
  [0x0A].intercalate ((octetLines bytes).take n)

/-- Octets that are text. -/
def IsText (bytes : List UInt8) : Prop :=
  ∃ text : String, Utf8.decode bytes = some text.toList

section Files

variable {bytes : List UInt8} {n : Nat}

/-- Parts that are texts, decoded one by one. -/
theorem exists_map_decode {parts : List (List UInt8)} (h : ∀ part ∈ parts, IsText part) :
    ∃ lines : List (List Char), parts.map Utf8.decode = lines.map some := by
  induction parts with
  | nil => exact ⟨[], rfl⟩
  | cons part rest ih =>
    obtain ⟨⟨text, htext⟩, hrest⟩ := List.forall_mem_cons.mp h
    obtain ⟨lines, hlines⟩ := ih hrest
    exact ⟨text.toList :: lines, by rw [List.map_cons, List.map_cons, htext, hlines]⟩

/-- Lines that are decoded one by one are a text as a whole. -/
theorem decode_joined {parts : List (List UInt8)} {lines : List (List Char)}
    (h : parts.map Utf8.decode = lines.map some) :
    Utf8.decode ([0x0A].intercalate parts) =
      some (String.ofList (['\n'].intercalate lines)).toList := by
  rw [String.toList_ofList]
  exact Text.Utf8.decode_intercalate h

/-- A file is a text if every line is one. -/
theorem isText_iff : IsText bytes ↔ ∀ line ∈ octetLines bytes, IsText line := by
  constructor
  · rintro ⟨text, htext⟩ line hline
    have hmem : Utf8.decode line ∈ (octetLines bytes).map Utf8.decode :=
      List.mem_map.mpr ⟨line, hline, rfl⟩
    unfold octetLines at hmem
    rw [Text.Utf8.decode_lines htext] at hmem
    obtain ⟨cs, -, hcs⟩ := List.mem_map.mp hmem
    exact ⟨String.ofList cs, by rw [← hcs, String.toList_ofList]⟩
  · intro h
    obtain ⟨lines, hlines⟩ := exists_map_decode h
    have htext := decode_joined hlines
    unfold octetLines at htext
    rw [List.intercalate_splitOn] at htext
    exact ⟨_, htext⟩

/-- The first lines of a file are read as they are in it. -/
theorem ofBytes_firstOctets (policy : DuplicatePolicy) (n : Nat) (bytes : List UInt8) :
    ofBytes policy (firstOctets n bytes) =
      ofLines policy (((octetLines bytes).take n).map Utf8.decode) := by
  unfold ofBytes firstOctets
  by_cases h : (octetLines bytes).take n = []
  · -- no line and one empty line mean the same
    have hempty : Utf8.decode [] = some [] := Text.Utf8.decode_encode []
    rw [h]
    show ofLines policy [Utf8.decode []] = ofLines policy []
    rw [hempty]
    rfl
  · rw [List.splitOn_intercalate _ ?_ h]
    intro line hline
    exact notMem_of_mem_splitOn 0x0A bytes line (List.mem_of_mem_take hline)

/-- A file that is a text is read as that text. -/
theorem ofBytes_of_decode (policy : DuplicatePolicy) {text : String}
    (h : Utf8.decode bytes = some text.toList) : ofBytes policy bytes = ofText policy text := by
  unfold ofBytes ofText
  rw [Text.Utf8.decode_lines h]

/-- Of a file that is no text the lines before the first that is none are read, and then that line
is refused. -/
theorem ofBytes_notText {bad : List UInt8} (hbad : (octetLines bytes)[n]? = some bad)
    (hnone : Utf8.decode bad = none) (hbefore : ∀ line ∈ (octetLines bytes).take n, IsText line) :
    ∃ text : String, Utf8.decode (firstOctets n bytes) = some text.toList ∧
      ∀ policy, ofBytes policy bytes = ofText policy text >>= fun _ => .error (.system .notText) := by
  obtain ⟨lines, hlines⟩ := exists_map_decode hbefore
  have htext := decode_joined hlines
  refine ⟨_, htext, fun policy => ?_⟩
  obtain ⟨hn, rfl⟩ := List.getElem?_eq_some_iff.mp hbad
  have hall : (octetLines bytes).map Utf8.decode =
      lines.map some ++ none :: ((octetLines bytes).drop (n + 1)).map Utf8.decode := by
    conv => lhs; rw [← List.take_append_drop n (octetLines bytes), List.drop_eq_getElem_cons hn]
    rw [List.map_append, List.map_cons, hlines, hnone]
  rw [← ofBytes_of_decode policy htext]
  show ofLines policy ((octetLines bytes).map Utf8.decode) =
    ofBytes policy (firstOctets n bytes) >>= _
  rw [ofBytes_firstOctets, hlines, ← ofLines_notText, ← hall]

/-- An error is decided by the lines down to the one that ends the reading. -/
theorem ofBytes_decided {policy : DuplicatePolicy} {e : ReadError}
    (h : ofBytes policy bytes = .error e) : ∃ n < (octetLines bytes).length,
      (∃ sections, ofBytes policy (firstOctets n bytes) = .ok sections) ∧
        ∀ policy' bytes', (octetLines bytes').take (n + 1) = (octetLines bytes).take (n + 1) →
          ofBytes policy' bytes' = .error e := by
  obtain ⟨before, line, after, hlines, hbefore, hstops, rfl⟩ := ofLines_eq_error.mp h
  have hlength : (octetLines bytes).length = before.length + (after.length + 1) := by
    have hlengths := congrArg List.length hlines
    rw [List.length_map, List.length_append, List.length_map, List.length_cons] at hlengths
    exact hlengths
  have htake : ∀ n, ((octetLines bytes).take n).map Utf8.decode =
      (before.map some ++ line :: after).take n := fun n => by
    rw [List.map_take, ← hlines]
    rfl
  refine ⟨before.length, by omega, ?_, fun policy' bytes' hsame => ?_⟩
  · -- the lines above the one that ends the reading are texts without a fault
    rw [ofBytes_firstOctets, htake, List.take_left' (List.length_map _)]
    exact ofLines_faultless policy hbefore
  · refine ofLines_firstStop policy' ⟨before, line,
      ((octetLines bytes').drop (before.length + 1)).map Utf8.decode, ?_, hbefore, hstops, rfl⟩
    show (octetLines bytes').map Utf8.decode = _
    conv => lhs; rw [← List.take_append_drop (before.length + 1) (octetLines bytes'), hsame]
    rw [List.map_append, htake, List.append_cons, List.take_left' (by simp), List.append_assoc]
    rfl

end Files

/-- How a file of octets is read. -/
structure OctetLaw (bytes : List UInt8) : Prop where
  /-- It is a text if every line is one, -/
  isText : IsText bytes ↔ ∀ line ∈ octetLines bytes, IsText line
  /-- and is read as that text. -/
  text : ∀ {policy} {text : String}, Utf8.decode bytes = some text.toList →
    ofBytes policy bytes = ofText policy text
  /-- Otherwise it is refused, with the error of the lines before the first that is not text, if
  they have one, and else because of that line. -/
  notText : ∀ {n bad}, (octetLines bytes)[n]? = some bad → Utf8.decode bad = none →
    (∀ line ∈ (octetLines bytes).take n, IsText line) →
      ∃ text : String, Utf8.decode (firstOctets n bytes) = some text.toList ∧
        ∀ policy, ofBytes policy bytes =
          ofText policy text >>= fun _ => .error (.system .notText)
  /-- Any error is that of the first line that ends the reading. -/
  error : ∀ {policy e},
    ofBytes policy bytes = .error e ↔ FirstStop ((octetLines bytes).map Utf8.decode) e
  /-- The lines above that one can be read, and every file that begins like this one down to
  that line has the same error, under either policy. -/
  decided : ∀ {policy e}, ofBytes policy bytes = .error e → ∃ n < (octetLines bytes).length,
    (∃ sections, ofBytes policy (firstOctets n bytes) = .ok sections) ∧
      ∀ policy' bytes', (octetLines bytes').take (n + 1) = (octetLines bytes).take (n + 1) →
        ofBytes policy' bytes' = .error e

/-- **Octets are read like text, and errors come in the order of lines.** A file whose lines all
are text is read as that text. In any other the first line that is not text is an error of its
own, unless there is one above it; and whatever the error of a file, nothing below its line and
neither policy changes it. -/
theorem ofBytes_octets (bytes : List UInt8) : OctetLaw bytes where
  isText := isText_iff
  text := ofBytes_of_decode _
  notText := ofBytes_notText
  error := ofLines_eq_error
  decided := ofBytes_decided

/-- Of a property without a key and a line that is not text, the one further up is reported. -/
theorem ofBytes_octets_order :
    ofBytes .merge (Text.Utf8.encode "=1\n".toList ++ [0xFF]) = .error (.emptyKey "default") ∧
      ofBytes .merge (0xFF :: Text.Utf8.encode "\n=1".toList) = .error (.system .notText) :=
  ⟨(ofBytes_octets _).error.mpr ⟨[], some "=1".toList, [none], by decide +kernel,
      List.forall_mem_nil _, Or.inr ⟨"1", by decide +kernel⟩, rfl⟩,
    (ofBytes_octets _).error.mpr ⟨[], none, [some "=1".toList], by decide +kernel,
      List.forall_mem_nil _, trivial, rfl⟩⟩

end BehaviorFile

end StubServer
