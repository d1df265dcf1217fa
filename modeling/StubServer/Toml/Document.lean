import StubServer.Toml.Lexeme

/-!
# TOML documents

Values, and the lines of a document. Arrays and inline tables may lie in each other to a limited depth, so
the reader of values is defined by recursion on the depth that is left, and the readers of items and pairs
take the reader of one value as an argument.
-/

namespace StubServer.Toml

/-- How deep arrays and inline tables may lie in each other. -/
def maxDepth : Nat := 79

/-- The items of an array, after its opening bracket, up to the closing one. Blanks and comments may stand
anywhere, and a comma may follow the last item. -/
def items? (value : Reader Value) : Nat → Reader (List Value)
  | 0, _ => none
  | fuel + 1, cs =>
    match skipLines cs.length cs with
    | ']' :: rest => some ([], rest)
    | cs =>
      match value cs with
      | none => none
      | some (item, rest) =>
        match skipLines rest.length rest with
        | ']' :: rest => some ([item], rest)
        | ',' :: rest => (items? value fuel rest).map fun (items, rest) => (item :: items, rest)
        | _ => none

/-- A key, an equals sign and a value. -/
def pair? (value : Reader Value) : Reader ((List String × String) × Value) := fun cs =>
  match key? cs with
  | none => none
  | some (key, rest) =>
    match skipSpaces rest with
    | '=' :: rest => (value (skipSpaces rest)).map fun (v, rest) => ((key, v), rest)
    | _ => none

/-- The pairs of an inline table, with commas between them, up to the closing brace. -/
def pairs? (value : Reader Value) : Nat → Table → Reader Table
  | 0, _, _ => none
  | fuel + 1, t, cs =>
    match pair? value (skipSpaces cs) with
    | none => none
    | some (((path, name), v), rest) =>
      match t.insert .inline path name v with
      | none => none
      | some t =>
        match skipSpaces rest with
        | ',' :: rest => pairs? value fuel t rest
        | '\x7d' :: rest => some (t, rest)
        | _ => none

/-- An inline table, after its opening brace. -/
def inlineTable? (value : Reader Value) : Reader Value := fun cs =>
  match skipSpaces cs with
  | '\x7d' :: rest => some (.table .inline [], rest)
  | _ => (pairs? value (cs.length + 1) [] cs).map fun (t, rest) => (.table .inline t, rest)

/-- A value that holds no other. -/
def scalarValue? (cs : List Char) : Option (Value × List Char) :=
  match string? cs with
  | some (s, rest) => some (.text s, rest)
  | none =>
    match cs with
    | 't' :: 'r' :: 'u' :: 'e' :: rest => some (.boolean true, rest)
    | 'f' :: 'a' :: 'l' :: 's' :: 'e' :: rest => some (.boolean false, rest)
    | _ => (moment? cs).orElse fun _ => number? cs

/-- A value in which others may lie to a given depth. -/
def value? : Nat → Reader Value
  | 0, cs => scalarValue? cs
  | depth + 1, cs =>
    match cs with
    | '[' :: rest =>
      (items? (value? depth) (rest.length + 1) rest).map fun (items, rest) => (.list items, rest)
    | '\x7b' :: rest => inlineTable? (value? depth) rest
    | _ => scalarValue? cs

/-! ## Lines -/

/-- A document in the making, and the path of the table that is open. -/
structure Draft where
  root : Table := []
  place : List String := []

/-- The document after a header, which starts with its opening bracket. -/
def header? (d : Draft) (cs : List Char) : Option (Draft × List Char) :=
  match cs with
  | '[' :: '[' :: rest =>
    match key? (skipSpaces rest) with
    | some ((path, name), rest) =>
      match skipSpaces rest with
      | ']' :: ']' :: rest =>
        (d.root.openElement path name).map fun root => (⟨root, path ++ [name]⟩, rest)
      | _ => none
    | none => none
  | '[' :: rest =>
    match key? (skipSpaces rest) with
    | some ((path, name), rest) =>
      match skipSpaces rest with
      | ']' :: rest => (d.root.openTable path name).map fun root => (⟨root, path ++ [name]⟩, rest)
      | _ => none
    | none => none
  | _ => none

/-- The document after an entry. -/
def entry? (d : Draft) (cs : List Char) : Option (Draft × List Char) :=
  match pair? (value? maxDepth) cs with
  | some (((path, name), v), rest) =>
    (d.root.insertAt d.place path name v).map fun root => (⟨root, d.place⟩, rest)
  | none => none

/-- The document after what a line says, if it says anything. -/
def statement? (d : Draft) (cs : List Char) : Option (Draft × List Char) :=
  match cs with
  | [] => some (d, cs)
  | c :: _ =>
    if c == '[' then header? d cs
    else if c == '#' || (newline? cs).isSome then some (d, cs)
    else entry? d cs

/-- The document after the remaining lines. -/
def lines? : Nat → Draft → List Char → Option Table
  | 0, _, _ => none
  | fuel + 1, d, cs =>
    match statement? d (skipSpaces cs) with
    | none => none
    | some (d, rest) =>
      match skipComment (skipSpaces rest) with
      | [] => some d.root
      | rest =>
        match newline? rest with
        | some rest => lines? fuel d rest
        | none => none

/-- The root table of a document. A byte order mark at the start means nothing. -/
def parse? (text : String) : Option Table :=
  let cs := match text.toList with
    | '\uFEFF' :: rest => rest
    | cs => cs
  lines? (cs.length + 1) {} cs

end StubServer.Toml
