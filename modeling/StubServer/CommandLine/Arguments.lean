/-!
# Reading a command line

Arguments are options, which start with a hyphen, and operands. An option has a long name, perhaps a letter,
and perhaps a value, which stands behind an equals sign, behind the letter, or in the next argument; letters
without values can share one hyphen. After `--` everything is an operand. `scan` reads the arguments from
left to right up to the first thing that ends the reading: a request for help or for the version, a mistake,
or the name of a command, which gets the arguments after it.
-/

namespace StubServer.CommandLine

/-- What an option does. -/
inductive OptionKind
  | flag
  | value (name : String)
  | help
  | version
  deriving DecidableEq, Repr

/-- An option of a program. -/
structure OptionSpec where
  long : String
  short : Option Char := none
  kind : OptionKind := .flag
  description : String
  deriving DecidableEq, Repr

/-- Something that was read. -/
inductive Item
  | option (long : String) (value : Option String)
  | operand (text : String)
  deriving DecidableEq, Repr

/-- What ended the reading. -/
inductive Stop
  | done
  | help
  | version
  | mistake
  | command (name : String) (rest : List String)
  deriving DecidableEq, Repr

/-- The items up to the end of the reading, and that end. -/
structure Scan where
  items : List Item
  stop : Stop
  deriving DecidableEq, Repr

/-- A reading that begins with an item. -/
def Scan.after (item : Item) (s : Scan) : Scan :=
  { s with items := item :: s.items }

/-- The forms of an argument. -/
inductive Argument
  | escape
  | long (name : String) (value : Option String)
  | letters (letters : List Char)
  | operand (text : String)
  deriving DecidableEq, Repr

/-- A long option around its first equals sign. -/
def Argument.ofLong (cs : List Char) : Argument :=
  let name := String.ofList (cs.takeWhile (· != '='))
  match cs.dropWhile (· != '=') with
  | [] => .long name none
  | _ :: value => .long name (some (String.ofList value))

/-- The form of an argument; a lone hyphen is an operand. -/
def Argument.ofText (text : String) : Argument :=
  match text.toList with
  | ['-', '-'] => .escape
  | '-' :: '-' :: cs => .ofLong cs
  | ['-'] => .operand text
  | '-' :: cs => .letters cs
  | _ => .operand text

/-- Whether an argument can be the value of the option before it. -/
def isValue (text : String) : Bool :=
  match Argument.ofText text with
  | .operand _ => true
  | _ => false

/-- Letters behind one hyphen, with the option that still waits for its value. -/
inductive Letters
  | all
  | waiting (option : OptionSpec)
  | stopped (stop : Stop)
  deriving DecidableEq, Repr

/-- Reads letters up to the first that takes the rest as its value or ends the reading. -/
def readLetters (options : List OptionSpec) : List Char → List Item × Letters
  | [] => ([], .all)
  | c :: cs =>
    match options.find? (·.short = some c) with
    | none => ([], .stopped .mistake)
    | some o =>
      match o.kind with
      | .help => ([], .stopped .help)
      | .version => ([], .stopped .version)
      | .flag =>
        let (items, letters) := readLetters options cs
        (.option o.long none :: items, letters)
      | .value _ =>
        match cs with
        | [] => ([], .waiting o)
        | '=' :: value => ([.option o.long (some (String.ofList value))], .all)
        | value => ([.option o.long (some (String.ofList value))], .all)

/-- Reads arguments; the first operand is a command if the program has commands. -/
def scan (options : List OptionSpec) (commands : Bool) : List String → Scan
  | [] => ⟨[], .done⟩
  | argument :: rest =>
    match Argument.ofText argument with
    | .escape => ⟨rest.map .operand, .done⟩
    | .operand text =>
      if commands then ⟨[], .command text rest⟩ else (scan options commands rest).after (.operand text)
    | .long name value =>
      match options.find? (·.long = name) with
      | none => ⟨[], .mistake⟩
      | some o =>
        match o.kind, value with
        | .help, none => ⟨[], .help⟩
        | .version, none => ⟨[], .version⟩
        | .flag, none => (scan options commands rest).after (.option name none)
        | .value _, some v => (scan options commands rest).after (.option name (some v))
        | .value _, none =>
          match rest with
          | v :: rest =>
            if isValue v then (scan options commands rest).after (.option name (some v))
            else ⟨[], .mistake⟩
          | [] => ⟨[], .mistake⟩
        | _, some _ => ⟨[], .mistake⟩
    | .letters letters =>
      match readLetters options letters with
      | (items, .all) =>
        let more := scan options commands rest
        { more with items := items ++ more.items }
      | (items, .stopped stop) => ⟨items, stop⟩
      | (items, .waiting o) =>
        match rest with
        | v :: rest =>
          if isValue v then
            let more := scan options commands rest
            { more with items := items ++ .option o.long (some v) :: more.items }
          else ⟨items, .mistake⟩
        | [] => ⟨items, .mistake⟩

end StubServer.CommandLine
