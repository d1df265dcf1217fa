/-!
# TOML tables

A document is a table of named values, which may be tables themselves. How a table came to be decides what
may still be added to it: a header opens a table once; a table that a longer header or a dotted key implies
can be filled in later by the same means; an inline table is complete as it stands. `Table.update` walks
along a path of names under these rules and creates the tables that are missing on the way.

The numbers with a fraction and the dates of a document are kept as they were written.
-/

namespace StubServer.Toml

/-- How a table came to be. -/
inductive Origin
  | header
  | implied
  | dotted
  | inline
  deriving DecidableEq, Repr

inductive Value
  | text (value : String)
  | integer (value : Int)
  | float (written : String)
  | boolean (value : Bool)
  | moment (written : String)
  | list (items : List Value)
  | table (origin : Origin) (entries : List (String × Value))
  | tables (items : List (List (String × Value)))

/-- The entries of a table, in the order in which their names first came. -/
abbrev Table := List (String × Value)

namespace Table

/-- The value of a name. -/
def get? (t : Table) (name : String) : Option Value :=
  t.lookup name

/-- The table with a value in place of the one of the same name. -/
def put (t : Table) (name : String) (value : Value) : Table :=
  match t with
  | [] => [(name, value)]
  | (n, v) :: rest => if n = name then (name, value) :: rest else (n, v) :: put rest name value

/-- What walks along a path: the header of a table or a dotted key. -/
inductive Walk
  | header
  | dotted
  deriving DecidableEq, Repr

/-- The origin of a table that a walk creates. -/
def Walk.creates : Walk → Origin
  | header => .implied
  | dotted => .dotted

/-- Whether a walk may pass a table of a given origin. -/
def Walk.passes : Walk → Origin → Bool
  | header, origin => origin != .inline
  | dotted, origin => origin == .implied || origin == .dotted

/-- Changes the table at the end of a path; `change` is given its origin and entries. Of an array of tables
the last one is meant. -/
def update (walk : Walk) (change : Origin → Table → Option Table) :
    List String → Origin → Table → Option Table
  | [], origin, t => change origin t
  | name :: path, _, t =>
    match t.get? name with
    | none => (update walk change path walk.creates []).map fun inner =>
        t.put name (.table walk.creates inner)
    | some (.table origin inner) =>
      if walk.passes origin then
        (update walk change path origin inner).map fun inner => t.put name (.table origin inner)
      else none
    | some (.tables items) =>
      match items.getLast? with
      | some inner =>
        (update walk change path .header inner).map fun inner =>
          t.put name (.tables (items.dropLast ++ [inner]))
      | none => none
    | some _ => none

/-- The table with one more entry under a dotted key. A dotted key may only add to tables that dotted keys
made, and no name is given twice. -/
def insert (t : Table) (origin : Origin) (path : List String) (name : String) (value : Value) :
    Option Table :=
  update .dotted
    (fun origin inner =>
      if (origin == .dotted) == path.isEmpty || (inner.get? name).isSome then none
      else some (inner ++ [(name, value)]))
    path origin t

/-- The document after the header of a table. -/
def openTable (t : Table) (path : List String) (name : String) : Option Table :=
  update .header
    (fun _ inner =>
      match inner.get? name with
      | none => some (inner.put name (.table .header []))
      | some (.table .implied entries) => some (inner.put name (.table .header entries))
      | some _ => none)
    path .header t

/-- The document after the header of one more table of an array. -/
def openElement (t : Table) (path : List String) (name : String) : Option Table :=
  update .header
    (fun _ inner =>
      match inner.get? name with
      | none => some (inner.put name (.tables [[]]))
      | some (.tables items) => some (inner.put name (.tables (items ++ [[]])))
      | some _ => none)
    path .header t

/-- The document with one more entry in the table at a path that a header opened. -/
def insertAt (t : Table) (place path : List String) (name : String) (value : Value) : Option Table :=
  update .header (fun origin inner => inner.insert origin path name value) place .header t

end Table

end StubServer.Toml
