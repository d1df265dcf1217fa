import StubServer.Disk

/-!
# Where a behavior file is

The path of a behavior file leads to a file whose name ends in `.ini` and has something before that ending.
-/

namespace StubServer.BehaviorFile

/-- The ending of a behavior file's name. -/
def ending : String := ".ini"

/-- Whether a name is that of a behavior file: an ending alone is no name. -/
def isFileName (name : String) : Bool :=
  match Text.before? ending.toList name.toList with
  | some stem => !stem.isEmpty
  | none => false

/-- Whether a path leads to a behavior file. -/
def isAt (disk : Disk) (path : String) : Bool :=
  (fileName? path).any isFileName && disk.isFile path

/-- The wording of the refusal of a path. -/
def refusal (path : String) : String :=
  "invalid or missing path: " ++ path

end StubServer.BehaviorFile
