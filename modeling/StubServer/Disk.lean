import StubServer.System
import StubServer.Text.Cut
import StubServer.Text.Utf8

/-!
# Files

What the program sees of the file system: files and directories, each at a place given by the names that
lead to it. A place starts at the working directory, or with a slash at the root. A path is followed name by
name, and everything on the way must be a directory. Names and paths are measured in octets, and the system
refuses those that are too long.
-/

namespace StubServer

inductive Node
  | file (content : List UInt8)
  | directory
  deriving DecidableEq, Repr

structure Disk where
  nodes : List (List String × Node) := []
  deriving DecidableEq, Repr

/-- The names in a path, between its slashes. -/
def pathNames (path : String) : List String :=
  (path.toList.splitOn '/').map String.ofList

/-- A name that stays where it is. -/
def isIdle (name : String) : Bool :=
  name.isEmpty || name == "."

/-- The name of the file that a path ends with; a path that ends by going up has none. -/
def fileName? (path : String) : Option String :=
  match ((pathNames path).filter (!isIdle ·)).getLast? with
  | some name => if name = ".." then none else some name
  | none => none

/-- Whether a path can only mean a directory. -/
def wantsDirectory (path : String) : Bool :=
  ((pathNames path).getLast?.map isIdle).getD true

/-- The place where a path starts. -/
def startOf (path : String) : List String :=
  if path.toList.head? = some '/' then ["/"] else []

/-- The place of the directory that a place lies in. The root lies in itself, and the directories above the
working directory have no names but how far up they are. -/
def above (place : List String) : List String :=
  if place = ["/"] then place
  else if place.getLast? = none ∨ place.getLast? = some ".." then place ++ [".."]
  else place.dropLast

/-- The place that a name leads to from a directory. -/
def enter (place : List String) (name : String) : List String :=
  if isIdle name then place else if name = ".." then above place else place ++ [name]

/-- The place that a path leads to, whatever stands there. -/
def placeOf (path : String) : List String :=
  (pathNames path).foldl enter (startOf path)

/-- Whether something always stands at a place: the root, the working directory and those above it. -/
def isGround (place : List String) : Bool :=
  place == ["/"] || place.all (· == "..")

/-- The names of a path up to each of them. -/
def pathStarts (path : String) : List (List String) :=
  let names := pathNames path
  (List.range names.length).map (names.take ·)

/-- The places that a path passes before its last name, but for those that are always there. -/
def passed (path : String) : List (List String) :=
  ((pathStarts path).map (·.foldl enter (startOf path))).filter (!isGround ·)

/-- The octets of the longest name. -/
def longestName : Nat := 255

/-- The octets of the longest path. -/
def longestPath : Nat := 4095

namespace Disk

/-- What stands at a place. Whatever something lies in is a directory. -/
def at? (disk : Disk) (place : List String) : Option Node :=
  match disk.nodes.lookup place with
  | some node => some node
  | none =>
    if isGround place || disk.nodes.any fun entry => entry.1.take place.length == place then
      some .directory
    else none

/-- The place that names lead to from a directory. -/
def follow (disk : Disk) (place : List String) : List String → Except SystemError (List String)
  | [] => .ok place
  | name :: rest =>
    match disk.at? place with
    | none => .error .notFound
    | some (.file _) => .error .notADirectory
    | some .directory =>
      if longestName < name.utf8ByteSize then .error .nameTooLong
      else disk.follow (enter place name) rest

/-- What a path leads to. -/
def find (disk : Disk) (path : String) : Except SystemError Node := do
  if '\x00' ∈ path.toList then .error .nulInPath
  else if path.isEmpty then .error .notFound
  else if longestPath < path.utf8ByteSize then .error .nameTooLong
  else
    let place ← disk.follow (startOf path) (pathNames path)
    match disk.at? place with
    | none => .error .notFound
    | some .directory => .ok .directory
    | some (.file content) => if wantsDirectory path then .error .notADirectory else .ok (.file content)

/-- The disk without what stands at a path. -/
def remove (disk : Disk) (path : String) : Disk :=
  ⟨disk.nodes.filter (·.1 != placeOf path)⟩

/-- The disk with something at a path, in place of what was there. What the path passes and was not there yet
becomes a directory. -/
def put (disk : Disk) (path : String) (node : Node) : Disk :=
  let made := (passed path).map fun place => (place, Node.directory)
  ⟨(placeOf path, node) :: (disk.remove path).nodes ++ made⟩

/-- Whether a path leads to a file. -/
def isFile (disk : Disk) (path : String) : Bool :=
  match disk.find path with
  | .ok (.file _) => true
  | _ => false

/-- The text of a file. A directory can be opened but not read. -/
def readText (disk : Disk) (path : String) : Except SystemError String := do
  match ← disk.find path with
  | .directory => .error .isADirectory
  | .file content =>
    match Text.Utf8.decode content with
    | some text => .ok (String.ofList text)
    | none => .error .notText

end Disk

end StubServer
