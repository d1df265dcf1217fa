import StubServer.CommandLine.Program

/-!
# Running the programs

The first argument names the program, the server or the inspector, and the others are its command line.
All files that an argument can mean are read beforehand; the rest is decided by the two programs. The report
on a file shows no time of expiry, so the file is compiled at the epoch.
-/

namespace StubServer.Main

open CommandLine

/-- The paths that an argument can mean: the argument, the value of a long option, that of a letter. -/
def candidates (argument : String) : List String :=
  let cs := argument.toList
  [argument, String.ofList ((cs.dropWhile (· != '=')).drop 1), String.ofList (cs.drop 2)]

/-- The number of the error of the system when a directory is read. -/
def directoryRead : UInt32 := 21

/-- What stands at a path. -/
def look (path : String) : IO (Option Node) := do
  try
    let content ← IO.FS.readBinFile path
    return some (.file content.toList)
  catch
    | .inappropriateType _ code _ => return if code = directoryRead then some .directory else none
    | _ => return none

/-- The files that arguments can mean, and what is on the way to them. -/
def readDisk (arguments : List String) : IO Disk := do
  let mut disk : Disk := {}
  for path in arguments.flatMap candidates do
    for place in ((pathStarts path).map ("/".intercalate ·)) ++ [path] do
      match ← look place with
      | some node => disk := disk.put place node
      | none => pure ()
  return disk

/-- Prints what a program leaves behind. -/
def finish (exit : Exit) : IO UInt32 := do
  (← IO.getStdout).putStr exit.output
  (← IO.getStderr).putStr exit.errors
  return UInt32.ofNat exit.code

end StubServer.Main

open StubServer StubServer.CommandLine in
def main (arguments : List String) : IO UInt32 := do
  let host : Host := { disk := ← Main.readDisk arguments, bind := bindLocally }
  match arguments with
  | "mockserve" :: rest =>
    match serve host rest with
    | .error exit => Main.finish exit
    | .ok ready =>
      Main.finish { code := 1, errors := "no sockets to listen on " ++ ready.address.text ++ "\n" }
  | "mockserve-cli" :: rest =>
    match inspect host .epoch rest with
    | .ended exit => Main.finish exit
    | .fetch url => Main.finish { code := 1, errors := "no sockets to fetch " ++ url ++ "\n" }
  | _ => Main.finish { code := 2, errors := "Usage: mockserve|mockserve-cli ARGUMENTS\n" }
