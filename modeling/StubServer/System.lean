/-!
# What the system refuses

The few ways in which opening, reading or binding can fail. An error has a number and a kind, given by
the system, except the last two, which never reach it: a path with a NUL in it is not passed on, and the
octets of a text file turn out not to be UTF-8.
-/

namespace StubServer

inductive SystemError
  | notFound
  | notADirectory
  | isADirectory
  | nameTooLong
  | permissionDenied
  | addressNotAvailable
  | nulInPath
  | notText
  deriving DecidableEq, Repr

namespace SystemError

/-- The system's own wording. -/
def description : SystemError → String
  | notFound => "No such file or directory"
  | notADirectory => "Not a directory"
  | isADirectory => "Is a directory"
  | nameTooLong => "File name too long"
  | permissionDenied => "Permission denied"
  | addressNotAvailable => "Cannot assign requested address"
  | nulInPath => "file name contained an unexpected NUL byte"
  | notText => "stream did not contain valid UTF-8"

/-- The number of an error that the system reports. -/
def code? : SystemError → Option Nat
  | notFound => some 2
  | notADirectory => some 20
  | isADirectory => some 21
  | nameTooLong => some 36
  | permissionDenied => some 13
  | addressNotAvailable => some 99
  | nulInPath => none
  | notText => none

/-- The kind of an error, in one word. -/
def kind : SystemError → String
  | notFound => "NotFound"
  | notADirectory => "NotADirectory"
  | isADirectory => "IsADirectory"
  | nameTooLong => "InvalidFilename"
  | permissionDenied => "PermissionDenied"
  | addressNotAvailable => "AddrNotAvailable"
  | nulInPath => "InvalidInput"
  | notText => "InvalidData"

/-- The error in a message to the user. -/
def message (e : SystemError) : String :=
  match e.code? with
  | some code => s!"{e.description} (os error {code})"
  | none => e.description

end SystemError

end StubServer
