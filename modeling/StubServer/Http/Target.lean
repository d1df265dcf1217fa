import StubServer.Text.Cut
import StubServer.Text.Numeral
import StubServer.Text.Utf8

/-!
# Request targets

The path of a request is the part of its target before the query, with the percent escapes decoded. An
escape that is not followed by two hexadecimal digits stands for itself, and so does a plus sign. If the
decoded octets are no text, the path is taken as it was sent.
-/

namespace StubServer.Http

/-- The value of an octet that is a hexadecimal digit. -/
def hexOctet? (b : UInt8) : Option Nat :=
  Text.hexValue? (Char.ofNat b.toNat)

/-- The octet that two hexadecimal digits write. -/
def hexPair? (a b : UInt8) : Option UInt8 := do
  let high ← hexOctet? a
  let low ← hexOctet? b
  some (UInt8.ofNat (16 * high + low))

/-- The octets that a sequence with percent escapes writes. -/
def percentDecode : List UInt8 → List UInt8
  | c :: a :: b :: rest =>
    if c = 0x25 then
      match hexPair? a b with
      | some octet => octet :: percentDecode rest
      | none => c :: percentDecode (a :: b :: rest)
    else c :: percentDecode (a :: b :: rest)
  | short => short

/-- The path, without query and fragment, of a target that is a path or has one after a scheme and a host.
-/
def rawPath? (target : List Char) : Option (List Char) :=
  let endsPath (c : Char) : Bool := c == '?' || c == '#'
  match target with
  | '/' :: _ => some (target.takeWhile (!endsPath ·))
  | _ =>
    match Text.cut ':' target with
    | some (_, rest) =>
      match Text.after? ['/', '/'] rest with
      | some rest =>
        match (rest.dropWhile fun c => !(c == '/' || endsPath c)).takeWhile (!endsPath ·) with
        | [] => some ['/']
        | path => some path
      | none => none
    | none => none

/-- A raw path with its escapes decoded. -/
def decodePath (raw : List Char) : List Char :=
  (Text.Utf8.decode (percentDecode (Text.Utf8.encode raw))).getD raw

end StubServer.Http
