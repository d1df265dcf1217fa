import StubServer.Text.Cut
import StubServer.Text.Numeral

/-!
# Socket addresses

An address of the Internet protocol, version 4 or 6, with a port. Reading goes from the front of the text
and hands on the rest. An octet of version 4 has no leading zeros; a group of version 6 has at most four
digits; `::` stands for one group of zeros or more; the last two groups may be written as version 4; and the
scope of a version 6 address may follow a percent sign. Writing shortens the longest run of zero groups, the
first if several are longest, and shows a version 4 address inside version 6 as such.
-/

namespace StubServer.Net

open Text

inductive Ip
  | v4 (a b c d : UInt8)
  | v6 (groups : Vector UInt16 8)
  deriving DecidableEq, Repr

structure Address where
  ip : Ip
  scope : Nat := 0
  port : Nat
  deriving DecidableEq, Repr

/-! ## Reading -/

/-- A digit of a base of at most sixteen. -/
def isDigitOf (base : Nat) (c : Char) : Bool :=
  (hexValue? c).any (· < base)

/-- A number in a base, from as many digits as there are: at most `most` of them if that is given, and less
than `bound`. -/
def number? (base : Nat) (most : Option Nat) (bound : Nat) (cs : List Char) : Option (Nat × List Char) :=
  let ds := cs.takeWhile (isDigitOf base)
  let n := positional base (ds.filterMap hexValue?)
  if ds.isEmpty || most.any (· < ds.length) || bound ≤ n then none
  else some (n, cs.dropWhile (isDigitOf base))

/-- An octet in decimal, without leading zeros. -/
def octet? (cs : List Char) : Option (UInt8 × List Char) :=
  match number? 10 (some 3) 256 cs with
  | none => none
  | some (n, rest) =>
    if cs.head? = some '0' ∧ cs.length ≠ rest.length + 1 then none else some (UInt8.ofNat n, rest)

/-- Four octets with points between them. -/
def quad? (cs : List Char) : Option ((UInt8 × UInt8 × UInt8 × UInt8) × List Char) := do
  let (a, cs) ← octet? cs
  let (b, cs) ← octet? (← after? ['.'] cs)
  let (c, cs) ← octet? (← after? ['.'] cs)
  let (d, cs) ← octet? (← after? ['.'] cs)
  some ((a, b, c, d), cs)

/-- The group that two octets make. -/
def groupOf (high low : UInt8) : UInt16 :=
  high.toUInt16 * 256 + low.toUInt16

/-- As many groups as there are, up to a limit, with colons between them. Four octets can take the place of
the last two groups; then nothing more is read, and the answer says so. -/
def groups (isFirst : Bool) (limit : Nat) (cs : List Char) : List UInt16 × Bool × List Char :=
  match limit with
  | 0 => ([], false, cs)
  | limit + 1 =>
    match if isFirst then some cs else after? [':'] cs with
    | none => ([], false, cs)
    | some body =>
      match if limit = 0 then none else quad? body with
      | some ((a, b, c, d), rest) => ([groupOf a b, groupOf c d], true, rest)
      | none =>
        match number? 16 (some 4) 65536 body with
        | none => ([], false, cs)
        | some (n, rest) =>
          let (more, ended, rest) := groups false limit rest
          (UInt16.ofNat n :: more, ended, rest)

/-- The address of eight groups; missing ones are zero. -/
def ofGroups (gs : List UInt16) : Ip :=
  .v6 (Vector.ofFn fun i => gs[i.val]?.getD 0)

/-- An address of version 6. -/
def ipv6? (cs : List Char) : Option (Ip × List Char) :=
  let (front, ended, rest) := groups true 8 cs
  if front.length = 8 then some (ofGroups front, rest)
  else if ended then none
  else
    match rest with
    | ':' :: ':' :: rest =>
      let (back, _, rest) := groups true (7 - front.length) rest
      let zeros := List.replicate (8 - front.length - back.length) 0
      some (ofGroups (front ++ zeros ++ back), rest)
    | _ => none

/-- A port after a colon, up to the end of the text. -/
def port? (cs : List Char) : Option Nat := do
  match ← number? 10 none 65536 (← after? [':'] cs) with
  | (n, []) => some n
  | _ => none

/-- A scope after a percent sign, if there is one. -/
def readScope (cs : List Char) : Nat × List Char :=
  match cs with
  | '%' :: rest => (number? 10 none (wordSize 32) rest).getD (0, cs)
  | _ => (0, cs)

namespace Address

/-- The address that a text writes in full, version 4 or version 6 in brackets, with a port. -/
def ofText? (cs : List Char) : Option Address :=
  match quad? cs with
  | some ((a, b, c, d), rest) => (port? rest).map fun port => { ip := .v4 a b c d, port }
  | none => do
    let (ip, rest) ← ipv6? (← after? ['['] cs)
    let (scope, rest) := readScope rest
    let port ← port? (← after? [']'] rest)
    some { ip, scope, port }

/-- The address on which to listen. Without a host it means all interfaces, and `localhost` means the
loopback interface; any other host must be written in full. -/
def toListen? (listen : String) : Option Address :=
  match after? [':'] listen.toList with
  | some port => (word? 16 port).map fun port => { ip := .v4 0 0 0 0, port }
  | none =>
    match after? "localhost:".toList listen.toList with
    | some port => (word? 16 port).map fun port => { ip := .v4 127 0 0 1, port }
    | none => ofText? listen.toList

end Address

/-! ## Writing -/

/-- A group in hexadecimal without leading zeros. -/
def groupText (g : UInt16) : String :=
  String.ofList (Nat.toDigits 16 g.toNat)

/-- Groups with colons between them. -/
def groupsText (gs : List UInt16) : String :=
  ":".intercalate (gs.map groupText)

/-- The number of zero groups at the front. -/
def zeroRun (gs : List UInt16) : Nat :=
  (gs.takeWhile (· == 0)).length

/-- The place and length of the longest run of zero groups; the first of several. -/
def longestRun : List UInt16 → Nat × Nat
  | [] => (0, 0)
  | g :: rest =>
    let (place, length) := longestRun rest
    let here := zeroRun (g :: rest)
    if length ≤ here then (0, here) else (place + 1, length)

/-- Four octets with points between them. -/
def quadText (a b c d : UInt8) : String :=
  s!"{a}.{b}.{c}.{d}"

/-- The high and the low octet of a group. -/
def octetsOf (g : UInt16) : UInt8 × UInt8 :=
  ((g / 256).toUInt8, g.toUInt8)

namespace Ip

/-- The text of an address without port. -/
def text : Ip → String
  | v4 a b c d => quadText a b c d
  | v6 groups =>
    match groups.toList with
    | [0, 0, 0, 0, 0, 0xFFFF, g, h] =>
      "::ffff:" ++ quadText (octetsOf g).1 (octetsOf g).2 (octetsOf h).1 (octetsOf h).2
    | gs =>
      let (place, length) := longestRun gs
      if 1 < length then groupsText (gs.take place) ++ "::" ++ groupsText (gs.drop (place + length))
      else groupsText gs

/-- Whether an address is of version 6. -/
def isV6 : Ip → Bool
  | v4 .. => false
  | v6 _ => true

end Ip

namespace Address

/-- The text of an address; version 6 stands in brackets. -/
def text (address : Address) : String :=
  let ip := address.ip.text
  if address.ip.isV6 then
    let scope := if address.scope = 0 then "" else s!"%{address.scope}"
    s!"[{ip}{scope}]:{address.port}"
  else s!"{ip}:{address.port}"

end Address

end StubServer.Net
