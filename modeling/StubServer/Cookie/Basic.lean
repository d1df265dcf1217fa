import StubServer.Time.Instant

/-!
# Cookies

A cookie that a response sets, with its attributes as they were configured. `lineParts` gives the parts of
its `Set-Cookie` line in their fixed order: first the name with the value, then every attribute that has
something to say. The texts stand in the line as they are, without escaping.
-/

namespace StubServer

inductive SameSite
  | lax
  | strict
  | none
  deriving DecidableEq, Repr

namespace SameSite

/-- The policy of a given word, in any mix of cases. -/
def ofText? (s : String) : Option SameSite :=
  let word := s.toList.map Char.toLower
  if word = "lax".toList then some lax
  else if word = "strict".toList then some strict
  else if word = "none".toList then some none
  else .none

/-- The word of a policy in a `Set-Cookie` line. -/
def text : SameSite → String
  | lax => "Lax"
  | strict => "Strict"
  | none => "None"

end SameSite

structure Cookie where
  name : String
  value : String := ""
  path : Option String := none
  domain : Option String := none
  expires : Option Time.Instant := none
  rawExpires : Option String := none
  maxAge : Option Int := none
  secure : Bool := false
  httpOnly : Bool := false
  partitioned : Bool := false
  sameSite : Option SameSite := none
  deriving DecidableEq, Repr

namespace Cookie

/-- A value with a space or a comma stands between quotes. -/
def needsQuotes (value : String) : Bool :=
  value.toList.any fun c => c == ' ' || c == ','

/-- The name and the value. -/
def pair (c : Cookie) : String :=
  if needsQuotes c.value then c.name ++ "=\"" ++ c.value ++ "\"" else c.name ++ "=" ++ c.value

/-- The path, unless it is empty. -/
def pathPart (c : Cookie) : Option String :=
  match c.path with
  | some path => if path.isEmpty then none else some ("Path=" ++ path)
  | none => none

/-- A domain without one leading point. -/
def bareDomain (domain : String) : String :=
  match domain.toList with
  | '.' :: rest => String.ofList rest
  | _ => domain

/-- The domain, unless nothing is left of it. -/
def domainPart (c : Cookie) : Option String :=
  match c.domain with
  | some domain =>
    let bare := bareDomain domain
    if bare.isEmpty then none else some ("Domain=" ++ bare)
  | none => none

/-- The first year whose dates a cookie can carry. -/
def firstExpiryYear : Int := 1601

/-- The date of expiry, unless it lies before the dates that a cookie can carry. -/
def expiresPart (c : Cookie) : Option String :=
  match c.expires with
  | some t => if firstExpiryYear ≤ t.year then some ("Expires=" ++ t.httpDate) else none
  | none => none

/-- The lifetime in seconds: none of it is left for a negative one, and zero says nothing. -/
def maxAgePart (c : Cookie) : Option String :=
  match c.maxAge with
  | some age =>
    if 0 < age then some ("Max-Age=" ++ toString age.toNat)
    else if age < 0 then some "Max-Age=0"
    else none
  | none => none

/-- A flag that is written when it is set. -/
def flagPart (name : String) (isSet : Bool) : Option String :=
  if isSet then some name else none

/-- The attributes that have something to say, in their order in the line. -/
def attributeParts (c : Cookie) : List String :=
  [c.pathPart, c.domainPart, c.expiresPart, c.maxAgePart, flagPart "HttpOnly" c.httpOnly,
    flagPart "Secure" c.secure, c.sameSite.map ("SameSite=" ++ ·.text),
    flagPart "Partitioned" c.partitioned].filterMap id

/-- The parts of the `Set-Cookie` line. -/
def lineParts (c : Cookie) : List String :=
  c.pair :: c.attributeParts

/-- The value of the `Set-Cookie` header. -/
def line (c : Cookie) : String :=
  "; ".intercalate c.lineParts

end Cookie

end StubServer
