import StubServer.Behavior.Basic
import StubServer.BehaviorFile.Section
import StubServer.Cookie.Cursor
import StubServer.Duration
import StubServer.Http.Header
import StubServer.Time.Timestamp

/-!
# What a property does

A property is understood in two steps. First its name and value are read to an `Edit`, a change with all
its values checked; nothing in this step depends on the other properties. Then the edit is applied to the
`Draft` of a behavior. Only the attributes of a cookie need something that came before: a cookie must have
been opened in the same section, and the lack of one is reported before anything about the value.
-/

namespace StubServer

open BehaviorFile (Property)

/-! ## Names -/

inductive CookieAttribute
  | value
  | path
  | domain
  | expires
  | rawExpires
  | maxAge
  | secure
  | httpOnly
  | partitioned
  | sameSite
  deriving DecidableEq, Repr

/-- What a property is about, according to its name. -/
inductive PropertyKey
  | status
  | body
  | delay
  | header
  | redirect
  | stream
  | repetitions
  | cookieName
  | cookie (attr : Option CookieAttribute)
  | unknown
  deriving DecidableEq, Repr

/-- The attribute that the second half of a cookie property's name means. -/
def CookieAttribute.ofText? : String → Option CookieAttribute
  | "value" => some value
  | "path" => some path
  | "domain" => some domain
  | "expires" => some expires
  | "raw_expires" => some rawExpires
  | "max_age" => some maxAge
  | "secure" => some secure
  | "http_only" => some httpOnly
  | "partitioned" => some partitioned
  | "same_site" => some sameSite
  | _ => none

/-- The meaning of a property's name. -/
def PropertyKey.ofText (name : String) : PropertyKey :=
  match name with
  | "status_code" => status
  | "body" => body
  | "delay" => delay
  | "header" => header
  | "redirect" => redirect
  | "stream" => stream
  | "repeat" => repetitions
  | "cookie.name" => cookieName
  | _ =>
    match Text.after? "cookie.".toList name.toList with
    | some attr => cookie (CookieAttribute.ofText? (String.ofList attr))
    | none => unknown

/-! ## Faults -/

inductive PropertyFault
  | status
  | delay
  | headerForm
  | headerEmpty
  | headerName (name : String)
  | headerValue (name : String)
  | redirect
  | repetitions
  | noOpenCookie
  | expires
  | rawExpires
  | maxAge
  | sameSite
  | unknownCookieProperty (name : String)
  | unknownProperty (name : String)
  /-- Not a refusal: the program stops while it reads the value. What becomes of a service then is not
  followed any further, so here it counts as a fault like the others. -/
  | crash
  deriving DecidableEq, Repr

/-- The wording of a fault. -/
def PropertyFault.message : PropertyFault → String
  | status => "Invalid status code, must be an integer between 100 and 599"
  | delay => "Invalid delay, must be a non-negative duration"
  | headerForm => "Invalid header format, expected 'Key: Value'"
  | headerEmpty => "Header key and value cannot be empty"
  | headerName name => s!"Invalid header name: {name}"
  | headerValue name => s!"Invalid header value for {name}"
  | redirect => "Invalid redirect target"
  | repetitions => "Invalid repeat value, must be a non-negative integer"
  | noOpenCookie => "cookie.name must be set before other cookie properties"
  | expires => "Invalid cookie.expires duration"
  | rawExpires => "Invalid cookie.raw_expires RFC3339 time"
  | maxAge => "Invalid cookie.max_age integer"
  | sameSite => "Invalid cookie.same_site value"
  | unknownCookieProperty name => s!"Unknown cookie property: {name}"
  | unknownProperty name => s!"Unknown property: {name}"
  | crash => "attempt to add with overflow"

/-! ## Edits -/

/-- A change to the open cookie. -/
inductive CookieEdit
  | value (text : String)
  | path (text : String)
  | domain (text : String)
  | expires (time : Time.Instant)
  | rawExpires (text : String) (time : Time.Instant)
  | maxAge (seconds : Int)
  | secure (flag : Bool)
  | httpOnly (flag : Bool)
  | partitioned (flag : Bool)
  | sameSite (policy : SameSite)
  deriving DecidableEq, Repr

/-- A change to a behavior. -/
inductive Edit
  | status (code : Nat)
  | body (text : String)
  | delay (nanos : Nat)
  | header (name value : String)
  | redirect (target : String)
  | stream (flag : Bool)
  | repetitions (count : Nat)
  | openCookie (name : String)
  | cookie (edit : CookieEdit)
  deriving DecidableEq, Repr

/-- A flag is set by the word `true` in any mix of cases and by nothing else. -/
def isTrue (value : String) : Bool :=
  value.toList.map Char.toLower == "true".toList

/-- The status code that a value writes. -/
def statusCode? (value : String) : Option Nat :=
  ((Text.int64? value.toList).filter fun n => 100 ≤ n && n ≤ 599).map Int.toNat

/-- The waiting time that a value writes, in nanoseconds. -/
def waitingTime? (value : String) : Option Nat :=
  match Duration.parse value.toList with
  | .ok nanos => if 0 ≤ nanos then some nanos.toNat else none
  | .error _ => none

/-- The header field that a value writes: a name and a text around the first colon. -/
def headerField (value : String) : Except PropertyFault (String × String) :=
  match Text.cut ':' value.toList with
  | none => .error .headerForm
  | some (key, text) =>
    let key := BehaviorFile.kept key
    let text := BehaviorFile.kept text
    if key.isEmpty || text.isEmpty then .error .headerEmpty
    else
      match Http.fieldName? key with
      | none => .error (.headerName key)
      | some name => if Http.isFieldValue text then .ok (name, text) else .error (.headerValue key)

/-- The repetition count that a value writes. -/
def repetitionCount? (value : String) : Option Nat :=
  ((Text.int64? value.toList).filter (0 ≤ ·)).map Int.toNat

/-- The time of expiry that a value writes, as a duration from now. -/
def expiry? (now : Time.Instant) (value : String) : Option Time.Instant :=
  match Duration.parse value.toList with
  | .ok nanos => now.add? nanos
  | .error _ => none

/-- The fault of a value without a duration: the given one, unless the program stops at it. -/
def durationFault (refusal : PropertyFault) (value : String) : PropertyFault :=
  match Duration.parse value.toList with
  | .error .crash => .crash
  | _ => refusal

/-- A value that was read, or the fault of one that could not be. -/
def orFault {α : Type} (fault : PropertyFault) : Option α → Except PropertyFault α
  | some a => .ok a
  | none => .error fault

/-- The change to the open cookie that an attribute and its value mean. -/
def CookieEdit.read (now : Time.Instant) (attr : CookieAttribute) (value : String) :
    Except PropertyFault CookieEdit :=
  match attr with
  | .value => .ok (.value value)
  | .path => .ok (.path value)
  | .domain => .ok (.domain value)
  | .expires => orFault (durationFault .expires value) ((expiry? now value).map .expires)
  | .rawExpires => orFault .rawExpires ((Time.Timestamp.parse? value.toList).map (.rawExpires value))
  | .maxAge => orFault .maxAge ((Text.int64? value.toList).map .maxAge)
  | .secure => .ok (.secure (isTrue value))
  | .httpOnly => .ok (.httpOnly (isTrue value))
  | .partitioned => .ok (.partitioned (isTrue value))
  | .sameSite => orFault .sameSite ((SameSite.ofText? value).map .sameSite)

/-- The change that a property means; `hasCookie` tells whether a cookie is open. -/
def Edit.read (now : Time.Instant) (hasCookie : Bool) (p : Property) : Except PropertyFault Edit :=
  match PropertyKey.ofText p.name with
  | .status => orFault .status ((statusCode? p.value).map .status)
  | .body => .ok (.body p.value)
  | .delay => orFault (durationFault .delay p.value) ((waitingTime? p.value).map .delay)
  | .header => (headerField p.value).map fun field => .header field.1 field.2
  | .redirect => if Http.isFieldValue p.value then .ok (.redirect p.value) else .error .redirect
  | .stream => .ok (.stream (isTrue p.value))
  | .repetitions => orFault .repetitions ((repetitionCount? p.value).map .repetitions)
  | .cookieName => .ok (.openCookie p.value)
  | .cookie attr =>
    if !hasCookie then .error .noOpenCookie
    else
      match attr with
      | some attr => (CookieEdit.read now attr p.value).map .cookie
      | none => .error (.unknownCookieProperty p.name)
  | .unknown => .error (.unknownProperty p.name)

/-! ## Applying them -/

/-- The cookie after a change. -/
def CookieEdit.apply : CookieEdit → Cookie → Cookie
  | value text, c => { c with value := text }
  | path text, c => { c with path := some text }
  | domain text, c => { c with domain := some text }
  | expires time, c => { c with expires := some time }
  | rawExpires text time, c => { c with rawExpires := some text, expires := some time }
  | maxAge seconds, c => { c with maxAge := some seconds }
  | secure flag, c => { c with secure := flag }
  | httpOnly flag, c => { c with httpOnly := flag }
  | partitioned flag, c => { c with partitioned := flag }
  | sameSite policy, c => { c with sameSite := some policy }

/-- A behavior in the making: its response, its repetition count and the open cookie. -/
structure Draft where
  response : Response := {}
  repetitions : Option Nat := none
  cursor : Cookie.Cursor := {}
  deriving DecidableEq, Repr

/-- The draft after a change. -/
def Edit.apply : Edit → Draft → Draft
  | status code, d => { d with response := { d.response with status := some code } }
  | body text, d => { d with response := { d.response with body := some text } }
  | delay nanos, d => { d with response := { d.response with delay := some nanos } }
  | header name value, d =>
    { d with response := { d.response with headers := Response.putHeader name value d.response.headers } }
  | redirect target, d => { d with response := { d.response with redirect := some target } }
  | stream flag, d => { d with response := { d.response with stream := flag } }
  | repetitions count, d => { d with repetitions := some count }
  | openCookie name, d =>
    let (cursor, cookies) := Cookie.Cursor.openCookie d.response.cookies name
    { d with response := { d.response with cookies }, cursor }
  | cookie edit, d =>
    { d with response := { d.response with cookies := d.cursor.modify edit.apply d.response.cookies } }

/-- Whether a cookie is open. -/
def Draft.hasCookie (d : Draft) : Bool :=
  (d.cursor.current? d.response.cookies).isSome

end StubServer
