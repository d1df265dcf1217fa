import StubServer.Cookie.Basic

/-!
# The open cookie

Properties of a cookie follow its name, one by one. The cursor remembers the place in the list of the
cookie that was opened last, and changes go to whatever cookie stands at that place; to none, if the list
has become too short.
-/

namespace StubServer.Cookie

structure Cursor where
  place : Option Nat := none
  deriving DecidableEq, Repr

namespace Cursor

/-- A new cookie at the end of the list, and the cursor on it. -/
def openCookie (cookies : List Cookie) (name : String) : Cursor × List Cookie :=
  (⟨some cookies.length⟩, cookies ++ [{ name := name }])

/-- The cookie that the cursor is on. -/
def current? (cursor : Cursor) (cookies : List Cookie) : Option Cookie :=
  cursor.place.bind (cookies[·]?)

/-- The cookies after a change to the one that the cursor is on. -/
def modify (cursor : Cursor) (change : Cookie → Cookie) (cookies : List Cookie) : List Cookie :=
  match cursor.place with
  | some place => cookies.modify place change
  | none => cookies

end Cursor

end StubServer.Cookie
