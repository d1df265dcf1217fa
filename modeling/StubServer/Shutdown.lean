/-!
# The shutdown signal

One channel tells every part of the program to stop. It keeps only the newest signal: a receiver that fell
behind is told how many it missed and then gets the newest. A signal that is sent while nobody listens is
lost, and a receiver sees no signal from before it subscribed.

A receiver is the number of the next signal that it will look at, counted over all signals that were sent;
one that was dropped leaves an empty place, so the others keep theirs.
-/

namespace StubServer

structure Shutdown where
  sent : Nat := 0
  receivers : List (Option Nat) := []
  deriving DecidableEq, Repr

/-- What a receiver finds. -/
inductive Receipt
  | signal
  | empty
  | lagged (missed : Nat)
  deriving DecidableEq, Repr

/-- The wording of a receipt. -/
def Receipt.text : Receipt → String
  | signal => "signal"
  | empty => "empty"
  | lagged missed => s!"lagged {missed}"

namespace Shutdown

/-- The number of receivers that were not dropped. -/
def receiverCount (s : Shutdown) : Nat :=
  (s.receivers.filter Option.isSome).length

/-- The position of a receiver that was not dropped. -/
def position? (s : Shutdown) (i : Nat) : Option Nat :=
  s.receivers[i]?.join

/-- A new receiver and the place that it got. -/
def subscribe (s : Shutdown) : Nat × Shutdown :=
  (s.receivers.length, { s with receivers := s.receivers ++ [some s.sent] })

/-- Sends a signal to everyone who listens. -/
def trigger (s : Shutdown) : Shutdown :=
  if s.receiverCount = 0 then s else { s with sent := s.sent + 1 }

/-- Drops a receiver, and tells whether there was one. -/
def drop (s : Shutdown) (i : Nat) : Bool × Shutdown :=
  ((s.position? i).isSome, { s with receivers := s.receivers.set i none })

/-- What a receiver at a position finds after some signals, and its position afterwards. -/
def receipt (sent position : Nat) : Receipt × Nat :=
  if sent ≤ position then (.empty, position)
  else if sent = position + 1 then (.signal, sent)
  else (.lagged (sent - position - 1), sent - 1)

/-- Lets a receiver look for a signal; nothing comes of it if there is no such receiver. -/
def receive (s : Shutdown) (i : Nat) : Option Receipt × Shutdown :=
  match s.position? i with
  | none => (none, s)
  | some position =>
    let (found, next) := receipt s.sent position
    (some found, { s with receivers := s.receivers.set i (some next) })

end Shutdown

end StubServer
