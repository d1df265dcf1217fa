/-!
# Repetition budgets

How often a behavior may still answer. The request that takes the last unit is told so, because it is the
one that removes the behavior; a budget that is spent grants nothing more.
-/

namespace StubServer

inductive Budget
  | unlimited
  | left (count : Nat)
  deriving DecidableEq, Repr

/-- The outcome of asking a budget for one unit. -/
inductive Grant
  | unlimited
  | granted (remaining : Nat)
  | last
  | exhausted
  deriving DecidableEq, Repr

/-- Whether the request may be answered. -/
def Grant.isGranted : Grant → Bool
  | exhausted => false
  | _ => true

namespace Budget

/-- The budget of a repetition count. -/
def ofCount : Option Nat → Budget
  | none => unlimited
  | some n => left n

/-- The units that are left; `none` without a limit. -/
def remaining : Budget → Option Nat
  | unlimited => none
  | left n => some n

/-- Takes one unit, if there is one. -/
def acquire : Budget → Grant × Budget
  | unlimited => (.unlimited, unlimited)
  | left 0 => (.exhausted, left 0)
  | left 1 => (.last, left 0)
  | left (n + 2) => (.granted (n + 1), left (n + 1))

@[simp] theorem remaining_ofCount (count : Option Nat) : (ofCount count).remaining = count := by
  cases count <;> rfl

theorem isGranted_acquire (b : Budget) : b.acquire.1.isGranted = true ↔ b.remaining ≠ some 0 := by
  rcases b with _ | _ | _ | n <;> simp [acquire, Grant.isGranted, remaining]

end Budget

end StubServer
