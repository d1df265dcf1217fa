/-!
# Metrics

Counters that only grow, and one gauge: the number of behaviors that can still answer, once a set has been
published. A counter that was never raised is not listed.
-/

namespace StubServer

inductive Counter
  | request (method : String) (status : Nat) (matched : Bool)
  | timed (matched : Bool)
  | reload (success : Bool)
  | exhausted
  deriving DecidableEq, Repr

namespace Counter

/-- Where the answer to a request came from. -/
def outcome (matched : Bool) : String :=
  if matched then "matched" else "fallback"

/-- The name of a counter with its labels in alphabetical order. -/
def name : Counter → String
  | request method status matched =>
    s!"mock_requests_total\x7bmethod=\"{method}\",outcome=\"{outcome matched}\",status=\"{status}\"\x7d"
  | timed matched => s!"mock_request_duration_seconds_count\x7boutcome=\"{outcome matched}\"\x7d"
  | reload success =>
    let result := if success then "success" else "failure"
    s!"mock_reloads_total\x7bresult=\"{result}\"\x7d"
  | exhausted => "mock_behaviors_exhausted_total\x7b\x7d"

end Counter

structure Metrics where
  counts : List (Counter × Nat) := []
  active : Option Nat := none
  deriving DecidableEq, Repr

namespace Metrics

/-- The value of a counter. -/
def count (m : Metrics) (c : Counter) : Nat :=
  (m.counts.lookup c).getD 0

/-- A table of counters with one of them raised. -/
def raise (c : Counter) : List (Counter × Nat) → List (Counter × Nat)
  | [] => [(c, 1)]
  | (d, n) :: rest => if c = d then (d, n + 1) :: rest else (d, n) :: raise c rest

/-- The metrics after one more occurrence. -/
def bump (m : Metrics) (c : Counter) : Metrics :=
  { m with counts := raise c m.counts }

/-- The metrics with a new reading of the gauge. -/
def setActive (m : Metrics) (n : Nat) : Metrics :=
  { m with active := some n }

/-- Every metric that was touched, by name. -/
def listing (m : Metrics) : List (String × Nat) :=
  m.counts.map (fun entry => (entry.1.name, entry.2)) ++
    (m.active.map fun n => ("mock_active_behaviors\x7b\x7d", n)).toList

theorem lookup_raise (c d : Counter) (table : List (Counter × Nat)) :
    ((raise c table).lookup d).getD 0 = (table.lookup d).getD 0 + if d = c then 1 else 0 := by
  induction table with
  | nil => by_cases h : d = c <;> simp [raise, List.lookup_cons, h, beq_eq_false_iff_ne.2]
  | cons entry rest ih =>
    obtain ⟨e, n⟩ := entry
    by_cases h : c = e
    · subst h
      by_cases hd : d = c <;> simp [raise, List.lookup_cons, hd, beq_eq_false_iff_ne.2]
    · by_cases hd : d = e
      · subst hd
        simp [raise, h, Ne.symm h]
      · simpa [raise, List.lookup_cons, h, hd, beq_eq_false_iff_ne.2] using ih

/-- Raising a counter changes no other. -/
theorem count_bump (m : Metrics) (c d : Counter) :
    (m.bump c).count d = m.count d + if d = c then 1 else 0 :=
  lookup_raise c d m.counts

end Metrics

end StubServer
