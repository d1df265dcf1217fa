import StubServer.Time.Instant

/-!
# Instants as numbers

An ordinary instant is a number of nanoseconds, and to go on from it is to add to that number:

> `advance_sinceEpoch`: an instant a number of nanoseconds later has a number that is larger by
> as many, and is ordinary again.

The two divisions in `advance` round in different directions, but each goes with its own
remainder, so neither matters. Leap seconds are left out because they have no number of their
own.
-/

namespace StubServer.Time.Instant

/-- The nanoseconds from the start of 1970 to an ordinary instant. -/
def sinceEpoch (t : Instant) : Int :=
  t.seconds * nanosPerSecond + t.nanos

variable {t later : Instant} {duration : Int}

theorem nanosPerSecond_pos : (0 : Int) < nanosPerSecond := by
  decide

theorem shift_nanos (seconds nanos : Int) :
    ((shift seconds nanos).nanos : Int) = nanos.fmod nanosPerSecond :=
  Int.toNat_of_nonneg (Int.fmod_nonneg_of_pos _ nanosPerSecond_pos)

theorem shift_sinceEpoch (seconds nanos : Int) :
    (shift seconds nanos).sinceEpoch = seconds * nanosPerSecond + nanos := by
  unfold sinceEpoch
  rw [shift_nanos]
  show (seconds + nanos.fdiv nanosPerSecond) * nanosPerSecond + _ = _
  rw [Int.add_mul, Int.add_assoc, Int.fdiv_mul_add_fmod]

theorem shift_isLeap (seconds nanos : Int) : (shift seconds nanos).isLeap = false := by
  have hlt := Int.fmod_lt_of_pos nanos nanosPerSecond_pos
  rw [← shift_nanos seconds] at hlt
  exact decide_eq_false (Nat.not_le.mpr (Int.ofNat_lt.mp hlt))

/-- To advance an ordinary instant is to add to its number. -/
theorem advance_sinceEpoch (h : t.isLeap = false) (duration : Int) :
    (t.advance duration).isLeap = false ∧
      (t.advance duration).sinceEpoch = t.sinceEpoch + duration := by
  have hparts := Int.tdiv_mul_add_tmod duration nanosPerSecond
  have hstep : t.advance duration = shift (t.seconds + duration.tdiv nanosPerSecond)
      (t.nanos + duration.tmod nanosPerSecond) := by
    unfold advance
    rw [h]
    rfl
  rw [hstep]
  refine ⟨shift_isLeap _ _, ?_⟩
  rw [shift_sinceEpoch, Int.add_mul]
  unfold sinceEpoch
  omega

/-- There is an instant some time later as long as it lies in the years that have instants. -/
theorem add?_eq_some :
    t.add? duration = some later ↔ (t.advance duration).InRange ∧ t.advance duration = later := by
  unfold add?
  rw [Option.ite_none_right_eq_some, Option.some.injEq]

theorem add?_eq_none : t.add? duration = none ↔ ¬(t.advance duration).InRange := by
  unfold add?
  simp

end StubServer.Time.Instant
