import Mathlib.Data.List.Basic
import StubServer.Dispatch.Budget

/-!
# The countdown of a budget

A budget of `n` units grants the first `n` requests and tells the `n`-th that it was the
last; that one request takes the behavior away, so it matters that there is exactly one.
`due` says what each call of a sequence gets, from the number of requests before it alone.
The invariant is that a budget of `n` after `k` requests is the budget of `n - k`
(`call_left`), and the answers and their numbers follow by induction over the calls.

The budget counts with natural numbers, where nothing can go wrong at zero. A counter that is
kept in a word of 64 bits wraps there. `acquireWord` takes a unit from such a word: it reads
the word, refuses at zero, and otherwise exchanges what it read for one less, again and again
until the exchange goes through.

> `run_word`: on words and on budgets every sequence of calls gets the same answers, and the
> word holds what is left of the budget.
-/

namespace StubServer.Budget

/-! ## Calls -/

/-- What can be asked of a budget. A request for a unit may have to be tried again, a number
of times, before its exchange goes through. -/
inductive Call
  | acquire (retries : Nat)
  | remaining
  deriving DecidableEq, Repr

inductive Answer
  | grant (outcome : Grant)
  | remaining (count : Option Nat)
  deriving DecidableEq, Repr

namespace Call

/-- The units that a call asks for. -/
def units : Call → Nat
  | acquire _ => 1
  | remaining => 0

/-- The units that a sequence of calls asks for. -/
def unitsOf : List Call → Nat
  | [] => 0
  | call :: rest => call.units + unitsOf rest

end Call

/-- Whether an answer grants a unit. -/
def Answer.isGranted : Answer → Bool
  | grant outcome => outcome.isGranted
  | remaining _ => false

/-- The answer of a budget to a call, and the budget afterwards. -/
def call (b : Budget) : Call → Answer × Budget
  | .acquire _ => (.grant b.acquire.1, b.acquire.2)
  | .remaining => (.remaining b.remaining, b)

/-- The answers to a sequence of calls, and what is there afterwards. -/
def run {σ : Type} (answer : σ → Call → Answer × σ) : σ → List Call → List Answer × σ
  | s, [] => ([], s)
  | s, call :: rest =>
    ((answer s call).1 :: (run answer (answer s call).2 rest).1,
      (run answer (answer s call).2 rest).2)

/-! ## What is due -/

/-- What is left of `n` units after `k` requests: the difference, and never less than zero. -/
def unitsLeft (n k : Nat) : Nat :=
  (max ((n : Int) - k) 0).toNat

/-- What the `k`-th request gets out of `n` units, counted from one. -/
def grantOf (n k : Nat) : Grant :=
  if k < n then .granted (n - k) else if k = n then .last else .exhausted

/-- What a budget of `n` units owes to a call after `k` requests. -/
def due (n k : Nat) : Call → Answer
  | .acquire _ => .grant (grantOf n (k + 1))
  | .remaining => .remaining (some (unitsLeft n k))

/-- As many requests are granted as there are units. -/
theorem isGranted_grantOf (n k : Nat) : (grantOf n (k + 1)).isGranted = decide (k < n) := by
  unfold grantOf
  rcases Nat.lt_trichotomy (k + 1) n with hmore | hlast | hnone
  · rw [if_pos hmore]
    exact (decide_eq_true (by omega)).symm
  · rw [if_neg (by omega), if_pos hlast]
    exact (decide_eq_true (by omega)).symm
  · rw [if_neg (by omega), if_neg (by omega)]
    exact (decide_eq_false (by omega)).symm

theorem grantOf_eq_last_iff (n k : Nat) : grantOf n k = .last ↔ k = n := by
  unfold grantOf
  rcases Nat.lt_trichotomy k n with hmore | hlast | hnone
  · rw [if_pos hmore]
    simp only [reduceCtorEq, false_iff]
    omega
  · rw [if_neg (by omega), if_pos hlast]
    simp only [hlast]
  · rw [if_neg (by omega), if_neg (by omega)]
    simp only [reduceCtorEq, false_iff]
    omega

theorem unitsLeft_eq (n k : Nat) : unitsLeft n k = n - k := by
  unfold unitsLeft
  omega

/-- After `k` requests a budget of `n` units is one of `n - k`. -/
theorem call_left (n k : Nat) (c : Call) :
    (left (n - k)).call c = (due n k c, left (n - (k + c.units))) := by
  cases c with
  | remaining =>
    show (Answer.remaining (some (n - k)), left (n - k)) = _
    rw [due, unitsLeft_eq]
    rfl
  | acquire retries =>
    unfold call due grantOf Call.units
    -- more than one unit is left, or just one, or none
    rcases Nat.lt_trichotomy (k + 1) n with hmore | hlast | hnone
    · obtain ⟨m, hm⟩ : ∃ m, n - k = m + 2 := ⟨n - k - 2, by omega⟩
      have hthen : n - (k + 1) = m + 1 := by omega
      rw [if_pos hmore, hm, hthen]
      rfl
    · have hone : n - k = 1 := by omega
      rw [if_neg (by omega), if_pos hlast, hone, hlast, Nat.sub_self]
      rfl
    · have hzero : n - k = 0 := by omega
      have hthen : n - (k + 1) = 0 := by omega
      rw [if_neg (by omega), if_neg (by omega), hzero, hthen]
      rfl

/-- The answers to a sequence of calls, after `k` requests. -/
theorem run_left (n : Nat) : ∀ (calls : List Call) (k : Nat),
    (run call (left (n - k)) calls).2 = left (n - (k + Call.unitsOf calls)) ∧
      ∀ i, (run call (left (n - k)) calls).1[i]? =
        calls[i]?.map (due n (k + Call.unitsOf (calls.take i))) := by
  intro calls
  induction calls with
  | nil => intro k; exact ⟨rfl, fun i => rfl⟩
  | cons c rest ih =>
    intro k
    obtain ⟨hafter, hanswers⟩ := ih (k + c.units)
    rw [run, call_left]
    refine ⟨?_, fun i => ?_⟩
    · rw [Call.unitsOf, ← Nat.add_assoc]
      exact hafter
    · cases i with
      | zero => rfl
      | succ i =>
        rw [List.take_succ_cons, Call.unitsOf, ← Nat.add_assoc]
        exact hanswers i

/-- The requests that come too late are the only ones that are refused. -/
theorem countP_isGranted (n : Nat) : ∀ (calls : List Call) (k : Nat),
    (run call (left (n - k)) calls).1.countP Answer.isGranted =
      min (Call.unitsOf calls) (n - k) := by
  intro calls
  induction calls with
  | nil => intro k; exact (Nat.zero_min _).symm
  | cons c rest ih =>
    intro k
    rw [run, call_left, List.countP_cons, ih, Call.unitsOf]
    cases c with
    | remaining =>
      show min _ (n - k) + 0 = min (0 + _) _
      rw [Nat.zero_add, Nat.add_zero]
    | acquire retries =>
      have hgranted : (due n k (.acquire retries)).isGranted = decide (k < n) :=
        isGranted_grantOf n k
      rw [hgranted]
      simp only [Call.units, decide_eq_true_eq]
      split <;> omega

/-- Nobody but the `n`-th request is told that it is the last. -/
theorem count_last (n : Nat) : ∀ (calls : List Call) (k : Nat),
    (run call (left (n - k)) calls).1.count (.grant .last) =
      if k < n ∧ n ≤ k + Call.unitsOf calls then 1 else 0 := by
  intro calls
  induction calls with
  | nil =>
    intro k
    rw [if_neg (by show ¬(k < n ∧ n ≤ k); omega)]
    rfl
  | cons c rest ih =>
    intro k
    rw [run, call_left, List.count_cons, ih, Call.unitsOf]
    cases c with
    | remaining =>
      show (if k < n ∧ n ≤ k + _ then 1 else 0) + 0 =
        if k < n ∧ n ≤ k + (0 + _) then 1 else 0
      rw [Nat.zero_add, Nat.add_zero]
    | acquire retries =>
      have hlast : (due n k (.acquire retries) == .grant .last) = decide (k + 1 = n) := by
        rw [Bool.eq_iff_iff, beq_iff_eq, decide_eq_true_eq, due, Answer.grant.injEq]
        exact grantOf_eq_last_iff n (k + 1)
      rw [hlast]
      show (if k + 1 < n ∧ n ≤ k + 1 + Call.unitsOf rest then 1 else 0) +
          (if decide (k + 1 = n) = true then 1 else 0) =
        if k < n ∧ n ≤ k + (1 + Call.unitsOf rest) then 1 else 0
      by_cases hn : k + 1 = n
      · have hover : ¬(k + 1 < n ∧ n ≤ k + 1 + Call.unitsOf rest) := by omega
        rw [if_neg hover, if_pos (decide_eq_true hn), if_pos (by omega)]
      · rw [decide_eq_false hn, if_neg Bool.false_ne_true, Nat.add_zero]
        exact if_congr (by omega) rfl rfl

/-- Without a limit every request is granted and nothing is counted. -/
theorem run_unlimited : ∀ (calls : List Call),
    run call unlimited calls =
      (calls.map fun
        | .acquire _ => .grant .unlimited
        | .remaining => .remaining none, unlimited) := by
  intro calls
  induction calls with
  | nil => rfl
  | cons c rest ih =>
    cases c with
    | acquire retries => rw [run, List.map_cons, call, Budget.acquire]; dsimp only; rw [ih]
    | remaining => rw [run, List.map_cons, call, Budget.remaining]; dsimp only; rw [ih]

/-! ## The counter as a word -/

/-- Takes a unit from a word of 64 bits. The word is read and, unless it is zero, exchanged
for one less; when the exchange fails, although nobody else has changed the word, all is
tried again. -/
def acquireWord (word : UInt64) : Nat → Grant × UInt64
  | 0 =>
    if word = 0 then (.exhausted, word)
    else if word = 1 then (.last, word - 1)
    else (.granted (word - 1).toNat, word - 1)
  | retries + 1 => if word = 0 then (.exhausted, word) else acquireWord word retries

/-- The answer of a word to a call, and the word afterwards. -/
def callWord (word : UInt64) : Call → Answer × UInt64
  | .acquire retries => (.grant (acquireWord word retries).1, (acquireWord word retries).2)
  | .remaining => (.remaining (some word.toNat), word)

/-- A word that is not zero can be exchanged for one less without wrapping. -/
theorem toNat_pred {word : UInt64} (h : word ≠ 0) : (word - 1).toNat = word.toNat - 1 := by
  have hpos : word.toNat ≠ 0 := fun hzero => h (UInt64.toNat_inj.mp hzero)
  refine UInt64.toNat_sub_of_le word 1 ?_
  rw [UInt64.le_iff_toNat_le]
  show 1 ≤ word.toNat
  omega

/-- A unit is taken from a word as from the budget of as many units, however often that has
to be tried. -/
theorem acquire_word (word : UInt64) (retries : Nat) :
    (left word.toNat).acquire =
      ((acquireWord word retries).1, left (acquireWord word retries).2.toNat) := by
  induction retries with
  | zero =>
    unfold acquireWord
    by_cases hzero : word = 0
    · rw [if_pos hzero, hzero]
      rfl
    · rw [if_neg hzero]
      by_cases hone : word = 1
      · rw [if_pos hone, hone]
        rfl
      · have hpos : word.toNat ≠ 0 := fun h => hzero (UInt64.toNat_inj.mp h)
        have hmany : word.toNat ≠ 1 := fun h => hone (UInt64.toNat_inj.mp h)
        obtain ⟨m, hm⟩ : ∃ m, word.toNat = m + 2 := ⟨word.toNat - 2, by omega⟩
        rw [if_neg hone, toNat_pred hzero, hm]
        rfl
  | succ retries ih =>
    rw [acquireWord]
    by_cases hzero : word = 0
    · rw [if_pos hzero, hzero]
      rfl
    · rw [if_neg hzero]
      exact ih

/-- Words and budgets answer alike, and a word holds what is left of its budget. -/
theorem run_word : ∀ (calls : List Call) (word : UInt64),
    run call (left word.toNat) calls =
      ((run callWord word calls).1, left (run callWord word calls).2.toNat) := by
  intro calls
  induction calls with
  | nil => intro word; rfl
  | cons c rest ih =>
    intro word
    have hstep : (left word.toNat).call c =
        ((callWord word c).1, left (callWord word c).2.toNat) := by
      cases c with
      | remaining => rfl
      | acquire retries =>
        rw [call, acquire_word word retries]
        rfl
    rw [run, hstep]
    dsimp only
    rw [ih]
    rfl

/-! ## The law -/

/-- What a sequence of calls gets from a budget of `n` units. -/
structure Countdown (n : UInt64) (calls : List Call) : Prop where
  /-- Each call gets what is due after the units asked for before it. -/
  answers : ∀ i, (run call (ofCount (some n.toNat)) calls).1[i]? =
    calls[i]?.map (due n.toNat (Call.unitsOf (calls.take i)))
  granted : (run call (ofCount (some n.toNat)) calls).1.countP Answer.isGranted =
    min (Call.unitsOf calls) n.toNat
  last : (run call (ofCount (some n.toNat)) calls).1.count (.grant .last) =
    if 0 < n.toNat ∧ n.toNat ≤ Call.unitsOf calls then 1 else 0
  /-- A counter of 64 bits gives the same answers. -/
  word : (run callWord n calls).1 = (run call (ofCount (some n.toNat)) calls).1
  /-- The counter ends with the units that are left and has not wrapped. -/
  counter : ((run callWord n calls).2.toNat : Int) = max ((n.toNat : Int) - Call.unitsOf calls) 0

/-- **The countdown.** Of a budget of `n` units the first `n` requests are granted, the `n`-th
of them is told that it is the last, and all others are refused, in every sequence of calls.
Without a limit every request is granted. -/
theorem run_countdown (calls : List Call) :
    (∀ n : UInt64, Countdown n calls) ∧
      run call (ofCount none) calls =
        (calls.map fun
          | .acquire _ => .grant .unlimited
          | .remaining => .remaining none, unlimited) := by
  refine ⟨fun n => ?_, run_unlimited calls⟩
  obtain ⟨hleft, hanswers⟩ := run_left n.toNat calls 0
  have hgranted := countP_isGranted n.toNat calls 0
  have hlast := count_last n.toNat calls 0
  have hword := run_word calls n
  rw [Nat.sub_zero] at hleft hanswers hgranted hlast
  simp only [Nat.zero_add] at hleft hanswers hlast
  refine ⟨hanswers, hgranted, hlast, ?_, ?_⟩
  · show _ = (run call (left n.toNat) calls).1
    rw [hword]
  · rw [hword, left.injEq] at hleft
    omega

/-- Three requests to a budget of two units, one of them after a retry. -/
example : (run call (ofCount (some 2)) [.acquire 0, .remaining, .acquire 1, .acquire 0]).1 =
    [.grant (.granted 1), .remaining (some 1), .grant .last, .grant .exhausted] := by decide

end StubServer.Budget
