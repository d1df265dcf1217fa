import StubServer.Proofs.Shutdown.Receiver

/-!
# Delivery: every listener accounts for every signal

A receiver is nobody before it subscribes. `since` cuts off what happened until then, and
from there on `Awaits.run` tells all that the receiver finds, with no signal before it at
first (`run_since`). This file puts the receivers together again:

> `listeners`: the receivers that subscribed and were not dropped, read off the steps.
>
> `Account`: what one of them has found, and what it finds when it looks next.

The payoff is `account_afterSteps`.
-/

namespace StubServer.Shutdown

/-! ## The history of a receiver -/

/-- The steps since the subscription of a receiver, if it ever subscribed. -/
def since : List Step → Nat → Option (List Step)
  | [], _ => none
  | .subscribe :: rest, 0 => some rest
  | .subscribe :: rest, i + 1 => since rest i
  | _ :: rest, i => since rest i

/-- The receivers that subscribed and were not dropped afterwards. -/
def listeners (steps : List Step) : List Nat :=
  (List.range (steps.count .subscribe)).filter fun i =>
    (since steps i).any fun later => !later.contains (.drop i)

/-! ## From the subscription on -/

theorem length_afterSteps (steps : List Step) : ∀ (s : Shutdown),
    (s.afterSteps steps).receivers.length = s.receivers.length + steps.count .subscribe := by
  induction steps with
  | nil => intro s; rfl
  | cons step rest ih =>
    intro s
    rw [afterSteps_cons, ih, length_after, List.count_cons]
    simp only [beq_iff_eq]
    omega

/-- Before its subscription there is nothing for a receiver; from then on it is on the
channel, with nothing before it at first. -/
theorem run_since {i : Nat} (steps : List Step) : ∀ (s : Shutdown) (k : Nat),
    s.receivers.length + k = i →
      match since steps k with
      | none => receipts i s steps = [] ∧ (s.afterSteps steps).Stands i none
      | some later =>
        receipts i s steps = heard 0 (later.filterMap (Step.seenBy i)) ∧
          (s.afterSteps steps).Stands i (owed 0 (later.filterMap (Step.seenBy i))) := by
  induction steps with
  | nil =>
    intro s k hi
    refine ⟨rfl, ?_⟩
    show s.position? i = none
    exact position?_of_ge (by omega)
  | cons step rest ih =>
    intro s k hi
    have hlength := length_after s step
    have hnone : s.position? i = none := position?_of_ge (by omega)
    have hfound : s.found i step = none := by
      cases step with
      | receive j =>
        by_cases hj : j = i
        · rw [hj, found_receive, receive_of_none hnone]
        · exact if_neg hj
      | _ => rfl
    rw [receipts, hfound, afterSteps_cons]
    -- only a subscription brings the receiver nearer, and the last one before it is its own
    cases step with
    | subscribe =>
      cases k with
      | zero =>
        obtain rfl : s.receivers.length = i := hi
        exact (awaits_subscribe s).run rest
      | succ k => exact ih _ k (by rw [hlength, if_pos rfl]; omega)
    | trigger => exact ih _ k (by rw [hlength, if_neg (by simp)]; exact hi)
    | drop j => exact ih _ k (by rw [hlength, if_neg (by simp)]; exact hi)
    | receive j => exact ih _ k (by rw [hlength, if_neg (by simp)]; exact hi)

section

variable {steps later : List Step} {i : Nat}

theorem receipts_since (h : since steps i = some later) :
    receipts i {} steps = heard 0 (later.filterMap (Step.seenBy i)) ∧
      (afterSteps {} steps).Stands i (owed 0 (later.filterMap (Step.seenBy i))) := by
  have hrun := run_since steps {} i (Nat.zero_add i)
  rw [h] at hrun
  exact hrun

theorem receipts_unsubscribed (h : since steps i = none) :
    receipts i {} steps = [] ∧ (afterSteps {} steps).Stands i none := by
  have hrun := run_since steps {} i (Nat.zero_add i)
  rw [h] at hrun
  exact hrun

/-- All signals after the subscription of a receiver are meant for it. -/
theorem count_sent (later : List Step) (i : Nat) :
    (later.filterMap (Step.seenBy i)).count .sent = later.count .trigger := by
  rw [List.count, List.countP_filterMap]
  refine List.countP_congr fun step _ => ?_
  cases step with
  | subscribe => simp [Step.seenBy]
  | trigger => simp [Step.seenBy]
  | drop j => by_cases hj : j = i <;> simp [Step.seenBy, hj]
  | receive j => by_cases hj : j = i <;> simp [Step.seenBy, hj]

theorem leaves_mem_iff (later : List Step) (i : Nat) :
    .leaves ∈ later.filterMap (Step.seenBy i) ↔ .drop i ∈ later := by
  rw [List.mem_filterMap]
  constructor
  · intro ⟨step, hmem, hseen⟩
    rw [Step.seenBy_eq_some hseen] at hmem
    exact hmem
  · intro hmem
    exact ⟨.drop i, hmem, if_pos rfl⟩

theorem since_isSome_iff : ∀ (steps : List Step) (i : Nat),
    (since steps i).isSome = true ↔ i < steps.count .subscribe := by
  intro steps
  induction steps with
  | nil => intro i; simp [since]
  | cons step rest ih =>
    intro i
    cases step with
    | subscribe =>
      cases i with
      | zero => simp [since]
      | succ i => simp [since, ih]
    | trigger => simp [since, ih]
    | drop j => simp [since, ih]
    | receive j => simp [since, ih]

theorem mem_listeners : i ∈ listeners steps ↔
    ∃ later, since steps i = some later ∧ .drop i ∉ later := by
  unfold listeners
  rw [List.mem_filter, List.mem_range, ← since_isSome_iff]
  cases since steps i with
  | none => simp
  | some later => simp

/-- The listeners are the receivers that are on the channel. -/
theorem position?_isSome_iff :
    ((afterSteps {} steps).position? i).isSome = true ↔ i ∈ listeners steps := by
  have hpending : ((afterSteps {} steps).position? i).isSome =
      ((afterSteps {} steps).pending? i).isSome := by
    unfold pending?
    rw [Option.isSome_map]
  rw [hpending, mem_listeners]
  cases h : since steps i with
  | none => simp [(receipts_unsubscribed h).2.pending?]
  | some later =>
    rw [(receipts_since h).2.pending?, owed_isSome_iff, leaves_mem_iff]
    simp

end

/-- The present entries of a list, found by their places. -/
theorem length_filter_isSome {α : Type} (l : List (Option α)) :
    (l.filter Option.isSome).length =
      ((List.range l.length).filter fun i => l[i]?.join.isSome).length := by
  have hplaces : l = (List.range l.length).map fun i => l[i]?.join := by
    refine List.ext_getElem? fun i => ?_
    rw [List.getElem?_map]
    rcases Nat.lt_or_ge i l.length with hi | hi
    · rw [List.getElem?_range hi, List.getElem?_eq_getElem hi]
      simp [hi]
    · rw [List.getElem?_eq_none hi, List.getElem?_eq_none (by simpa using hi)]
      rfl
  calc (l.filter Option.isSome).length
      = (((List.range l.length).map fun i => l[i]?.join).filter Option.isSome).length := by
        rw [← hplaces]
    _ = _ := by
        rw [List.filter_map, List.length_map]
        rfl

theorem receiverCount_eq (steps : List Step) :
    (afterSteps {} steps).receiverCount = (listeners steps).length := by
  have hlength : (afterSteps {} steps).receivers.length = steps.count .subscribe := by
    rw [length_afterSteps]
    exact Nat.zero_add _
  unfold receiverCount
  rw [length_filter_isSome, hlength]
  refine congrArg List.length (List.filter_congr fun i hi => ?_)
  rw [Bool.eq_iff_iff]
  refine position?_isSome_iff.trans ?_
  rw [listeners, List.mem_filter]
  exact and_iff_right hi

/-! ## The account -/

/-- What a receiver has found after some steps, and what it finds when it looks next. -/
structure Account (steps : List Step) (i : Nat) (later : List Step) (pending : Nat) : Prop where
  current : (afterSteps {} steps).pending? i = some pending
  /-- Every signal since the subscription was got, was missed, or is still to come. -/
  signals : (receipts i {} steps).count .signal + missedIn (receipts i {} steps) + pending =
    later.count .trigger
  empty : ((afterSteps {} steps).receive i).1 = some .empty ↔ pending = 0
  signal : ((afterSteps {} steps).receive i).1 = some .signal ↔ pending = 1
  /-- Of several signals all but one are missed; the one is got by the next look, unless
  another signal comes first. -/
  lagged : 2 ≤ pending →
    ((afterSteps {} steps).receive i).1 = some (.lagged (pending - 1)) ∧
      ∀ between, (∀ step ∈ between, step.seenBy i = none) →
        ((afterSteps {} (steps ++ .receive i :: between)).receive i).1 = some .signal

theorem look_eq_empty_iff (n : Nat) : (look n).1 = .empty ↔ n = 0 := by
  match n with
  | 0 => simp [look]
  | 1 => simp [look]
  | n + 2 => simp [look]

theorem look_eq_signal_iff (n : Nat) : (look n).1 = .signal ↔ n = 1 := by
  match n with
  | 0 => simp [look]
  | 1 => simp [look]
  | n + 2 => simp [look]

/-- Steps that mean nothing to a receiver leave the signals before it as they are. -/
theorem Awaits.unseenSteps {s : Shutdown} {i n : Nat} (between : List Step)
    (h : s.Awaits i n) (hbetween : ∀ step ∈ between, step.seenBy i = none) :
    (s.afterSteps between).Awaits i n := by
  induction between generalizing s with
  | nil => exact h
  | cons step rest ih =>
    have hstep := hbetween step (List.mem_cons_self ..)
    exact ih (h.unseen hstep).1 fun step hmem => hbetween step (List.mem_cons_of_mem _ hmem)

theorem account_of_awaits {steps later : List Step} {i n : Nat}
    (hsince : since steps i = some later)
    (howed : owed 0 (later.filterMap (Step.seenBy i)) = some n) : Account steps i later n := by
  obtain ⟨hreceipts, hstands⟩ := receipts_since hsince
  rw [howed] at hstands
  obtain ⟨hfound, hafter⟩ := Awaits.receive hstands
  refine ⟨hstands.pending?, ?_, ?_, ?_, ?_⟩
  · rw [hreceipts, heard_account howed, count_sent]
    exact Nat.zero_add _
  · rw [hfound, Option.some.injEq]
    exact look_eq_empty_iff n
  · rw [hfound, Option.some.injEq]
    exact look_eq_signal_iff n
  · intro hmany
    obtain ⟨m, rfl⟩ : ∃ m, n = m + 2 := ⟨n - 2, by omega⟩
    refine ⟨hfound, fun between hbetween => ?_⟩
    rw [afterSteps_append, afterSteps_cons]
    exact (Awaits.unseenSteps between hafter hbetween).receive.1

/-- **No listener misses a signal unnoticed.** After any sequence of steps the receivers that
are counted are those that subscribed and were not dropped. Each of them accounts for every
signal since its subscription, and finds next what the signals before it amount to. What it
finds is settled by the signals, its own looks and its own leaving since it subscribed;
nothing else has a part in it. -/
theorem account_afterSteps (steps : List Step) :
    (afterSteps {} steps).receiverCount = (listeners steps).length ∧
      (∀ i ∈ listeners steps, ∃ later pending,
        since steps i = some later ∧ Account steps i later pending) ∧
      (∀ i, since steps i = none → receipts i {} steps = []) ∧
      ∀ i later steps' i' later', since steps i = some later → since steps' i' = some later' →
        later.filterMap (Step.seenBy i) = later'.filterMap (Step.seenBy i') →
        receipts i {} steps = receipts i' {} steps' ∧
          (afterSteps {} steps).pending? i = (afterSteps {} steps').pending? i' := by
  refine ⟨receiverCount_eq steps, ?_, fun i h => (receipts_unsubscribed h).1, ?_⟩
  · intro i hi
    obtain ⟨later, hsince, hdrop⟩ := mem_listeners.mp hi
    rw [← leaves_mem_iff, ← owed_isSome_iff 0, Option.isSome_iff_exists] at hdrop
    obtain ⟨pending, howed⟩ := hdrop
    exact ⟨later, pending, hsince, account_of_awaits hsince howed⟩
  · intro i later steps' i' later' hsince hsince' hseen
    obtain ⟨hreceipts, hstands⟩ := receipts_since hsince
    obtain ⟨hreceipts', hstands'⟩ := receipts_since hsince'
    rw [hreceipts, hreceipts', hstands.pending?, hstands'.pending?, hseen]
    exact ⟨rfl, rfl⟩

/-- The first of two receivers missed one of two signals, and the second one left before the
newest was sent. -/
theorem account_afterSteps_lagging :
    let steps : List Step :=
      [.trigger, .subscribe, .subscribe, .trigger, .drop 1, .trigger, .receive 0]
    0 ∈ listeners steps ∧ receipts 0 {} steps = [.lagged 1] ∧
      Account steps 0 [.subscribe, .trigger, .drop 1, .trigger, .receive 0] 1 := by
  intro steps
  have hlistens : 0 ∈ listeners steps := by decide
  obtain ⟨later, pending, hsince, haccount⟩ := (account_afterSteps steps).2.1 0 hlistens
  have hlater : some [.subscribe, .trigger, .drop 1, .trigger, .receive 0] = some later := hsince
  have hpending : some 1 = some pending := haccount.current
  obtain rfl := Option.some.inj hlater
  obtain rfl := Option.some.inj hpending
  exact ⟨hlistens, by decide, haccount⟩

end StubServer.Shutdown
