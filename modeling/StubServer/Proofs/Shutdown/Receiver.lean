import Mathlib.Data.List.Basic
import StubServer.Shutdown

/-!
# A receiver on the channel and by itself

The channel keeps one signal and one position per receiver, and all receivers share the
count of the signals that were sent. What a receiver finds is nevertheless its own affair.
This file says so by two accounts of the same run:

> `receipts`: what a receiver finds while the steps change the channel.
>
> `heard`: what it finds by itself, if all it knows is how many signals are still before it.

The second account sees nothing of the channel or of the other receivers. `Awaits` ties the
two together: the position of a receiver and the signals before it add up to the signals
that were sent. It is kept by every step, one lemma per kind of step, and so by every run
(`Awaits.run`).

What is got, missed and still to come then follows by an induction over `heard` alone
(`heard_account`).
-/

namespace StubServer.Shutdown

/-! ## Runs -/

/-- What can be done with a channel. A receiver goes by its place among the subscriptions. -/
inductive Step
  | subscribe
  | trigger
  | drop (receiver : Nat)
  | receive (receiver : Nat)
  deriving DecidableEq, Repr

/-- The channel after a step. -/
def after (s : Shutdown) : Step → Shutdown
  | .subscribe => s.subscribe.2
  | .trigger => s.trigger
  | .drop i => (s.drop i).2
  | .receive i => (s.receive i).2

/-- The channel after a sequence of steps. -/
def afterSteps (s : Shutdown) (steps : List Step) : Shutdown :=
  steps.foldl after s

theorem afterSteps_cons (s : Shutdown) (step : Step) (rest : List Step) :
    s.afterSteps (step :: rest) = (s.after step).afterSteps rest :=
  rfl

theorem afterSteps_append (s : Shutdown) (before later : List Step) :
    s.afterSteps (before ++ later) = (s.afterSteps before).afterSteps later :=
  List.foldl_append

/-- What a receiver finds in a step: something only when it looks. -/
def found (s : Shutdown) (i : Nat) : Step → Option Receipt
  | .receive j => if j = i then (s.receive i).1 else none
  | _ => none

/-- All that a receiver finds in the course of some steps. -/
def receipts (i : Nat) : Shutdown → List Step → List Receipt
  | _, [] => []
  | s, step :: rest => (s.found i step).toList ++ receipts i (s.after step) rest

/-- The signals that were sent since a receiver subscribed and that it has neither got nor
been told that it missed. -/
def pending? (s : Shutdown) (i : Nat) : Option Nat :=
  (s.position? i).map (s.sent - ·)

/-! ## A receiver by itself -/

/-- What a step can mean to a receiver. -/
inductive Event
  | sent
  | looks
  | leaves
  deriving DecidableEq, Repr

/-- What a step means to a receiver: the subscriptions, drops and looks of others mean
nothing to it. -/
def Step.seenBy (i : Nat) : Step → Option Event
  | .subscribe => none
  | .trigger => some .sent
  | .drop j => if j = i then some .leaves else none
  | .receive j => if j = i then some .looks else none

/-- The step that an event is for a receiver. -/
def Event.step (i : Nat) : Event → Step
  | .sent => .trigger
  | .looks => .receive i
  | .leaves => .drop i

theorem Step.seenBy_eq_some {i : Nat} {step : Step} {event : Event}
    (h : step.seenBy i = some event) : step = event.step i := by
  cases step with
  | subscribe => exact absurd h (by simp [seenBy])
  | trigger =>
    obtain rfl : Event.sent = event := Option.some.inj h
    rfl
  | drop j =>
    obtain ⟨rfl, rfl⟩ : j = i ∧ Event.leaves = event := by simpa [seenBy] using h
    rfl
  | receive j =>
    obtain ⟨rfl, rfl⟩ : j = i ∧ Event.looks = event := by simpa [seenBy] using h
    rfl

/-- What a receiver finds with a number of signals before it, and how many are then left:
of several it is told how many it missed, and the newest stays for the next time. -/
def look : Nat → Receipt × Nat
  | 0 => (.empty, 0)
  | 1 => (.signal, 0)
  | n + 2 => (.lagged (n + 1), 1)

/-- The signals that some receipts speak of as missed. -/
def missedIn : List Receipt → Nat
  | [] => 0
  | .lagged missed :: rest => missed + missedIn rest
  | _ :: rest => missedIn rest

/-- All that a receiver finds from a number of signals before it. -/
def heard : Nat → List Event → List Receipt
  | _, [] => []
  | n, .sent :: rest => heard (n + 1) rest
  | n, .looks :: rest => (look n).1 :: heard (look n).2 rest
  | _, .leaves :: _ => []

/-- The signals before a receiver at the end; none if it has left. -/
def owed : Nat → List Event → Option Nat
  | n, [] => some n
  | n, .sent :: rest => owed (n + 1) rest
  | n, .looks :: rest => owed (look n).2 rest
  | _, .leaves :: _ => none

/-- As long as it has not left, a receiver has some number of signals before it. -/
theorem owed_isSome_iff (n : Nat) (events : List Event) :
    (owed n events).isSome = true ↔ .leaves ∉ events := by
  induction events generalizing n with
  | nil => simp [owed]
  | cons event rest ih => cases event <;> simp [owed, ih]

/-- The signals that were got, missed and are still to come are those that were sent. -/
theorem heard_account {n m : Nat} {events : List Event} (h : owed n events = some m) :
    (heard n events).count .signal + missedIn (heard n events) + m = n + events.count .sent := by
  induction events generalizing n with
  | nil =>
    obtain rfl : n = m := Option.some.inj h
    simp [heard, missedIn]
  | cons event rest ih =>
    cases event with
    | sent =>
      have := ih h
      simp only [heard, List.count_cons_self]
      omega
    | looks =>
      have := ih h
      match n with
      | 0 => simpa [heard, look, missedIn] using this
      | 1 => simp [heard, look, missedIn] at this ⊢; omega
      | n + 2 => simp [heard, look, missedIn] at this ⊢; omega
    | leaves => exact absurd h (by simp [owed])

/-! ## A receiver on the channel -/

/-- A receiver is on the channel, with a number of signals before it. -/
def Awaits (s : Shutdown) (i n : Nat) : Prop :=
  ∃ position, s.position? i = some position ∧ position + n = s.sent

/-- A receiver was on the channel and is there no more. -/
def HasLeft (s : Shutdown) (i : Nat) : Prop :=
  i < s.receivers.length ∧ s.position? i = none

/-- A receiver is on the channel with some signals before it, or it is not there at all. -/
def Stands (s : Shutdown) (i : Nat) : Option Nat → Prop
  | some n => s.Awaits i n
  | none => s.position? i = none

/-- The channel with something else at the place of a receiver. -/
def withReceiver (s : Shutdown) (i : Nat) (receiver : Option Nat) : Shutdown :=
  { s with receivers := s.receivers.set i receiver }

section

variable {s : Shutdown} {i j n position : Nat}

theorem position?_lt (h : s.position? i = some position) : i < s.receivers.length := by
  rcases Nat.lt_or_ge i s.receivers.length with hi | hi
  · exact hi
  · rw [position?, List.getElem?_eq_none hi] at h
    exact absurd h (by simp)

theorem position?_of_ge (h : s.receivers.length ≤ i) : s.position? i = none := by
  rw [position?, List.getElem?_eq_none h]
  rfl

/-- Whoever is on the channel is counted. -/
theorem receiverCount_ne_zero (h : s.position? i = some position) : s.receiverCount ≠ 0 := by
  have hmem : some position ∈ s.receivers :=
    List.mem_of_getElem? (Option.join_eq_some_iff.mp h)
  have hcounted : some position ∈ s.receivers.filter Option.isSome :=
    List.mem_filter.mpr ⟨hmem, rfl⟩
  exact Nat.ne_of_gt (List.length_pos_of_mem hcounted)

theorem position?_withReceiver_self (h : i < s.receivers.length) (receiver : Option Nat) :
    (s.withReceiver i receiver).position? i = receiver := by
  unfold position? withReceiver
  rw [List.getElem?_set_self h]
  rfl

theorem position?_withReceiver_ne (h : j ≠ i) (receiver : Option Nat) :
    (s.withReceiver j receiver).position? i = s.position? i := by
  unfold position? withReceiver
  rw [List.getElem?_set_ne h]

theorem position?_subscribe (h : i < s.receivers.length) :
    s.subscribe.2.position? i = s.position? i := by
  unfold position? subscribe
  rw [List.getElem?_append_left h]

theorem position?_trigger : s.trigger.position? i = s.position? i := by
  unfold trigger
  split <;> rfl

/-- Who is not on the channel finds nothing there and changes nothing. -/
theorem receive_of_none (h : s.position? i = none) : s.receive i = (none, s) := by
  unfold receive
  rw [h]

/-- A look moves the receiver that looks, if it is there, and nothing else. -/
theorem receive_snd (s : Shutdown) (i : Nat) :
    (s.receive i).2 = s ∨ ∃ next, (s.receive i).2 = s.withReceiver i (some next) := by
  unfold receive
  cases s.position? i with
  | none => exact Or.inl rfl
  | some position => exact Or.inr ⟨_, rfl⟩

/-- The channel has a place for every subscription, whatever else happens. -/
theorem length_after (s : Shutdown) (step : Step) :
    (s.after step).receivers.length =
      s.receivers.length + if step = .subscribe then 1 else 0 := by
  cases step with
  | subscribe => exact List.length_append
  | trigger =>
    show s.trigger.receivers.length = _
    unfold trigger
    split <;> rfl
  | drop j => exact List.length_set
  | receive j =>
    show (s.receive j).2.receivers.length = _
    rcases receive_snd s j with h | ⟨next, h⟩
    · rw [h]; rfl
    · rw [h]; exact List.length_set

theorem found_receive (s : Shutdown) (i : Nat) : s.found i (.receive i) = (s.receive i).1 :=
  if_pos rfl

/-- What receivers are told depends on the signals before them only. -/
theorem receipt_eq_look (position n : Nat) :
    receipt (position + n) position = ((look n).1, position + n - (look n).2) := by
  unfold receipt
  match n with
  | 0 => simp [look]
  | 1 => simp [look]
  | n + 2 =>
    rw [if_neg (by omega), if_neg (by omega)]
    simp only [look, Prod.mk.injEq, Receipt.lagged.injEq, and_true]
    omega

theorem look_snd_le (n : Nat) : (look n).2 ≤ n := by
  match n with
  | 0 => exact Nat.le_refl 0
  | 1 => exact Nat.zero_le 1
  | n + 2 => show 1 ≤ n + 2; omega

/-! ### Steps -/

theorem Stands.pending? {owed : Option Nat} (h : s.Stands i owed) : s.pending? i = owed := by
  unfold Shutdown.pending?
  cases owed with
  | none =>
    have hnone : s.position? i = none := h
    rw [hnone]
    rfl
  | some n =>
    obtain ⟨position, hposition, hsent⟩ := h
    rw [hposition, ← hsent, Option.map_some, Nat.add_sub_cancel_left]

/-- Nothing is before a receiver that has just subscribed. -/
theorem awaits_subscribe (s : Shutdown) : s.subscribe.2.Awaits s.receivers.length 0 := by
  refine ⟨s.sent, ?_, rfl⟩
  unfold position? subscribe
  rw [List.getElem?_concat_length]
  rfl

/-- A signal is sent if there is a receiver, and then it is before all of them. -/
theorem Awaits.trigger (h : s.Awaits i n) : s.trigger.Awaits i (n + 1) := by
  obtain ⟨position, hposition, hsent⟩ := h
  refine ⟨position, position?_trigger.trans hposition, ?_⟩
  unfold Shutdown.trigger
  rw [if_neg (receiverCount_ne_zero hposition)]
  show position + (n + 1) = s.sent + 1
  omega

/-- A receiver that looks finds what the signals before it amount to. -/
theorem Awaits.receive (h : s.Awaits i n) :
    (s.receive i).1 = some (look n).1 ∧ (s.receive i).2.Awaits i (look n).2 := by
  obtain ⟨position, hposition, hsent⟩ := h
  have hreceive : s.receive i =
      (some (look n).1, s.withReceiver i (some (position + n - (look n).2))) := by
    unfold Shutdown.receive
    rw [hposition, ← hsent]
    dsimp only
    rw [receipt_eq_look]
    unfold withReceiver
    rw [← hsent]
  rw [hreceive]
  refine ⟨rfl, _, position?_withReceiver_self (position?_lt hposition) _, ?_⟩
  show _ = s.sent
  have := look_snd_le n
  omega

theorem Awaits.drop (h : s.Awaits i n) : (s.drop i).2.HasLeft i := by
  obtain ⟨position, hposition, -⟩ := h
  have hi := position?_lt hposition
  exact ⟨by rw [Shutdown.drop, List.length_set]; exact hi,
    position?_withReceiver_self hi none⟩

/-- The steps that mean nothing to a receiver leave it where it is, send nothing, and let it
find nothing. -/
theorem after_unseen (hi : i < s.receivers.length) {step : Step} (hstep : step.seenBy i = none) :
    (s.after step).position? i = s.position? i ∧ (s.after step).sent = s.sent ∧
      s.found i step = none := by
  cases step with
  | subscribe => exact ⟨position?_subscribe hi, rfl, rfl⟩
  | trigger => exact absurd hstep (by simp [Step.seenBy])
  | drop j =>
    have hne : j ≠ i := fun he => by simp [Step.seenBy, he] at hstep
    exact ⟨position?_withReceiver_ne hne none, rfl, rfl⟩
  | receive j =>
    have hne : j ≠ i := fun he => by simp [Step.seenBy, he] at hstep
    show (s.receive j).2.position? i = _ ∧ (s.receive j).2.sent = _ ∧ _
    rcases receive_snd s j with hsame | ⟨next, hnext⟩
    · rw [hsame]
      exact ⟨rfl, rfl, if_neg hne⟩
    · rw [hnext]
      exact ⟨position?_withReceiver_ne hne _, rfl, if_neg hne⟩

theorem Awaits.unseen (h : s.Awaits i n) {step : Step} (hstep : step.seenBy i = none) :
    (s.after step).Awaits i n ∧ s.found i step = none := by
  obtain ⟨position, hposition, hsent⟩ := h
  obtain ⟨hsame, hsentSame, hfound⟩ := after_unseen (position?_lt hposition) hstep
  exact ⟨⟨position, hsame.trans hposition, hsent.trans hsentSame.symm⟩, hfound⟩

/-- Who has left the channel does not come back to it and finds nothing. -/
theorem HasLeft.after (h : s.HasLeft i) (step : Step) :
    (s.after step).HasLeft i ∧ s.found i step = none := by
  obtain ⟨hi, hnone⟩ := h
  have hlength : i < (s.after step).receivers.length := by
    rw [length_after]
    omega
  cases hseen : step.seenBy i with
  | none =>
    obtain ⟨hsame, -, hfound⟩ := after_unseen hi hseen
    exact ⟨⟨hlength, hsame.trans hnone⟩, hfound⟩
  | some event =>
    obtain rfl := Step.seenBy_eq_some hseen
    cases event with
    | sent => exact ⟨⟨hlength, position?_trigger.trans hnone⟩, rfl⟩
    | looks =>
      have hreceive := receive_of_none hnone
      refine ⟨⟨hlength, ?_⟩, ?_⟩
      · show (s.receive i).2.position? i = none
        rw [hreceive]
        exact hnone
      · show s.found i (.receive i) = none
        rw [found_receive, hreceive]
    | leaves => exact ⟨⟨hlength, position?_withReceiver_self hi none⟩, rfl⟩

/-! ### Runs -/

/-- Who has left finds nothing in any run. -/
theorem HasLeft.run (steps : List Step) : ∀ {s : Shutdown}, s.HasLeft i →
    receipts i s steps = [] ∧ (s.afterSteps steps).HasLeft i := by
  induction steps with
  | nil => intro s h; exact ⟨rfl, h⟩
  | cons step rest ih =>
    intro s h
    obtain ⟨hafter, hfound⟩ := h.after step
    rw [receipts, hfound]
    exact ih hafter

/-- On the channel a receiver finds what it finds by itself, and has before it what it has
before it by itself. -/
theorem Awaits.run (steps : List Step) : ∀ {s : Shutdown} {n : Nat}, s.Awaits i n →
    receipts i s steps = heard n (steps.filterMap (Step.seenBy i)) ∧
      (s.afterSteps steps).Stands i (owed n (steps.filterMap (Step.seenBy i))) := by
  induction steps with
  | nil => intro s n h; exact ⟨rfl, h⟩
  | cons step rest ih =>
    intro s n h
    rw [receipts, afterSteps_cons]
    -- what the step means to the receiver decides what becomes of `n`
    cases hseen : step.seenBy i with
    | none =>
      obtain ⟨hafter, hfound⟩ := h.unseen hseen
      rw [hfound, List.filterMap_cons_none hseen]
      exact ih hafter
    | some event =>
      rw [List.filterMap_cons_some hseen, Step.seenBy_eq_some hseen]
      cases event with
      | sent => exact ih h.trigger
      | looks =>
        obtain ⟨hfound, hafter⟩ := h.receive
        obtain ⟨hreceipts, hstands⟩ := ih hafter
        rw [show (Event.looks.step i) = .receive i from rfl, found_receive, hfound]
        exact ⟨congrArg ((look n).1 :: ·) hreceipts, hstands⟩
      | leaves =>
        obtain ⟨hreceipts, hleft⟩ := h.drop.run rest
        exact ⟨hreceipts, hleft.2⟩

end

end StubServer.Shutdown
