import Mathlib.Data.List.Basic
import StubServer.Dispatch.Registry

/-!
# Epochs: what a published set has become

Between two publications the registry only ever loses budget. An `Epoch` is a published
set together with the places that answered since, and it says all there is to say about
the registry: `Epoch.routes` computes the routes from the two, behavior by behavior. The
registry is never looked into again after this file:

> `Registry.Serves`: the registry has the fallback and the routes of the epoch.
>
> `dispatch_hit`, `dispatch_miss`: a request goes to `Epoch.next`, the first behavior of
> the set with the right route whose count is not used up; that behavior's place joins the
> epoch, and nothing else happens.

The place of a behavior is its identity. Charging and retiring go by place, and
`mem_zipIdx_unique` is the reason that they never hit a second route.
-/

namespace StubServer

/-! ## Behaviors with a number of answers behind them -/

/-- Whether a request is meant for a behavior. -/
def Behavior.accepts (b : Behavior) (method path : String) : Bool :=
  b.method.matchesRequest method && b.path == path

/-- Whether a behavior that has given a number of answers has none left. -/
def Behavior.isSpent (b : Behavior) (answered : Nat) : Bool :=
  match b.repetitions with
  | some n => n ≤ answered
  | none => false

namespace Behavior

variable {b : Behavior} {n : Nat}

theorem isSpent_of_none (h : b.repetitions = none) (answered : Nat) :
    b.isSpent answered = false := by
  unfold isSpent
  rw [h]

theorem isSpent_of_some (h : b.repetitions = some n) (answered : Nat) :
    b.isSpent answered = decide (n ≤ answered) := by
  unfold isSpent
  rw [h]

end Behavior

/-- The route of a behavior that has given a number of answers, as long as it has one left. -/
def Route.after (place : Nat) (b : Behavior) (answered : Nat) : Option Route :=
  if b.isSpent answered then none
  else some ⟨place, b.method, b.path, b.response, .ofCount (b.repetitions.map (· - answered))⟩

namespace Route

variable {place answered : Nat} {b : Behavior} {r : Route}

theorem after_eq_some (h : after place b answered = some r) :
    b.isSpent answered = false ∧
      r = ⟨place, b.method, b.path, b.response, .ofCount (b.repetitions.map (· - answered))⟩ := by
  unfold after at h
  split at h
  next => exact absurd h (by simp)
  next hlive => exact ⟨by simpa using hlive, (Option.some.inj h).symm⟩

theorem after_place (h : after place b answered = some r) : r.place = place := by
  rw [(after_eq_some h).2]

/-- Before its first answer, a behavior has a route unless its count is zero. -/
theorem after_zero (place : Nat) (b : Behavior) :
    after place b 0 = if b.repetitions = some 0 then none else some (ofBehavior place b) := by
  unfold after ofBehavior
  cases h : b.repetitions with
  | none => rw [Behavior.isSpent_of_none h]; rfl
  | some n =>
    rw [Behavior.isSpent_of_some h]
    cases n with
    | zero => rfl
    | succ n => simp

/-- A live route answers every request that is meant for it. -/
theorem after_any_answers (place : Nat) (b : Behavior) (answered : Nat) (method path : String) :
    (after place b answered).any (·.answers method path) =
      (b.accepts method path && !b.isSpent answered) := by
  unfold after
  split
  next hspent => simp [hspent]
  next hlive =>
    simp only [Option.any_some, answers, accepts, Behavior.accepts]
    congr 1
    -- a budget grants an answer when something remains of it
    rw [Bool.eq_iff_iff, Budget.isGranted_acquire, Budget.remaining_ofCount]
    cases h : b.repetitions with
    | none => simp [Behavior.isSpent_of_none h]
    | some n =>
      rw [Behavior.isSpent_of_some h, decide_eq_true_eq] at hlive
      rw [Behavior.isSpent_of_some h, decide_eq_false hlive]
      simp only [Option.map_some, ne_eq, Option.some.injEq, Bool.not_false, iff_true]
      omega

/-- A live route gives its last answer when the next one uses its count up. -/
theorem after_isLast (h : after place b answered = some r) :
    r.isLast = b.isSpent (answered + 1) := by
  obtain ⟨hlive, rfl⟩ := after_eq_some h
  unfold isLast
  cases hn : b.repetitions with
  | none => rw [Behavior.isSpent_of_none hn]; rfl
  | some n =>
    rw [Behavior.isSpent_of_some hn, decide_eq_false_iff_not] at hlive
    rw [Behavior.isSpent_of_some hn]
    -- the budget is the count without the answers, and at least one is left
    obtain ⟨left, hleft⟩ : ∃ left, n - answered = left + 1 := ⟨n - answered - 1, by omega⟩
    simp only [Option.map_some, Budget.ofCount, hleft]
    cases left with
    | zero => exact (decide_eq_true (by omega)).symm
    | succ left => exact (decide_eq_false (by omega)).symm

/-- A route that is charged has one more answer behind it. -/
theorem after_succ (h : after place b answered = some r) (hmore : r.isLast = false) :
    after place b (answered + 1) = some r.charged := by
  rw [after_isLast h] at hmore
  obtain ⟨-, rfl⟩ := after_eq_some h
  unfold after
  rw [if_neg (by simp [hmore])]
  unfold charged
  cases hn : b.repetitions with
  | none => rfl
  | some n =>
    rw [Behavior.isSpent_of_some hn, decide_eq_false_iff_not] at hmore
    obtain ⟨left, hleft⟩ : ∃ left, n - answered = left + 2 := ⟨n - answered - 2, by omega⟩
    have hthen : n - (answered + 1) = left + 1 := by omega
    simp only [Option.map_some, Budget.ofCount, hleft, hthen, Budget.acquire]

end Route

/-! ## Epochs -/

/-- A published set and the places of the behaviors that answered since, the latest first. -/
structure Epoch where
  set : BehaviorSet
  served : List Nat := []

namespace Epoch

/-- How often the behavior at a place has answered. -/
def answered (e : Epoch) (place : Nat) : Nat :=
  e.served.count place

/-- The behaviors of the set that have an answer left, as routes. -/
def routes (e : Epoch) : List Route :=
  e.set.behaviors.zipIdx.filterMap fun entry => Route.after entry.2 entry.1 (e.answered entry.2)

/-- The behavior that a request goes to, with its place: the first that it is meant for
and that has an answer left. -/
def next (e : Epoch) (method path : String) : Option (Behavior × Nat) :=
  e.set.behaviors.zipIdx.find? fun entry =>
    entry.1.accepts method path && !entry.1.isSpent (e.answered entry.2)

/-- The epoch after one more answer. -/
def record (e : Epoch) (place : Nat) : Epoch :=
  { e with served := place :: e.served }

theorem answered_record_self (e : Epoch) (place : Nat) :
    (e.record place).answered place = e.answered place + 1 := by
  unfold answered record
  rw [List.count_cons_self]

theorem answered_record_ne (e : Epoch) {place other : Nat} (h : other ≠ place) :
    (e.record place).answered other = e.answered other := by
  unfold answered record
  rw [List.count_cons_of_ne (Ne.symm h)]

/-- A place holds one behavior. -/
theorem mem_zipIdx_unique {α : Type} {l : List α} {a b : α} {place : Nat}
    (ha : (a, place) ∈ l.zipIdx) (hb : (b, place) ∈ l.zipIdx) : a = b := by
  rw [List.mk_mem_zipIdx_iff_getElem?] at ha hb
  exact Option.some.inj (ha.symm.trans hb)

/-- The behaviors of a set have different places. -/
theorem places_nodup (set : BehaviorSet) : (set.behaviors.zipIdx.map (·.2)).Nodup := by
  rw [List.zipIdx_map_snd]
  exact List.nodup_range'

theorem next_mem {e : Epoch} {method path : String} {b : Behavior} {place : Nat}
    (h : e.next method path = some (b, place)) : (b, place) ∈ e.set.behaviors.zipIdx :=
  List.mem_of_find?_eq_some h

theorem next_accepts {e : Epoch} {method path : String} {b : Behavior} {place : Nat}
    (h : e.next method path = some (b, place)) :
    b.accepts method path = true ∧ b.isSpent (e.answered place) = false := by
  have hp := List.find?_some h
  simpa using hp

/-- The routes of an epoch are found through their behaviors. -/
theorem find?_routes (e : Epoch) (method path : String) :
    e.routes.find? (·.answers method path) =
      (e.next method path).bind fun entry => Route.after entry.2 entry.1 (e.answered entry.2) := by
  unfold routes next
  rw [List.find?_filterMap]
  congr 2
  funext entry
  exact Route.after_any_answers entry.2 entry.1 (e.answered entry.2) method path

/-- What one more answer leaves of the route that gave it. -/
theorem after_record_self {e : Epoch} {b : Behavior} {place : Nat} {r : Route}
    (hr : Route.after place b (e.answered place) = some r) :
    Route.after place b ((e.record place).answered place) =
      if r.isLast then none else some r.charged := by
  rw [answered_record_self]
  cases hlast : r.isLast with
  | true =>
    have hspent : b.isSpent (e.answered place + 1) = true := by
      rw [← Route.after_isLast hr, hlast]
    rw [Route.after, if_pos hspent, if_pos rfl]
  | false =>
    rw [Route.after_succ hr hlast, if_neg (by simp)]

/-- Charging the route at a place, and retiring it with its last answer, is one more answer. -/
theorem routes_record {e : Epoch} {b : Behavior} {place : Nat} {r : Route}
    (hmem : (b, place) ∈ e.set.behaviors.zipIdx)
    (hr : Route.after place b (e.answered place) = some r) :
    (e.record place).routes =
      if r.isLast then Route.retireAt place (Route.chargeAt place e.routes)
      else Route.chargeAt place e.routes := by
  have hplace := Route.after_place hr
  have hself := after_record_self hr
  -- either way the entry at the place is the one that answered, and no other entry is touched
  cases hlast : r.isLast with
  | true =>
    rw [if_pos rfl]
    unfold Route.retireAt Route.chargeAt routes
    rw [List.map_filterMap, List.filter_filterMap]
    refine List.filterMap_congr fun entry hentry => ?_
    obtain ⟨b', other⟩ := entry
    by_cases hother : other = place
    · subst hother
      obtain rfl := mem_zipIdx_unique hmem hentry
      dsimp only
      rw [hself, hr, hlast]
      simp [hplace, Route.charged, Option.filter]
    · dsimp only
      rw [answered_record_ne e hother]
      cases h' : Route.after other b' (e.answered other) with
      | none => rfl
      | some r' => simp [Route.after_place h', hother, Option.filter]
  | false =>
    rw [if_neg (by simp)]
    unfold Route.chargeAt routes
    rw [List.map_filterMap]
    refine List.filterMap_congr fun entry hentry => ?_
    obtain ⟨b', other⟩ := entry
    by_cases hother : other = place
    · subst hother
      obtain rfl := mem_zipIdx_unique hmem hentry
      dsimp only
      rw [hself, hr, hlast]
      simp [hplace]
    · dsimp only
      rw [answered_record_ne e hother]
      cases h' : Route.after other b' (e.answered other) with
      | none => rfl
      | some r' => simp [Route.after_place h', hother]

end Epoch

/-! ## The registry and its epoch -/

/-- The registry has the fallback and the routes of an epoch. -/
structure Registry.Serves (registry : Registry) (e : Epoch) : Prop where
  fallback : registry.fallback = e.set.fallback
  routes : registry.routes = e.routes

namespace Registry

/-- A publication starts an epoch. -/
theorem serves_publish (registry : Registry) (set : BehaviorSet) :
    (registry.publish set).Serves ⟨set, []⟩ := by
  refine ⟨rfl, ?_⟩
  show (set.behaviors.zipIdx.filter (·.1.repetitions != some 0)).map
      (fun entry => Route.ofBehavior entry.2 entry.1) = _
  show _ = set.behaviors.zipIdx.filterMap (fun entry => Route.after entry.2 entry.1 0)
  induction set.behaviors.zipIdx with
  | nil => rfl
  | cons entry rest ih =>
    rw [List.filter_cons, List.filterMap_cons, Route.after_zero]
    by_cases hzero : entry.1.repetitions = some 0
    · simpa [hzero] using ih
    · simpa [hzero] using ih

variable {registry : Registry} {e : Epoch} {method path : String}

/-- A request that some behavior answers: its place joins the epoch. -/
theorem dispatch_hit (h : registry.Serves e) {b : Behavior} {place : Nat}
    (hnext : e.next method path = some (b, place)) :
    ∃ after, registry.dispatch method path =
        ⟨.ofMatch b.response, after, some place, b.isSpent (e.answered place + 1)⟩ ∧
      after.Serves (e.record place) ∧ after.generation = registry.generation := by
  obtain ⟨-, hlive⟩ := Epoch.next_accepts hnext
  obtain ⟨r, hr⟩ : ∃ r, Route.after place b (e.answered place) = some r := by
    unfold Route.after
    exact ⟨_, if_neg (by simp [hlive])⟩
  have hfind : registry.routes.find? (·.answers method path) = some r := by
    rw [h.routes, Epoch.find?_routes, hnext]
    exact hr
  obtain ⟨-, hresponse⟩ := Route.after_eq_some hr
  unfold dispatch
  rw [hfind]
  refine ⟨{ registry with routes := (e.record place).routes }, ?_, ⟨h.fallback, rfl⟩, rfl⟩
  rw [Epoch.routes_record (Epoch.next_mem hnext) hr, ← h.routes, ← Route.after_isLast hr]
  simp only [Route.after_place hr]
  rw [hresponse]

/-- A request that no behavior answers changes nothing. -/
theorem dispatch_miss (h : registry.Serves e) (hnext : e.next method path = none) :
    registry.dispatch method path = ⟨.ofFallback e.set.fallback, registry, none, false⟩ := by
  have hfind : registry.routes.find? (·.answers method path) = none := by
    rw [h.routes, Epoch.find?_routes, hnext]
    rfl
  unfold dispatch
  rw [hfind, h.fallback]

end Registry

end StubServer
