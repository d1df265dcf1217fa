import StubServer.Proofs.Dispatch.Epoch

/-!
# Succession: which behavior answers the k-th request of a route

The behaviors of one route take turns. The first answers until its count is used up, then
the second, and so on; a behavior without a count keeps its turn for good. `due` reads the
turn off the published set alone: with counts `n₁, n₂, …` it is the first behavior `bᵢ`
with `k ≤ n₁ + … + nᵢ`.

The registry keeps no such sums. It only knows what is left of every budget, so the
invariant of a run says how `K` requests of the route have been split among its behaviors:

> `Shared`: the first behavior took as many of them as its count allows, the next ones
> share the rest.

`Shared.find?_eq_due` turns the invariant into the next answer, `Shared.record` keeps it
over a request of the route and `Shared.congr` over everything else. The payoff is
`dispatch_publish_queries`.
-/

namespace StubServer

/-! ## The turn of a behavior -/

/-- How many requests a list of behaviors can answer together; `none` without a limit. -/
def supply : List (Behavior × Nat) → Option Nat
  | [] => some 0
  | (b, _) :: rest => b.repetitions.bind fun n => (supply rest).map (n + ·)

/-- Whether the `k`-th request is among the first `total` ones, or among all if there is
no limit. -/
def isWithin (k : Nat) (total : Option Nat) : Bool :=
  total.all fun n => k ≤ n

/-- The behavior that the `k`-th request falls to: the first one up to which the counts
add up to `k`. -/
def due (behaviors : List (Behavior × Nat)) (k : Nat) : Option (Behavior × Nat) :=
  ((List.range behaviors.length).find? fun i => isWithin k (supply (behaviors.take (i + 1)))).bind
    fun i => behaviors[i]?

/-- The behaviors of a set that requests of one route are meant for, with their places. -/
def BehaviorSet.candidates (set : BehaviorSet) (method path : String) : List (Behavior × Nat) :=
  set.behaviors.zipIdx.filter (·.1.accepts method path)

/-- Who has no count keeps its turn. -/
theorem due_cons_none {b : Behavior} (h : b.repetitions = none) (place : Nat)
    (rest : List (Behavior × Nat)) (k : Nat) : due ((b, place) :: rest) k = some (b, place) := by
  have hfirst : isWithin k (supply [(b, place)]) = true := by
    unfold supply
    rw [h]
    rfl
  unfold due
  rw [List.length_cons, List.range_succ_eq_map, List.find?_cons]
  simp [hfirst]

/-- Who has a count answers that many requests and leaves the others to the rest. -/
theorem due_cons_some {b : Behavior} {n : Nat} (h : b.repetitions = some n) (place : Nat)
    (rest : List (Behavior × Nat)) (k : Nat) :
    due ((b, place) :: rest) k = if k ≤ n then some (b, place) else due rest (k - n) := by
  have hsupply : ∀ tail, supply ((b, place) :: tail) = (supply tail).map (n + ·) := by
    intro tail
    show b.repetitions.bind _ = _
    rw [h]
    rfl
  have hfirst : isWithin k (supply [(b, place)]) = decide (k ≤ n) := by
    rw [hsupply]
    rfl
  unfold due
  rw [List.length_cons, List.range_succ_eq_map, List.find?_cons]
  simp only [Nat.zero_add, List.take_succ_cons, List.take_zero, hfirst]
  by_cases hk : k ≤ n
  · simp [hk]
  · -- with the first count taken off, the sums are those of the rest
    have hlater : ∀ i, isWithin k (supply ((b, place) :: rest.take (i + 1))) =
        isWithin (k - n) (supply (rest.take (i + 1))) := by
      intro i
      rw [hsupply]
      cases supply (rest.take (i + 1)) with
      | none => rfl
      | some m =>
        show decide (k ≤ n + m) = decide (k - n ≤ m)
        exact decide_eq_decide.mpr (by omega)
    rw [if_neg hk, decide_eq_false hk, List.find?_map, Option.bind_map]
    simp only [Function.comp_def, Nat.succ_eq_add_one, hlater, List.getElem?_cons_succ]

/-! ## How the requests of a route are shared -/

/-- The behaviors have split the first `K` requests: each took what its count allows and
left the others to those after it. What lies behind a behavior without a count was never
reached. -/
def Shared (answered : Nat → Nat) : List (Behavior × Nat) → Nat → Prop
  | [], _ => True
  | (b, place) :: rest, K =>
    match b.repetitions with
    | some n => answered place = min K n ∧ Shared answered rest (K - n)
    | none => True

namespace Shared

variable {answered answered' : Nat → Nat}

theorem cons_some {b : Behavior} {n : Nat} (h : b.repetitions = some n) (place : Nat)
    (rest : List (Behavior × Nat)) (K : Nat) :
    Shared answered ((b, place) :: rest) K ↔ answered place = min K n ∧
      Shared answered rest (K - n) := by
  rw [Shared, h]

theorem cons_none {b : Behavior} (h : b.repetitions = none) (place : Nat)
    (rest : List (Behavior × Nat)) (K : Nat) : Shared answered ((b, place) :: rest) K := by
  rw [Shared, h]
  exact trivial

/-- Nothing has been answered before the first request. -/
theorem start : ∀ (behaviors : List (Behavior × Nat)), Shared (fun _ => 0) behaviors 0
  | [] => trivial
  | (b, place) :: rest => by
    cases h : b.repetitions with
    | none => exact cons_none h place rest 0
    | some n =>
      rw [cons_some h]
      exact ⟨(Nat.zero_min n).symm, by rw [Nat.zero_sub]; exact start rest⟩

/-- Only the answers of the behaviors themselves matter. -/
theorem congr : ∀ (behaviors : List (Behavior × Nat)) {K : Nat},
    (∀ entry ∈ behaviors, answered' entry.2 = answered entry.2) →
      Shared answered behaviors K → Shared answered' behaviors K
  | [], _, _, _ => trivial
  | (b, place) :: rest, K, hsame, hK => by
    cases h : b.repetitions with
    | none => exact cons_none h place rest K
    | some n =>
      rw [cons_some h] at hK ⊢
      refine ⟨?_, congr rest (fun entry hentry => hsame entry (List.mem_cons_of_mem _ hentry)) hK.2⟩
      rw [hsame (b, place) (List.mem_cons_self ..)]
      exact hK.1

/-- The first behavior with an answer left is the one whose turn it is. -/
theorem find?_eq_due : ∀ (behaviors : List (Behavior × Nat)) {K : Nat},
    Shared answered behaviors K →
    behaviors.find? (fun entry => !entry.1.isSpent (answered entry.2)) = due behaviors (K + 1)
  | [], _, _ => rfl
  | (b, place) :: rest, K, hK => by
    rw [List.find?_cons]
    cases h : b.repetitions with
    | none =>
      rw [due_cons_none h, Behavior.isSpent_of_none h]
      rfl
    | some n =>
      rw [cons_some h] at hK
      rw [due_cons_some h, Behavior.isSpent_of_some h, hK.1]
      by_cases hn : K < n
      · rw [decide_eq_false (by omega), if_pos (by omega)]
        rfl
      · rw [decide_eq_true (by omega), if_neg (by omega), show K + 1 - n = K - n + 1 by omega]
        exact find?_eq_due rest hK.2

/-- One more request of the route: whoever answers it takes it as its share. -/
theorem record : ∀ (behaviors : List (Behavior × Nat)) {K place : Nat} {b : Behavior},
    (behaviors.map (·.2)).Nodup → Shared answered behaviors K →
      behaviors.find? (fun entry => !entry.1.isSpent (answered entry.2)) = some (b, place) →
      answered' place = answered place + 1 →
        (∀ other, other ≠ place → answered' other = answered other) →
      Shared answered' behaviors (K + 1)
  | [], _, _, _, _, _, _, _, _ => trivial
  | (c, first) :: rest, K, place, b, hnodup, hK, hfind, hself, hothers => by
    obtain ⟨hfirst, hrest⟩ := List.nodup_cons.mp hnodup
    rw [List.find?_cons] at hfind
    cases h : c.repetitions with
    | none => exact cons_none h first rest (K + 1)
    | some n =>
      rw [cons_some h] at hK ⊢
      rw [Behavior.isSpent_of_some h, hK.1] at hfind
      by_cases hn : K < n
      · -- the first behavior answers, and the others still have nothing to share
        rw [decide_eq_false (by omega)] at hfind
        obtain ⟨rfl, rfl⟩ := Prod.mk.inj (Option.some.inj hfind)
        refine ⟨by rw [hself, hK.1]; omega, ?_⟩
        rw [show K + 1 - n = K - n by omega]
        refine congr rest (fun entry hentry => hothers entry.2 fun he => hfirst ?_) hK.2
        exact List.mem_map.mpr ⟨entry, hentry, he⟩
      · -- the first behavior is spent, and the request is for the others
        rw [decide_eq_true (by omega)] at hfind
        have hmem : place ∈ rest.map (·.2) :=
          List.mem_map.mpr ⟨(b, place), List.mem_of_find?_eq_some hfind, rfl⟩
        have hne : first ≠ place := fun he => hfirst (he ▸ hmem)
        refine ⟨by rw [hothers first hne, hK.1]; omega, ?_⟩
        rw [show K + 1 - n = K - n + 1 by omega]
        exact record rest hrest hK.2 hfind hself hothers

/-- A request that finds every behavior spent leaves them so. -/
theorem miss : ∀ (behaviors : List (Behavior × Nat)) {K : Nat}, Shared answered behaviors K →
    behaviors.find? (fun entry => !entry.1.isSpent (answered entry.2)) = none →
      Shared answered behaviors (K + 1)
  | [], _, _, _ => trivial
  | (b, place) :: rest, K, hK, hfind => by
    rw [List.find?_cons] at hfind
    cases h : b.repetitions with
    | none => exact cons_none h place rest (K + 1)
    | some n =>
      rw [cons_some h] at hK ⊢
      rw [Behavior.isSpent_of_some h, hK.1] at hfind
      by_cases hn : K < n
      · rw [decide_eq_false (by omega)] at hfind
        exact absurd hfind (by simp)
      · rw [decide_eq_true (by omega)] at hfind
        refine ⟨by rw [hK.1]; omega, ?_⟩
        rw [show K + 1 - n = K - n + 1 by omega]
        exact miss rest hK.2 hfind

end Shared

/-! ## Runs of queries -/

/-- What can be asked of a registry between two publications: an answer to a request, the
list of its behaviors, their number. -/
inductive Query
  | dispatch (method path : String)
  | snapshot
  | size
  deriving DecidableEq, Repr

namespace Registry

/-- The registry after a query. -/
def afterQuery (registry : Registry) : Query → Registry
  | .dispatch method path => (registry.dispatch method path).registry
  | .snapshot => registry
  | .size => registry

/-- The registry after a sequence of queries. -/
def afterQueries (registry : Registry) (queries : List Query) : Registry :=
  queries.foldl afterQuery registry

/-- A behavior answers the requests of one route only. -/
theorem accepts_route {b : Behavior} {method path method' path' : String}
    (h : b.accepts method path = true) (h' : b.accepts method' path' = true) :
    method = method' ∧ path = path' := by
  unfold Behavior.accepts Http.Method.matchesRequest at h h'
  simp only [Bool.and_eq_true, beq_iff_eq] at h h'
  exact ⟨h.1.trans h'.1.symm, h.2.symm.trans h'.2⟩

/-- The next answer is looked for among the candidates of the route. -/
theorem next_eq_find? (e : Epoch) (method path : String) :
    e.next method path =
      (e.set.candidates method path).find? fun entry => !entry.1.isSpent (e.answered entry.2) := by
  unfold Epoch.next BehaviorSet.candidates
  rw [List.find?_filter]
  congr 1
  funext entry
  simp

theorem candidates_nodup (set : BehaviorSet) (method path : String) :
    ((set.candidates method path).map (·.2)).Nodup :=
  (Epoch.places_nodup set).sublist (List.filter_sublist.map _)

/-- A request of another route is no share in the requests of this one. -/
theorem shared_other {e : Epoch} {method path method' path' : String} {b : Behavior} {place K : Nat}
    (hnext : e.next method' path' = some (b, place)) (hne : ¬(method' = method ∧ path' = path))
    (hK : Shared e.answered (e.set.candidates method path) K) :
    Shared (e.record place).answered (e.set.candidates method path) K := by
  refine Shared.congr _ (fun entry hentry => e.answered_record_ne fun he => hne ?_) hK
  obtain ⟨hmem, haccepts⟩ := List.mem_filter.mp hentry
  obtain ⟨c, other⟩ := entry
  obtain rfl : other = place := he
  obtain rfl := Epoch.mem_zipIdx_unique hmem (Epoch.next_mem hnext)
  exact accepts_route (Epoch.next_accepts hnext).1 haccepts

/-- One query: the registry goes on serving the set, and the requests of a route stay
fairly shared. -/
theorem afterQuery_shared {registry : Registry} {e : Epoch} {method path : String} {K : Nat}
    (h : registry.Serves e) (hK : Shared e.answered (e.set.candidates method path) K) (q : Query) :
    ∃ e', e'.set = e.set ∧ (registry.afterQuery q).Serves e' ∧
      Shared e'.answered (e.set.candidates method path)
        (K + if q = .dispatch method path then 1 else 0) := by
  cases q with
  | snapshot => exact ⟨e, rfl, h, hK⟩
  | size => exact ⟨e, rfl, h, hK⟩
  | dispatch method' path' =>
    show ∃ e', e'.set = e.set ∧ (registry.dispatch method' path').registry.Serves e' ∧ _
    cases hnext : e.next method' path' with
    | none =>
      rw [dispatch_miss h hnext]
      refine ⟨e, rfl, h, ?_⟩
      by_cases hroute : method' = method ∧ path' = path
      · -- nobody answers, but the request is counted all the same
        obtain ⟨rfl, rfl⟩ := hroute
        rw [if_pos rfl]
        rw [next_eq_find?] at hnext
        exact hK.miss _ hnext
      · rw [if_neg (by simpa using hroute)]
        exact hK
    | some entry =>
      obtain ⟨b, place⟩ := entry
      obtain ⟨after, hdispatch, hafter, -⟩ := dispatch_hit h hnext
      rw [hdispatch]
      refine ⟨e.record place, rfl, hafter, ?_⟩
      by_cases hroute : method' = method ∧ path' = path
      · obtain ⟨rfl, rfl⟩ := hroute
        rw [if_pos rfl]
        rw [next_eq_find?] at hnext
        exact hK.record _ (candidates_nodup e.set method' path') hnext
          (e.answered_record_self place) fun other hother => e.answered_record_ne hother
      · rw [if_neg (by simpa using hroute)]
        exact shared_other hnext hroute hK

/-- Any number of queries: after `K` requests of a route and the queries to come, all of
its requests are shared. -/
theorem afterQueries_shared (method path : String) : ∀ (queries : List Query) {registry : Registry}
    {e : Epoch} {K : Nat}, registry.Serves e → Shared e.answered (e.set.candidates method path) K →
      ∃ e', e'.set = e.set ∧ (registry.afterQueries queries).Serves e' ∧
        Shared e'.answered (e.set.candidates method path)
          (K + queries.count (.dispatch method path)) := by
  intro queries
  induction queries with
  | nil => intro registry e K h hK; exact ⟨e, rfl, h, hK⟩
  | cons q rest ih =>
    intro registry e K h hK
    obtain ⟨e₁, hset₁, h₁, hK₁⟩ := afterQuery_shared h hK q
    rw [← hset₁] at hK₁
    obtain ⟨e₂, hset₂, h₂, hK₂⟩ := ih h₁ hK₁
    refine ⟨e₂, hset₂.trans hset₁, h₂, ?_⟩
    rw [hset₁] at hK₂
    rw [List.count_cons]
    simp only [beq_iff_eq]
    rwa [Nat.add_assoc, Nat.add_comm _ (rest.count _)] at hK₂

/-- **The dispatch law.** Publish any set in any registry, let any queries follow, and
then ask for an answer to a request: if it is the `k`-th request of its route since the
publication, it is answered by the behavior whose turn it is at `k`, with that behavior's
response and its own status, or 200 if it has none that can be sent; and with the fallback
response and 404 if the counts of the route do not add up to `k`. The place tells which of
several equal behaviors it was. -/
theorem dispatch_publish_queries (registry : Registry) (set : BehaviorSet) (queries : List Query)
    (method path : String) :
    let outcome := ((registry.publish set).afterQueries queries).dispatch method path
    let k := queries.count (.dispatch method path) + 1
    match due (set.candidates method path) k with
    | some (b, place) =>
      outcome.answer = ⟨b.response, (b.response.status.filter Dispatch.isStatus).getD 200, true⟩ ∧
        outcome.place = some place
    | none => outcome.answer = ⟨set.fallback.getD {}, 404, false⟩ ∧ outcome.place = none := by
  intro outcome k
  obtain ⟨e, hset, hserves, hshared⟩ := afterQueries_shared method path queries
    (registry.serves_publish set) (Shared.start _)
  rw [Nat.zero_add] at hshared
  -- the invariant of the run, read off at its end, is the turn of the next request
  have hnext : e.next method path = due (set.candidates method path) k := by
    rw [next_eq_find?, hset]
    exact hshared.find?_eq_due _
  cases hdue : due (set.candidates method path) k with
  | none =>
    have hdispatch : outcome = _ := dispatch_miss hserves (hnext.trans hdue)
    rw [hdispatch, hset]
    exact ⟨rfl, rfl⟩
  | some entry =>
    obtain ⟨b, place⟩ := entry
    obtain ⟨after, hdispatch, -, -⟩ := dispatch_hit hserves (hnext.trans hdue)
    have houtcome : outcome = _ := hdispatch
    rw [houtcome]
    exact ⟨rfl, rfl⟩

/-- A behavior whose status cannot be sent answers with 200. -/
theorem not_ownStatus :
    let b : Behavior := ⟨.get, "/a", none, { status := some 1000 }⟩
    let set : BehaviorSet := { behaviors := [b] }
    due (set.candidates "GET" "/a") 1 = some (b, 0) ∧ b.response.status = some 1000 ∧
      ((Registry.publish {} set).dispatch "GET" "/a").answer = ⟨b.response, 200, true⟩ := by
  decide

/-- Two behaviors that are equal in every field still answer one request each. -/
example :
    let b : Behavior := ⟨.get, "/a", some 1, {}⟩
    [1, 2, 3].map (due [(b, 0), (b, 1)]) = [some (b, 0), some (b, 1), none] := by
  decide

end Registry

end StubServer
