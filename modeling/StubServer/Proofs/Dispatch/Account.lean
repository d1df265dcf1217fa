import StubServer.Proofs.Dispatch.Succession
import StubServer.Service.Basic

/-!
# The account of a registry over a whole run

`Epoch` explains the registry since its last publication. This file follows a run of any
number of publications and queries and keeps the epochs of all of them, so that the
numbers that outlive a set can be explained too: the generation, the gauge, and the
counter of exhausted behaviors.

The epochs of a run (`Service.chronicle`) are made of observations only: a publication
opens an epoch, and a request adds the place that its outcome names. `Balanced` is what
the state owes to them at every point. The one entry that a request changes in the books
is found by `countP_change`; with it `Epoch.exhausted_record` says that the counter grows
exactly when a behavior leaves the registry.
-/

namespace StubServer

/-! ## What the epochs say -/

namespace Epoch

/-- The behaviors of the set that are not used up, each with its count less its answers. -/
def listing (e : Epoch) : List RouteSummary :=
  e.set.behaviors.zipIdx.filterMap fun entry =>
    match entry.1.repetitions with
    | none => some ⟨entry.1.method, entry.1.path, none⟩
    | some n =>
      if e.answered entry.2 < n then
        some ⟨entry.1.method, entry.1.path, some (n - e.answered entry.2)⟩
      else none

/-- Whether a behavior with a count of at least one has answered exactly that often. -/
def isExhausted (e : Epoch) (entry : Behavior × Nat) : Bool :=
  match entry.1.repetitions with
  | none => false
  | some n => 1 ≤ n && e.answered entry.2 == n

/-- How many behaviors of the set are exhausted. -/
def exhausted (e : Epoch) : Nat :=
  e.set.behaviors.zipIdx.countP e.isExhausted

/-- How many behaviors are exhausted, over all epochs. -/
def exhaustedIn : List Epoch → Nat
  | [] => 0
  | e :: past => e.exhausted + exhaustedIn past

/-- The epoch that a registry is in: an empty one before the first publication. -/
def current (epochs : List Epoch) : Epoch :=
  epochs.headD ⟨{}, []⟩

/-- The epochs after a request that the behavior at a place answered, if any did. -/
def recordIn (epochs : List Epoch) (place : Option Nat) : List Epoch :=
  match place with
  | some place => epochs.modifyHead (·.record place)
  | none => epochs

/-- The routes of an epoch, listed. -/
theorem summaries_routes (e : Epoch) :
    e.routes.map (fun r => (⟨r.method, r.path, r.budget.remaining⟩ : RouteSummary)) =
      e.listing := by
  unfold routes listing
  rw [List.map_filterMap]
  refine List.filterMap_congr fun entry _ => ?_
  unfold Route.after
  cases h : entry.1.repetitions with
  | none =>
    rw [Behavior.isSpent_of_none h]
    rfl
  | some n =>
    rw [Behavior.isSpent_of_some h]
    by_cases hn : e.answered entry.2 < n
    · simp [hn, Nat.not_le.mpr hn, Budget.ofCount, Budget.remaining]
    · simp [hn, Nat.not_lt.mp hn]

/-- Nothing that is listed is used up. -/
theorem listing_remaining (e : Epoch) : ∀ r ∈ e.listing, r.remaining ≠ some 0 := by
  intro r hr
  obtain ⟨entry, -, hentry⟩ := List.mem_filterMap.mp hr
  cases h : entry.1.repetitions with
  | none =>
    rw [h] at hentry
    rw [← Option.some.inj hentry]
    simp
  | some n =>
    rw [h] at hentry
    dsimp only at hentry
    by_cases hn : e.answered entry.2 < n
    · rw [if_pos hn] at hentry
      rw [← Option.some.inj hentry]
      simp only [ne_eq, Option.some.injEq]
      omega
    · rw [if_neg hn] at hentry
      exact absurd hentry (by simp)

/-- The routes of an epoch have different places. -/
theorem routes_nodup (e : Epoch) : (e.routes.map (·.place)).Nodup := by
  have hsublist : (e.routes.map (·.place)).Sublist (e.set.behaviors.zipIdx.map (·.2)) := by
    unfold routes
    rw [List.map_filterMap]
    induction e.set.behaviors.zipIdx with
    | nil => exact List.Sublist.slnil
    | cons entry rest ih =>
      rw [List.filterMap_cons, List.map_cons]
      cases h : Route.after entry.2 entry.1 (e.answered entry.2) with
      | none => exact ih.cons _
      | some r =>
        -- a route has the place of its behavior
        show (r.place :: _).Sublist _
        rw [Route.after_place h]
        exact ih.cons_cons _
  exact (places_nodup e.set).sublist hsublist

/-- A count over entries with different places moves by one when one entry comes to count. -/
theorem countP_change {p p' : Behavior × Nat → Bool} {b : Behavior} {place : Nat} :
    ∀ {entries : List (Behavior × Nat)}, (entries.map (·.2)).Nodup → (b, place) ∈ entries →
      p (b, place) = false → (∀ entry, entry.2 ≠ place → p' entry = p entry) →
      entries.countP p' = entries.countP p + if p' (b, place) then 1 else 0 := by
  intro entries
  induction entries with
  | nil => intro _ hmem; exact absurd hmem (by simp)
  | cons entry rest ih =>
    intro hnodup hmem hold hsame
    obtain ⟨hfirst, hrest⟩ := List.nodup_cons.mp hnodup
    rw [List.countP_cons, List.countP_cons]
    rcases List.mem_cons.mp hmem with rfl | hin
    · have hothers : rest.countP p' = rest.countP p := by
        refine List.countP_congr fun other hother => ?_
        rw [hsame other fun he => hfirst (List.mem_map.mpr ⟨other, hother, he⟩)]
      rw [hothers, hold]
      rfl
    · have hne : entry.2 ≠ place := fun he =>
        hfirst (List.mem_map.mpr ⟨(b, place), hin, he.symm⟩)
      rw [ih hrest hin hold hsame, hsame entry hne]
      omega

/-- An answer exhausts the behavior that gave it when it was its last, and no other. -/
theorem exhausted_record {e : Epoch} {b : Behavior} {place : Nat}
    (hmem : (b, place) ∈ e.set.behaviors.zipIdx) (hlive : b.isSpent (e.answered place) = false) :
    (e.record place).exhausted = e.exhausted +
      if b.isSpent (e.answered place + 1) then 1 else 0 := by
  -- with an answer left it is not exhausted; after the answer it is if that was the last
  have hnow : e.isExhausted (b, place) = false ∧
      (e.record place).isExhausted (b, place) = b.isSpent (e.answered place + 1) := by
    unfold isExhausted
    simp only [answered_record_self]
    cases h : b.repetitions with
    | none => exact ⟨rfl, (Behavior.isSpent_of_none h _).symm⟩
    | some n =>
      rw [Behavior.isSpent_of_some h, decide_eq_false_iff_not] at hlive
      rw [Behavior.isSpent_of_some h]
      refine ⟨by simp; omega, ?_⟩
      rw [Bool.eq_iff_iff]
      simp only [Bool.and_eq_true, decide_eq_true_eq, beq_iff_eq]
      omega
  unfold exhausted
  rw [← hnow.2]
  refine countP_change (places_nodup e.set) hmem hnow.1 fun entry hentry => ?_
  unfold isExhausted
  rw [answered_record_ne e hentry]

end Epoch

/-! ## What a request leaves alone -/

namespace Registry

variable (registry : Registry) (method path : String)

/-- Charging the route at a place leaves the others as they are. -/
theorem chargeAt_others (place : Nat) (routes : List Route) :
    (Route.chargeAt place routes).filter (·.place != place) = routes.filter (·.place != place) := by
  induction routes with
  | nil => rfl
  | cons r rest ih =>
    show ((if r.place = place then r.charged else r) :: Route.chargeAt place rest).filter _ = _
    rw [List.filter_cons, List.filter_cons, ih]
    by_cases h : r.place = place
    · simp [h, Route.charged]
    · simp [h]

/-- The routes that did not answer are the same after a request, in the same order. -/
theorem dispatch_others :
    (registry.dispatch method path).registry.routes.filter
        (fun r => some r.place != (registry.dispatch method path).place) =
      registry.routes.filter (fun r => some r.place != (registry.dispatch method path).place) := by
  unfold dispatch
  cases registry.routes.find? (·.answers method path) with
  | none => rfl
  | some r =>
    have hplaces : ∀ routes : List Route, routes.filter (fun q => some q.place != some r.place) =
        routes.filter (·.place != r.place) := by
      intro routes
      refine List.filter_congr fun q _ => ?_
      simp [bne]
    dsimp only
    rw [hplaces, hplaces]
    split
    next =>
      unfold Route.retireAt
      rw [List.filter_filter]
      simp only [Bool.and_self]
      exact chargeAt_others r.place registry.routes
    next => exact chargeAt_others r.place registry.routes

/-- As long as no behavior leaves it, a registry keeps its size. -/
theorem dispatch_size (h : (registry.dispatch method path).retired = false) :
    (registry.dispatch method path).registry.size = registry.size := by
  unfold dispatch at h ⊢
  split
  next r hfind =>
    rw [hfind] at h
    have hlast : r.isLast = false := h
    show (if r.isLast = true then _ else _ : List Route).length = _
    rw [hlast, if_neg (by simp)]
    exact List.length_map _
  next => rfl

end Registry

/-! ## Runs of calls -/

/-- What can happen to a registry: a publication or a query. -/
inductive Call
  | publish (set : BehaviorSet)
  | query (q : Query)
  deriving DecidableEq, Repr

/-- The set that a call publishes. -/
def Call.published? : Call → Option BehaviorSet
  | .publish set => some set
  | .query _ => none

namespace Service

/-- The service after a call. -/
def afterCall (s : Service) : Call → Service
  | .publish set => s.publish set
  | .query (.dispatch method path) => (s.dispatch method path).2
  | .query _ => s

/-- The epochs after a call: a publication opens one, and an answer is recorded in the
current one under the place that the outcome of the request names. -/
def noted (s : Service) (epochs : List Epoch) : Call → List Epoch
  | .publish set => ⟨set, []⟩ :: epochs
  | .query (.dispatch method path) => Epoch.recordIn epochs (s.registry.dispatch method path).place
  | .query _ => epochs

/-- The service after a sequence of calls. -/
def afterCalls (s : Service) (calls : List Call) : Service :=
  calls.foldl afterCall s

/-- The epochs after a sequence of calls, the current one first. -/
def chronicle (s : Service) (epochs : List Epoch) : List Call → List Epoch
  | [] => epochs
  | call :: rest => (s.afterCall call).chronicle (s.noted epochs call) rest

/-- The state is what the epochs say. -/
structure Balanced (s : Service) (epochs : List Epoch) : Prop where
  serves : s.registry.Serves (Epoch.current epochs)
  generation : s.registry.generation = epochs.length
  gauge : epochs ≠ [] → s.metrics.active = some s.registry.size
  exhausted : s.metrics.count .exhausted = Epoch.exhaustedIn epochs
  bounded : ∀ e ∈ epochs, ∀ b place n, (b, place) ∈ e.set.behaviors.zipIdx →
    b.repetitions = some n → e.answered place ≤ n

theorem balanced_start : Balanced {} [] := by
  refine ⟨⟨rfl, rfl⟩, rfl, ?_, rfl, ?_⟩
  · intro h; exact absurd rfl h
  · intro e he; exact absurd he (by simp)

/-- A publication opens an epoch in which nothing has been answered. -/
theorem balanced_publish {s : Service} {epochs : List Epoch} (h : s.Balanced epochs)
    (set : BehaviorSet) :
    (s.publish set).Balanced (⟨set, []⟩ :: epochs) := by
  refine ⟨s.registry.serves_publish set, ?_, fun _ => rfl, ?_, ?_⟩
  · show s.registry.generation + 1 = _
    rw [h.generation, List.length_cons]
  · show s.metrics.count .exhausted = _
    have hnew : Epoch.exhausted ⟨set, []⟩ = 0 := by
      unfold Epoch.exhausted
      rw [List.countP_eq_zero]
      intro entry _
      unfold Epoch.isExhausted
      cases entry.1.repetitions with
      | none => simp
      | some n =>
        show ¬(decide (1 ≤ n) && (0 == n)) = true
        simp only [Bool.and_eq_true, decide_eq_true_eq, beq_iff_eq]
        omega
    rw [h.exhausted]
    show _ = Epoch.exhausted ⟨set, []⟩ + Epoch.exhaustedIn epochs
    rw [hnew, Nat.zero_add]
  · intro e he b place n hmem hn
    rcases List.mem_cons.mp he with rfl | hpast
    · exact Nat.zero_le n
    · exact h.bounded e hpast b place n hmem hn

/-- A request is recorded in the current epoch if a behavior answers it, and changes
nothing otherwise. -/
theorem balanced_dispatch {s : Service} {epochs : List Epoch} (h : s.Balanced epochs)
    (method path : String) :
    (s.dispatch method path).2.Balanced (s.noted epochs (.query (.dispatch method path))) := by
  show Balanced _ (Epoch.recordIn epochs (s.registry.dispatch method path).place)
  cases hnext : (Epoch.current epochs).next method path with
  | none =>
    have hmiss := Registry.dispatch_miss h.serves hnext
    have hsame : (s.dispatch method path).2 = s := by
      unfold dispatch
      rw [hmiss]
      rfl
    rw [hmiss, hsame]
    exact h
  | some entry =>
    obtain ⟨b, place⟩ := entry
    cases epochs with
    | nil => exact absurd hnext (by simp [Epoch.current, Epoch.next])
    | cons e past =>
      obtain ⟨after, hdispatch, hafter, hgeneration⟩ := Registry.dispatch_hit h.serves hnext
      have hmem : (b, place) ∈ e.set.behaviors.zipIdx := Epoch.next_mem hnext
      have hlive : b.isSpent (e.answered place) = false := (Epoch.next_accepts hnext).2
      rw [hdispatch]
      show Balanced _ (e.record place :: past)
      have hregistry : (s.dispatch method path).2.registry = after := by
        unfold dispatch
        rw [hdispatch]
      have hmetrics : (s.dispatch method path).2.metrics =
          if b.isSpent (e.answered place + 1) then (s.metrics.setActive after.size).bump .exhausted
          else s.metrics := by
        unfold dispatch
        rw [hdispatch]
        rfl
      refine ⟨by rw [hregistry]; exact hafter, ?_, fun _ => ?_, ?_, ?_⟩
      · rw [hregistry, hgeneration, h.generation]
        rfl
      · -- the gauge is only set when a behavior leaves, and without that the size stays
        rw [hregistry, hmetrics]
        cases hspent : b.isSpent (e.answered place + 1) with
        | true => rfl
        | false =>
          have hsize := s.registry.dispatch_size method path (by rw [hdispatch]; exact hspent)
          rw [hdispatch] at hsize
          rw [hsize]
          exact h.gauge (by simp)
      · have hcount : s.metrics.count .exhausted = e.exhausted + Epoch.exhaustedIn past :=
        h.exhausted
        show _ = (e.record place).exhausted + Epoch.exhaustedIn past
        rw [Epoch.exhausted_record hmem hlive, hmetrics]
        cases b.isSpent (e.answered place + 1) with
        | true =>
          rw [if_pos rfl, if_pos rfl, Metrics.count_bump, if_pos rfl]
          show s.metrics.count .exhausted + 1 = _
          omega
        | false =>
          rw [if_neg (by simp), if_neg (by simp)]
          exact hcount
      · intro e' he' b' other n hother hn
        rcases List.mem_cons.mp he' with rfl | hpast
        · by_cases hplace : other = place
          · subst hplace
            obtain rfl := Epoch.mem_zipIdx_unique hmem hother
            -- the count was not reached before, so one more answer does not exceed it
            have hleft : ¬n ≤ e.answered other := by
              rw [← decide_eq_false_iff_not, ← Behavior.isSpent_of_some hn]
              exact hlive
            rw [Epoch.answered_record_self]
            omega
          · rw [Epoch.answered_record_ne e hplace]
            exact h.bounded e (List.mem_cons_self ..) b' other n hother hn
        · exact h.bounded e' (List.mem_cons_of_mem _ hpast) b' other n hother hn

theorem balanced_afterCall {s : Service} {epochs : List Epoch} (h : s.Balanced epochs)
    (call : Call) :
    (s.afterCall call).Balanced (s.noted epochs call) := by
  cases call with
  | publish set => exact balanced_publish h set
  | query q =>
    cases q with
    | dispatch method path => exact balanced_dispatch h method path
    | snapshot => exact h
    | size => exact h

theorem balanced_afterCalls : ∀ (calls : List Call) {s : Service} {epochs : List Epoch},
    s.Balanced epochs →
    (s.afterCalls calls).Balanced (s.chronicle epochs calls) := by
  intro calls
  induction calls with
  | nil => intro s epochs h; exact h
  | cons call rest ih => intro s epochs h; exact ih (balanced_afterCall h call)

/-- The epochs are those of the published sets, in the order of their publication. -/
theorem chronicle_sets : ∀ (calls : List Call) (s : Service) (epochs : List Epoch),
    (s.chronicle epochs calls).map (·.set) =
      (calls.filterMap Call.published?).reverse ++ epochs.map (·.set) := by
  intro calls
  induction calls with
  | nil => intro s epochs; rfl
  | cons call rest ih =>
    intro s epochs
    show (chronicle (s.afterCall call) (s.noted epochs call) rest).map (·.set) = _
    rw [ih]
    cases call with
    | publish set =>
      rw [List.filterMap_cons]
      simp [noted, Call.published?]
    | query q =>
      have hsets : (s.noted epochs (.query q)).map (·.set) = epochs.map (·.set) := by
        cases q with
        | dispatch method path =>
          show (Epoch.recordIn epochs (s.registry.dispatch method path).place).map (·.set) = _
          cases (s.registry.dispatch method path).place with
          | none => rfl
          | some place => cases epochs <;> rfl
        | snapshot => rfl
        | size => rfl
      rw [hsets]
      rfl

/-! ## The account -/

/-- What a request may do to a registry: one route answers it and is charged or leaves,
everything else stays as it is. -/
structure TouchesOne (s : Service) (e : Epoch) (method path : String) : Prop where
  /-- The answer is that of the behavior at the place of the outcome, for a request meant
  for it. -/
  answer : ∀ place, (s.registry.dispatch method path).place = some place →
    ∃ b, e.set.behaviors[place]? = some b ∧ b.accepts method path = true ∧
      (s.registry.dispatch method path).answer = .ofMatch b.response
  /-- Without a behavior that answers, the registry does not change at all. -/
  unanswered : (s.registry.dispatch method path).place = none →
    (s.registry.dispatch method path).registry = s.registry
  /-- Whoever did not answer is still there, as before and in the same order. -/
  others : (s.registry.dispatch method path).registry.routes.filter
      (fun r => some r.place != (s.registry.dispatch method path).place) =
    s.registry.routes.filter (fun r => some r.place != (s.registry.dispatch method path).place)
  generation : (s.registry.dispatch method path).registry.generation = s.registry.generation
  fallback : (s.registry.dispatch method path).registry.fallback = s.registry.fallback

/-- What holds of a service after a run of calls, in terms of its epochs. -/
structure Account (s : Service) (calls : List Call) (epochs : List Epoch) : Prop where
  /-- There is an epoch for each published set, the last one first. -/
  sets : epochs.map (·.set) = (calls.filterMap Call.published?).reverse
  /-- The snapshot lists what is not used up of the last set. -/
  snapshot : s.registry.summaries = (Epoch.current epochs).listing
  /-- No behavior answers more often than its count says. -/
  bounded : ∀ e ∈ epochs, ∀ (b : Behavior) (place n : Nat), e.set.behaviors[place]? = some b →
    b.repetitions = some n → e.answered place ≤ n
  live : ∀ r ∈ s.registry.summaries, r.remaining ≠ some 0
  size : s.registry.size = s.registry.summaries.length
  isEmpty : s.registry.isEmpty = true ↔ s.registry.size = 0
  generation : s.registry.generation = (calls.filterMap Call.published?).length
  gauge : calls.filterMap Call.published? ≠ [] → s.metrics.active = some s.registry.size
  exhausted : s.metrics.count .exhausted = Epoch.exhaustedIn epochs
  /-- No two routes are the same. -/
  places : (s.registry.routes.map (·.place)).Nodup
  request : ∀ method path, s.TouchesOne (Epoch.current epochs) method path

theorem touchesOne_of_balanced {s : Service} {epochs : List Epoch} (h : s.Balanced epochs)
    (method path : String) : s.TouchesOne (Epoch.current epochs) method path := by
  have hothers := s.registry.dispatch_others method path
  cases hnext : (Epoch.current epochs).next method path with
  | none =>
    have hmiss := Registry.dispatch_miss h.serves hnext
    refine ⟨?_, fun _ => by rw [hmiss], hothers, by rw [hmiss], by rw [hmiss]⟩
    intro place hplace
    rw [hmiss] at hplace
    exact absurd hplace (by simp)
  | some entry =>
    obtain ⟨b, place⟩ := entry
    obtain ⟨after, hdispatch, hafter, hgeneration⟩ := Registry.dispatch_hit h.serves hnext
    refine ⟨?_, ?_, hothers, by rw [hdispatch]; exact hgeneration, ?_⟩
    · intro place' hplace
      rw [hdispatch] at hplace ⊢
      obtain rfl : place = place' := Option.some.inj hplace
      exact ⟨b, List.mk_mem_zipIdx_iff_getElem?.mp (Epoch.next_mem hnext),
        (Epoch.next_accepts hnext).1, rfl⟩
    · intro hplace
      rw [hdispatch] at hplace
      exact absurd hplace (by simp)
    · rw [hdispatch]
      exact hafter.fallback.trans h.serves.fallback.symm

/-- **The account of every run.** After any sequence of publications and queries the
registry lists exactly what the answers so far have left of the last published set, and
the generation, the gauge and the counter of exhausted behaviors agree with the history of
all sets. -/
theorem account_afterCalls (calls : List Call) :
    Account (afterCalls {} calls) calls (chronicle {} [] calls) := by
  have h := balanced_afterCalls calls balanced_start
  -- the epochs are the published sets, so what is said of the epochs is said of the calls
  have hsets := chronicle_sets calls {} []
  rw [List.map_nil, List.append_nil] at hsets
  have hlength : (chronicle {} [] calls).length = (calls.filterMap Call.published?).length := by
    rw [← List.length_map (·.set), hsets, List.length_reverse]
  have hsummaries : (afterCalls {} calls).registry.summaries =
      (Epoch.current (chronicle {} [] calls)).listing := by
    unfold Registry.summaries
    rw [h.serves.routes]
    exact Epoch.summaries_routes _
  refine ⟨hsets, hsummaries, ?_, ?_, ?_, ?_, ?_, ?_, h.exhausted, ?_, ?_⟩
  · intro e he b place n hb hn
    exact h.bounded e he b place n (List.mk_mem_zipIdx_iff_getElem?.mpr hb) hn
  · rw [hsummaries]
    exact Epoch.listing_remaining _
  · exact (List.length_map _).symm
  · unfold Registry.isEmpty
    exact beq_iff_eq
  · rw [h.generation, hlength]
  · intro hpublished
    refine h.gauge fun hnone => hpublished ?_
    rw [hnone] at hlength
    exact List.eq_nil_of_length_eq_zero hlength.symm
  · rw [h.serves.routes]
    exact Epoch.routes_nodup _
  · exact touchesOne_of_balanced h

end Service

end StubServer
