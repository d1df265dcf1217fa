import Mathlib.Data.List.Basic
import StubServer.Cookie.Cursor

/-!
# The cookie that the cursor is on

A cursor is a bare place in a list, and the list may shrink under it and grow again. `Ledger`
is the same list as one would rather keep it: every cookie has a number of its own, no number
is given twice, and the cookie that was opened last is known by its number and not by its
place. In a ledger nothing can be mistaken for anything else.

> `Agrees`: the list is the ledger without its numbers, and the number that was given last is
> found at the place of the cursor or nowhere.

Every step keeps the two in agreement (`Agrees.after`). What makes it true is that only an
opening lengthens the list, and that an opening moves the cursor along: the list never reaches
beyond the place of the cursor, so a place that was cut off is not filled again behind it.

The rest of the file says the same with the history in sight: what became of a list since the
latest opening (`run_open`, `run_idle`).
-/

namespace StubServer.Cookie.Cursor

/-! ## Runs -/

/-- What can be done to a list of cookies with a cursor. -/
inductive Step
  | openCookie (name : String)
  | modify (change : Cookie → Cookie)
  | truncate (length : Nat)

/-- Whether a step opens a cookie. -/
def Step.isOpening : Step → Bool
  | openCookie _ => true
  | _ => false

/-- A cursor and its list after a step. -/
def after (state : Cursor × List Cookie) : Step → Cursor × List Cookie
  | .openCookie name => openCookie state.2 name
  | .modify change => (state.1, state.1.modify change state.2)
  | .truncate length => (state.1, state.2.take length)

/-- A cursor and its list after a sequence of steps. -/
def afterSteps (state : Cursor × List Cookie) (steps : List Step) : Cursor × List Cookie :=
  steps.foldl after state

theorem afterSteps_cons (state : Cursor × List Cookie) (step : Step) (rest : List Step) :
    afterSteps state (step :: rest) = afterSteps (after state step) rest :=
  rfl

theorem afterSteps_append (state : Cursor × List Cookie) (before later : List Step) :
    afterSteps state (before ++ later) = afterSteps (afterSteps state before) later :=
  List.foldl_append

/-- A change to the cookie that the cursor is on, if that is the last one. -/
theorem modify_last (base : List Cookie) (c : Cookie) (change : Cookie → Cookie) :
    modify ⟨some base.length⟩ change (base ++ [c]) = base ++ [change c] :=
  List.modifyTailIdx_add _ 0 base [c]

/-! ## Ledgers -/

/-- A list of cookies that are known by their numbers. -/
structure Ledger where
  entries : List (Cookie × Nat)
  /-- The number for the next cookie. -/
  next : Nat
  /-- The number of the cookie that was opened last. -/
  latest : Option Nat := none

namespace Ledger

/-- A ledger of cookies of which none has been opened. -/
def ofCookies (cookies : List Cookie) : Ledger :=
  ⟨cookies.zipIdx, cookies.length, none⟩

/-- An entry after a change to the cookie with the latest number. -/
def entryAfter (latest : Option Nat) (change : Cookie → Cookie) (e : Cookie × Nat) :
    Cookie × Nat :=
  if some e.2 = latest then (change e.1, e.2) else e

/-- A ledger after a step. -/
def after (l : Ledger) : Step → Ledger
  | .openCookie name => ⟨l.entries ++ [({ name := name }, l.next)], l.next + 1, some l.next⟩
  | .modify change => { l with entries := l.entries.map (entryAfter l.latest change) }
  | .truncate length => { l with entries := l.entries.take length }

/-- A ledger after a sequence of steps. -/
def afterSteps (l : Ledger) (steps : List Step) : Ledger :=
  steps.foldl after l

def cookies (l : Ledger) : List Cookie :=
  l.entries.map (·.1)

/-- The cookie that was opened last, as long as it is listed. -/
def current? (l : Ledger) : Option Cookie :=
  (l.entries.find? fun e => some e.2 == l.latest).map (·.1)

/-- Changes leave the numbers alone. -/
theorem entryAfter_snd (latest : Option Nat) (change : Cookie → Cookie) (e : Cookie × Nat) :
    (entryAfter latest change e).2 = e.2 := by
  unfold entryAfter
  split <;> rfl

end Ledger

/-! ## Agreement -/

/-- The cookie with a number stands at a place of a list that ends there, or it is not in the
list and the list ends before the place. -/
structure Holds (entries : List (Cookie × Nat)) (place number : Nat) : Prop where
  length : entries.length ≤ place + 1
  number : ∀ i e, entries[i]? = some e → (e.2 = number ↔ i = place)

/-- A number that is held at a place is found there. -/
theorem Holds.find? {entries : List (Cookie × Nat)} {place number : Nat}
    (h : Holds entries place number) :
    entries.find? (fun e => some e.2 == some number) = entries[place]? := by
  cases hentry : entries[place]? with
  | none =>
    refine List.find?_eq_none.mpr fun e he => ?_
    obtain ⟨i, hi⟩ := List.mem_iff_getElem?.mp he
    have hne : e.2 ≠ number := by
      intro hnumber
      rw [(h.number i e hi).mp hnumber, hentry] at hi
      exact absurd hi (by simp)
    simpa using hne
  | some e =>
    obtain ⟨hplace, he⟩ := List.getElem?_eq_some_iff.mp hentry
    have hnumber := (h.number place e hentry).mpr rfl
    refine List.find?_eq_some_iff_getElem.mpr ⟨by simp [hnumber], place, hplace, he, ?_⟩
    intro j hj
    have hbound : j < entries.length := Nat.lt_trans hj hplace
    have hne : entries[j].2 ≠ number := by
      intro hsame
      have := (h.number j _ (List.getElem?_eq_getElem hbound)).mp hsame
      omega
    simpa using hne

/-- A cursor and its list say what a ledger says. -/
structure Agrees (state : Cursor × List Cookie) (l : Ledger) : Prop where
  cookies : state.2 = l.cookies
  increasing : l.entries.Pairwise (·.2 < ·.2)
  given : ∀ e ∈ l.entries, e.2 < l.next
  unopened : l.latest = none → state.1.place = none
  opened : ∀ number, l.latest = some number →
    ∃ place, state.1.place = some place ∧ Holds l.entries place number

theorem agrees_ofCookies (cookies : List Cookie) :
    Agrees ({}, cookies) (Ledger.ofCookies cookies) where
  cookies := (List.zipIdx_map_fst 0 cookies).symm
  increasing := by
    have hrange : (cookies.zipIdx.map (·.2)).Pairwise (· < ·) := by
      rw [List.zipIdx_map_snd]
      exact List.pairwise_lt_range'
    exact List.pairwise_map.mp hrange
  given := by
    intro e he
    have := List.snd_lt_of_mem_zipIdx he
    simpa [Ledger.ofCookies] using this
  unopened _ := rfl
  opened number h := absurd h (by simp [Ledger.ofCookies])

namespace Agrees

variable {state : Cursor × List Cookie} {l : Ledger}

theorem length (h : Agrees state l) : state.2.length = l.entries.length := by
  rw [h.cookies]
  exact List.length_map _

/-- A new cookie gets the next number and stands at the place that the cursor goes to. -/
theorem openCookie (h : Agrees state l) (name : String) :
    Agrees (after state (.openCookie name)) (l.after (.openCookie name)) where
  cookies := by
    show state.2 ++ _ = List.map _ (l.entries ++ _)
    rw [h.cookies, List.map_append]
    rfl
  increasing := by
    refine List.pairwise_append.mpr ⟨h.increasing, List.pairwise_singleton _ _, ?_⟩
    intro e he new hnew
    rw [List.mem_singleton.mp hnew]
    exact h.given e he
  given := by
    intro e he
    show e.2 < l.next + 1
    rcases List.mem_append.mp he with hold | hnew
    · have := h.given e hold
      omega
    · rw [List.mem_singleton.mp hnew]
      exact Nat.lt_succ_self _
  unopened hnone := absurd hnone (by simp [Ledger.after])
  opened := by
    intro number hnumber
    obtain rfl : l.next = number := Option.some.inj hnumber
    -- the list ends at the cursor, and nothing in it had the number before
    refine ⟨l.entries.length, congrArg some h.length, ?_, ?_⟩
    · exact Nat.le_of_eq List.length_append
    · intro i e hi
      rcases Nat.lt_trichotomy i l.entries.length with hlt | rfl | hgt
      · have hold : l.entries[i]? = some e := by
          rw [← List.getElem?_append_left hlt]
          exact hi
        have := h.given e (List.mem_of_getElem? hold)
        omega
      · have hnew : some _ = some e := List.getElem?_concat_length.symm.trans hi
        rw [← Option.some.inj hnew]
        simp
      · have hnone := List.getElem?_eq_none (l := (l.after (.openCookie name)).entries)
          (i := i) (by show List.length (_ ++ _) ≤ i; rw [List.length_append]; exact hgt)
        rw [hnone] at hi
        exact absurd hi (by simp)

/-- At the place of the cursor a change finds the cookie with the latest number. -/
theorem modify_cookies (h : Agrees state l) (change : Cookie → Cookie) :
    state.1.modify change state.2 =
      (l.entries.map (Ledger.entryAfter l.latest change)).map (·.1) := by
  rw [h.cookies, List.map_map]
  unfold Cursor.modify
  cases hlatest : l.latest with
  | none =>
    rw [h.unopened hlatest]
    exact List.map_congr_left fun e _ => by simp [Ledger.entryAfter]
  | some number =>
    obtain ⟨place, hplace, hholds⟩ := h.opened number hlatest
    rw [hplace]
    refine List.ext_getElem? fun i => ?_
    show ((l.entries.map (·.1)).modify place change)[i]? = _
    rw [List.getElem?_modify, List.getElem?_map, List.getElem?_map]
    cases hentry : l.entries[i]? with
    | none => rfl
    | some e =>
      have hnumber := hholds.number i e hentry
      by_cases hi : i = place
      · simp [Ledger.entryAfter, hi, hnumber.mpr hi]
      · have hne : e.2 ≠ number := fun he => hi (hnumber.mp he)
        simp [Ledger.entryAfter, Ne.symm hi, hne]

/-- A change goes to the cookie with the latest number. -/
theorem modify (h : Agrees state l) (change : Cookie → Cookie) :
    Agrees (after state (.modify change)) (l.after (.modify change)) where
  cookies := h.modify_cookies change
  increasing := by
    refine List.pairwise_map.mpr (h.increasing.imp ?_)
    intro a b hab
    rw [Ledger.entryAfter_snd, Ledger.entryAfter_snd]
    exact hab
  given := by
    intro e he
    obtain ⟨old, hold, rfl⟩ := List.mem_map.mp he
    rw [Ledger.entryAfter_snd]
    exact h.given old hold
  unopened := h.unopened
  opened := by
    intro number hnumber
    obtain ⟨place, hplace, hlength, hentries⟩ := h.opened number hnumber
    refine ⟨place, hplace, ?_, ?_⟩
    · show (l.entries.map _).length ≤ place + 1
      rw [List.length_map]
      exact hlength
    · intro i e hi
      have hi : (l.entries.map (Ledger.entryAfter l.latest change))[i]? = some e := hi
      rw [List.getElem?_map] at hi
      obtain ⟨old, hold, rfl⟩ := Option.map_eq_some_iff.mp hi
      rw [Ledger.entryAfter_snd]
      exact hentries i old hold

theorem truncate (h : Agrees state l) (length : Nat) :
    Agrees (after state (.truncate length)) (l.after (.truncate length)) where
  cookies := by
    show state.2.take length = List.map _ (l.entries.take length)
    rw [h.cookies, List.map_take]
    rfl
  increasing := h.increasing.sublist (List.take_sublist _ _)
  given e he := h.given e (List.mem_of_mem_take he)
  unopened := h.unopened
  opened := by
    intro number hnumber
    obtain ⟨place, hplace, hlength, hentries⟩ := h.opened number hnumber
    refine ⟨place, hplace, ?_, ?_⟩
    · show (l.entries.take length).length ≤ place + 1
      rw [List.length_take]
      omega
    · intro i e hi
      refine hentries i e ?_
      have hi : (l.entries.take length)[i]? = some e := hi
      rw [List.getElem?_take] at hi
      split at hi
      next => exact hi
      next => exact absurd hi (by simp)

/-- Every step keeps a list and its ledger in agreement. -/
theorem after (h : Agrees state l) (step : Step) : Agrees (after state step) (l.after step) := by
  cases step with
  | openCookie name => exact h.openCookie name
  | modify change => exact h.modify change
  | truncate length => exact h.truncate length

theorem afterSteps : ∀ (steps : List Step) {state : Cursor × List Cookie} {l : Ledger},
    Agrees state l → Agrees (afterSteps state steps) (l.afterSteps steps) := by
  intro steps
  induction steps with
  | nil => intro state l h; exact h
  | cons step rest ih => intro state l h; exact ih (h.after step)

/-- At the place of the cursor stands the cookie with the latest number, or none if that is
not listed. -/
theorem denotes (h : Agrees state l) :
    state.1.place.bind (l.entries[·]?) = l.entries.find? fun e => some e.2 == l.latest := by
  cases hlatest : l.latest with
  | none =>
    rw [h.unopened hlatest, List.find?_eq_none.mpr (by simp)]
    rfl
  | some number =>
    obtain ⟨place, hplace, hholds⟩ := h.opened number hlatest
    rw [hplace, hholds.find?]
    rfl

theorem current? (h : Agrees state l) : state.1.current? state.2 = l.current? := by
  rw [h.cookies]
  unfold Ledger.current?
  rw [← h.denotes]
  unfold Cursor.current? Ledger.cookies
  cases state.1.place with
  | none => rfl
  | some place => exact List.getElem?_map

/-- The cookie that the cursor is on is the last one of the list. -/
theorem eq_concat (h : Agrees state l) {c : Cookie} (hc : state.1.current? state.2 = some c) :
    ∃ base, state = (⟨some base.length⟩, base ++ [c]) := by
  obtain ⟨⟨place?⟩, cookies⟩ := state
  cases hlatest : l.latest with
  | none =>
    obtain rfl : place? = none := h.unopened hlatest
    exact absurd hc (by simp [Cursor.current?])
  | some number =>
    obtain ⟨place, hplace, hholds⟩ := h.opened number hlatest
    obtain rfl : place? = some place := hplace
    have hc : cookies[place]? = some c := hc
    obtain ⟨hlt, hget⟩ := List.getElem?_eq_some_iff.mp hc
    have hlength : cookies.length ≤ place + 1 := by
      rw [h.length]
      exact hholds.length
    refine ⟨cookies.take place, ?_⟩
    have hbase : (cookies.take place).length = place := List.length_take_of_le (Nat.le_of_lt hlt)
    have hlist : cookies = cookies.take place ++ [c] := by
      conv_lhs => rw [← List.take_append_drop place cookies, List.drop_eq_getElem_cons hlt, hget,
        List.drop_eq_nil_of_le hlength]
    rw [hbase, ← hlist]

end Agrees

/-! ## Since the latest opening -/

/-- Whether a step leaves a place in the list. -/
def Step.keeps (place : Nat) : Step → Bool
  | .truncate length => place < length
  | _ => true

/-- A cookie after a step, if the cursor is on it. -/
def changedBy (c : Cookie) : Step → Cookie
  | .modify change => change c
  | _ => c

/-- Without a cookie to go to, a change is lost. -/
theorem modify_of_none {cursor : Cursor} {cookies : List Cookie}
    (h : cursor.current? cookies = none) (change : Cookie → Cookie) :
    cursor.modify change cookies = cookies := by
  obtain ⟨place?⟩ := cursor
  cases place? with
  | none => rfl
  | some place =>
    have hplace : cookies[place]? = none := h
    refine List.ext_getElem? fun i => ?_
    show (cookies.modify place change)[i]? = _
    rw [List.getElem?_modify]
    by_cases hi : place = i
    · rw [← hi, hplace]
      rfl
    · simp [hi]

theorem current?_take {cursor : Cursor} {cookies : List Cookie}
    (h : cursor.current? cookies = none) (length : Nat) :
    cursor.current? (cookies.take length) = none := by
  obtain ⟨place?⟩ := cursor
  cases place? with
  | none => rfl
  | some place =>
    have hplace : cookies[place]? = none := h
    show (cookies.take length)[place]? = none
    rw [List.getElem?_take, hplace]
    split <;> rfl

/-- Once the cursor is on no cookie, it takes an opening to bring it to one; until then no
cookie changes. -/
theorem run_idle : ∀ (later : List Step) {state : Cursor × List Cookie},
    state.1.current? state.2 = none → (∀ step ∈ later, step.isOpening = false) →
      (afterSteps state later).1.current? (afterSteps state later).2 = none ∧
        (afterSteps state later).2 <+: state.2 := by
  intro later
  induction later with
  | nil => intro state h _; exact ⟨h, List.prefix_rfl⟩
  | cons step rest ih =>
    intro state h hlater
    have hrest := fun step hmem => hlater step (List.mem_cons_of_mem _ hmem)
    rw [afterSteps_cons]
    cases step with
    | openCookie name => exact absurd (hlater _ (List.mem_cons_self ..)) (by simp [Step.isOpening])
    | modify change =>
      have hsame : after state (.modify change) = state :=
        congrArg (Prod.mk state.1) (modify_of_none h change)
      rw [hsame]
      exact ih h hrest
    | truncate length =>
      have hcut : (after state (.truncate length)).1.current? (after state (.truncate length)).2 =
          none := current?_take h length
      obtain ⟨hcurrent, hprefix⟩ := ih hcut hrest
      exact ⟨hcurrent, hprefix.trans (List.take_prefix length state.2)⟩

/-- What becomes of the cookie that was opened last: it takes the changes until the list is
cut off at its place or before, and then the cursor is on none. The cookies before it are
never changed. -/
theorem run_open (base : List Cookie) : ∀ (later : List Step) (c : Cookie),
    (∀ step ∈ later, step.isOpening = false) →
      if later.all (·.keeps base.length) then
        afterSteps (⟨some base.length⟩, base ++ [c]) later =
          (⟨some base.length⟩, base ++ [later.foldl changedBy c])
      else
        (afterSteps (⟨some base.length⟩, base ++ [c]) later).1.current?
            (afterSteps (⟨some base.length⟩, base ++ [c]) later).2 = none ∧
          (afterSteps (⟨some base.length⟩, base ++ [c]) later).2 <+: base := by
  intro later
  induction later with
  | nil => intro c _; exact rfl
  | cons step rest ih =>
    intro c hlater
    have hrest := fun step hmem => hlater step (List.mem_cons_of_mem _ hmem)
    rw [afterSteps_cons, List.all_cons, List.foldl_cons]
    cases step with
    | openCookie name => exact absurd (hlater _ (List.mem_cons_self ..)) (by simp [Step.isOpening])
    | modify change =>
      have hchange : after (⟨some base.length⟩, base ++ [c]) (.modify change) =
          (⟨some base.length⟩, base ++ [change c]) :=
        congrArg (Prod.mk _) (modify_last base c change)
      rw [hchange]
      exact ih (change c) hrest
    | truncate length =>
      show if (decide (base.length < length) && rest.all _) = true then _ else _
      by_cases hkept : base.length < length
      · -- the list is not longer than what is kept of it
        have hsame : after (⟨some base.length⟩, base ++ [c]) (.truncate length) =
            (⟨some base.length⟩, base ++ [c]) := by
          refine congrArg (Prod.mk _) (List.take_of_length_le ?_)
          rw [List.length_append]
          exact hkept
        rw [hsame, decide_eq_true hkept, Bool.true_and]
        exact ih c hrest
      · have hle : length ≤ base.length := Nat.le_of_not_lt hkept
        have hcut : after (⟨some base.length⟩, base ++ [c]) (.truncate length) =
            (⟨some base.length⟩, base.take length) :=
          congrArg (Prod.mk _) (List.take_append_of_le_length hle)
        have hnone : (⟨some base.length⟩ : Cursor).current? (base.take length) = none := by
          show (base.take length)[base.length]? = none
          exact List.getElem?_eq_none (List.length_take_le' _ _)
        rw [hcut, decide_eq_false hkept, Bool.false_and, if_neg Bool.false_ne_true]
        obtain ⟨hcurrent, hprefix⟩ := @run_idle rest (_, base.take length) hnone hrest
        exact ⟨hcurrent, hprefix.trans (List.take_prefix length base)⟩

/-! ## The cursor over a run -/

/-- What a new cursor and a list of cookies have become after some steps. -/
structure Follows (cookies : List Cookie) (steps : List Step) (state : Cursor × List Cookie)
    (l : Ledger) : Prop where
  listed : state.2 = l.cookies
  numbers : (l.entries.map (·.2)).Nodup
  /-- The place of the cursor never comes to denote another cookie than the one with the latest
  number. -/
  denotes : state.1.place.bind (l.entries[·]?) = l.entries.find? fun e => some e.2 == l.latest
  current : state.1.current? state.2 = l.current?
  /-- Before the first opening the cursor is on none of the cookies, and none of them changes. -/
  unopened : (∀ step ∈ steps, step.isOpening = false) →
    state.1.current? state.2 = none ∧ state.2 <+: cookies
  /-- The cookie opened last takes all changes since, next to the others as they were, until
  a truncation removes it. -/
  opened : ∀ before name later, steps = before ++ .openCookie name :: later →
    (∀ step ∈ later, step.isOpening = false) →
      if later.all (·.keeps (afterSteps ({}, cookies) before).2.length) then
        state.2 = (afterSteps ({}, cookies) before).2 ++
            [later.foldl changedBy { name := name }] ∧
          state.1.current? state.2 = some (later.foldl changedBy { name := name })
      else
        state.1.current? state.2 = none ∧ state.2 <+: (afterSteps ({}, cookies) before).2
  /-- An opening appends a cookie and puts the cursor on it. -/
  opening : ∀ name, (after state (.openCookie name)).2 = state.2 ++ [{ name := name }] ∧
    (openCookie state.2 name).1.current? (openCookie state.2 name).2 = some { name := name }
  /-- A change reaches the current cookie, which is the last one, and no other. -/
  change : ∀ change, (after state (.modify change)).2 =
    match state.1.current? state.2 with
    | some c => state.2.dropLast ++ [change c]
    | none => state.2

theorem current?_concat (base : List Cookie) (c : Cookie) :
    (⟨some base.length⟩ : Cursor).current? (base ++ [c]) = some c :=
  List.getElem?_concat_length

/-- **The cursor is on the cookie that was opened last, or on none.** After any sequence of
openings, changes and truncations, the cursor denotes the cookie of the latest opening if no
truncation has removed it since, and nothing otherwise. -/
theorem follows_afterSteps (cookies : List Cookie) (steps : List Step) :
    Follows cookies steps (afterSteps ({}, cookies) steps)
      ((Ledger.ofCookies cookies).afterSteps steps) := by
  have hagrees := (agrees_ofCookies cookies).afterSteps steps
  refine ⟨hagrees.cookies, ?_, hagrees.denotes, hagrees.current?, ?_, ?_, ?_, ?_⟩
  · exact List.pairwise_map.mpr (hagrees.increasing.imp fun h => Nat.ne_of_lt h)
  · exact run_idle steps rfl
  · intro before name later hsteps hlater
    have hopen := run_open (afterSteps ({}, cookies) before).2 later { name := name } hlater
    have hstate : afterSteps ({}, cookies) steps =
        afterSteps (⟨some (afterSteps ({}, cookies) before).2.length⟩,
          (afterSteps ({}, cookies) before).2 ++ [{ name := name }]) later := by
      rw [hsteps, afterSteps_append, afterSteps_cons]
      rfl
    rw [hstate]
    by_cases hkept : later.all (·.keeps (afterSteps ({}, cookies) before).2.length) = true
    · rw [if_pos hkept] at hopen ⊢
      rw [hopen]
      exact ⟨rfl, current?_concat _ _⟩
    · rw [if_neg hkept] at hopen ⊢
      exact hopen
  · intro name
    exact ⟨rfl, current?_concat _ _⟩
  · intro change
    cases hcurrent : (afterSteps ({}, cookies) steps).1.current?
        (afterSteps ({}, cookies) steps).2 with
    | none => exact modify_of_none hcurrent change
    | some c =>
      obtain ⟨base, hbase⟩ := hagrees.eq_concat hcurrent
      rw [hbase]
      refine (modify_last base c change).trans ?_
      show _ = (base ++ [c]).dropLast ++ [change c]
      rw [List.dropLast_concat]

/-- The place of a cookie that was cut off is filled again by a third one, with a number of
its own; the change in between was lost. -/
theorem follows_afterSteps_refilled :
    let steps : List Step := [.openCookie "a", .openCookie "b", .truncate 1,
      .modify fun c => { c with value := "x" }, .openCookie "c"]
    Follows [] steps (⟨some 1⟩, [{ name := "a" }, { name := "c" }])
      ⟨[({ name := "a" }, 0), ({ name := "c" }, 2)], 3, some 2⟩ := by
  intro steps
  exact follows_afterSteps [] steps

end StubServer.Cookie.Cursor
