import StubServer.Proofs.Behavior.Compiled
import StubServer.Proofs.BehaviorFile.Lines
import StubServer.Proofs.Dispatch.Epoch

/-!
# Routes as they are declared

A header names a method and a path, and one would expect requests with that method and that
path to be answered. They are, unless the path ends in a bracket:

> `declared_route`: the route of a header has its method and its `servedPath`, which is the
> path as it was written if and only if that does not end in a bracket.

Brackets come off twice. The reader of the file takes off the pair that makes a line a
header (`Line.ofText_header`); the compiler then takes any brackets off either end of what
was between them (`routeOf_header`), and a path that ends in a bracket loses it there.
-/

namespace StubServer

open BehaviorFile (kept)

/-! ## Methods in any mix of cases -/

/-- A letter of the English alphabet. -/
def isLetter (c : Char) : Bool :=
  (65 ≤ c.toNat && c.toNat ≤ 90) || (97 ≤ c.toNat && c.toNat ≤ 122)

section Letters

variable {c : Char}

/-- A character whose upper case is a letter is one itself. -/
theorem isLetter_of_toUpper (h : isLetter c.toUpper = true) : isLetter c = true := by
  unfold Char.toUpper at h
  split at h
  next hlower =>
    simp only [UInt32.le_iff_toNat_le] at hlower
    change 97 ≤ c.toNat ∧ c.toNat ≤ 122 at hlower
    simp only [isLetter, Bool.or_eq_true, Bool.and_eq_true, decide_eq_true_eq]
    exact Or.inr hlower
  next => exact h

theorem isBracket_of_isLetter (h : isLetter c = true) : isBracket c = false := by
  refine Bool.eq_false_iff.mpr fun hc => ?_
  simp only [isBracket, Bool.or_eq_true, beq_iff_eq] at hc
  rcases hc with rfl | rfl
  · exact absurd h (by decide)
  · exact absurd h (by decide)

theorem isBlank_of_isLetter (h : isLetter c = true) : Text.isBlank c = false := by
  simp only [isLetter, Bool.or_eq_true, Bool.and_eq_true, decide_eq_true_eq] at h
  simp only [Text.isBlank, Text.inRanges, Text.blankRanges, List.any_cons, List.any_nil,
    Bool.or_eq_false_iff, Bool.and_eq_false_iff, decide_eq_false_iff_not, and_true]
  omega

end Letters

namespace Http.Method

variable {m : Method} {word : String}

theorem ofText?_of_toUpper (h : word.toList.map Char.toUpper = m.text.toList) :
    ofText? word = some m := by
  have hstandard := ofText?_text m
  unfold ofText? at hstandard ⊢
  rw [h]
  cases m <;> rfl

/-- A method is a word of letters, whatever their case. -/
theorem isLetter_of_mem (h : word.toList.map Char.toUpper = m.text.toList) :
    ∀ c ∈ word.toList, isLetter c = true := by
  intro c hc
  have hupper : m.text.toList.all isLetter = true := by cases m <;> rfl
  refine isLetter_of_toUpper (List.all_eq_true.mp hupper _ ?_)
  rw [← h]
  exact List.mem_map_of_mem hc

/-- A method begins with a letter. -/
theorem head?_of_toUpper (h : word.toList.map Char.toUpper = m.text.toList) :
    ∃ c, word.toList.head? = some c ∧ isLetter c = true := by
  cases hword : word.toList with
  | nil =>
    rw [hword] at h
    cases m <;> cases h
  | cons c rest => exact ⟨c, rfl, isLetter_of_mem h c (hword ▸ List.mem_cons_self ..)⟩

end Http.Method

/-! ## Paths without their brackets -/

/-- The path of a header as it is served: without the brackets at its end, and without the
blanks before these. -/
def servedPath (path : String) : String :=
  kept (withoutBrackets path.toList)

section Brackets

variable {cs : List Char}

theorem withoutBrackets_of_head (h : ∀ c ∈ cs.head?, isBracket c = false) :
    withoutBrackets cs = cs.rdropWhile isBracket := by
  have hstart : cs.dropWhile isBracket = cs := by
    cases cs with
    | nil => rfl
    | cons c rest => exact List.dropWhile_cons_of_neg (by simp [h c rfl])
  unfold withoutBrackets
  rw [hstart]
  rfl

/-- The end of a text that has something to keep can be dealt with by itself. -/
theorem rdropWhile_append {p : Char → Bool} (xs : List Char) {ys : List Char}
    (h : ys.rdropWhile p ≠ []) : (xs ++ ys).rdropWhile p = xs ++ ys.rdropWhile p := by
  unfold List.rdropWhile at h ⊢
  have hkeeps : ¬(ys.reverse.dropWhile p).isEmpty = true := by simpa using h
  rw [List.reverse_append, List.dropWhile_append, if_neg hkeeps, List.reverse_append,
    List.reverse_reverse]

end Brackets

/-! ## Names of sections -/

section Names

variable {path word : String} {m : Http.Method}

/-- The brackets of a path are all at its end. -/
theorem withoutBrackets_path (hslash : path.toList.head? = some '/') :
    withoutBrackets path.toList = path.toList.rdropWhile isBracket := by
  refine withoutBrackets_of_head fun c hc => ?_
  rw [hslash] at hc
  rw [← Option.some.inj hc]
  decide

/-- A path loses nothing if and only if it does not end in a bracket. -/
theorem servedPath_eq_self_iff (hslash : path.toList.head? = some '/')
    (htrim : Text.trim path.toList = path.toList) :
    servedPath path = path ↔ path.toList.getLast?.any isBracket = false := by
  unfold servedPath kept
  rw [withoutBrackets_path hslash]
  constructor
  · intro h
    have hsame : Text.trim (path.toList.rdropWhile isBracket) = path.toList := by
      conv => rhs; rw [← h, String.toList_ofList]
    -- a bracket at the end would make what is kept shorter
    rcases List.eq_nil_or_concat path.toList with hnil | ⟨front, c, hconcat⟩
    · rw [hnil]
      rfl
    · rw [hconcat, List.concat_eq_append] at hsame ⊢
      rw [List.getLast?_concat]
      refine Bool.eq_false_iff.mpr fun hc => ?_
      rw [List.rdropWhile_concat_pos isBracket front c hc] at hsame
      have hlength := congrArg List.length hsame
      have htrimmed := Text.length_trim_le (front.rdropWhile isBracket)
      have hdropped := (List.rdropWhile_prefix isBracket (l := front)).length_le
      rw [List.length_append, List.length_singleton] at hlength
      omega
  · intro h
    have hkept : path.toList.rdropWhile isBracket = path.toList := by
      refine List.rdropWhile_eq_self_iff.mpr fun hne => ?_
      rw [List.getLast?_eq_some_getLast hne] at h
      simpa using h
    rw [hkept, htrim, String.ofList_toList]

/-- The brackets of a name are those of its path. -/
theorem withoutBrackets_name (hword : word.toList.map Char.toUpper = m.text.toList)
    (hslash : path.toList.head? = some '/') :
    withoutBrackets (word.toList ++ ' ' :: path.toList) =
      word.toList ++ ' ' :: withoutBrackets path.toList := by
  obtain ⟨first, hfirst, hfirstLetter⟩ := Http.Method.head?_of_toUpper hword
  have hkept : path.toList.rdropWhile isBracket ≠ [] := by
    intro hnil
    have hhead := Text.head?_rdropWhile hslash (p := isBracket) (by decide)
    rw [hnil] at hhead
    cases hhead
  rw [withoutBrackets_path hslash, withoutBrackets_of_head, List.append_cons,
    rdropWhile_append _ hkept, List.append_assoc]
  · rfl
  · -- the first character is a letter of the method
    intro c hc
    rw [List.head?_append, hfirst] at hc
    rw [← Option.some.inj hc]
    exact isBracket_of_isLetter hfirstLetter

/-- The route that the name of a section with a method and a path stands for. -/
theorem routeOf_header (hword : word.toList.map Char.toUpper = m.text.toList)
    (hslash : path.toList.head? = some '/') :
    routeOf (String.ofList (word.toList ++ ' ' :: path.toList)) = .ok (m, servedPath path) := by
  have hspace : ' ' ∉ word.toList := fun h =>
    absurd (Http.Method.isLetter_of_mem hword _ h) (by decide)
  have hhead : (Text.trim (withoutBrackets path.toList)).head? = some '/' := by
    rw [withoutBrackets_path hslash]
    exact Text.head?_trim (Text.head?_rdropWhile hslash (by decide)) (by decide)
  -- the first space is the one after the method, which has none
  unfold routeOf
  rw [String.toList_ofList, withoutBrackets_name hword hslash, Text.cut_append hspace]
  simp only [hhead, if_true, String.ofList_toList, Http.Method.ofText?_of_toUpper hword]
  rfl

/-- A name with a method and a path is kept as it is written. -/
theorem kept_header (hword : word.toList.map Char.toUpper = m.text.toList)
    (hslash : path.toList.head? = some '/') (htrim : Text.trim path.toList = path.toList) :
    kept (word.toList ++ ' ' :: path.toList) =
      String.ofList (word.toList ++ ' ' :: path.toList) := by
  obtain ⟨first, hfirst, hfirstLetter⟩ := Http.Method.head?_of_toUpper hword
  obtain ⟨rest, hrest⟩ := List.head?_eq_some_iff.mp hslash
  have hlast : (word.toList ++ ' ' :: path.toList).getLast? = path.toList.getLast? := by
    rw [List.append_cons, List.getLast?_append_of_ne_nil _ (by rw [hrest]; simp)]
  refine congrArg String.ofList (Text.trim_eq_self ?_ ?_)
  · intro c hc
    rw [List.head?_append, hfirst] at hc
    rw [← Option.some.inj hc]
    exact isBlank_of_isLetter hfirstLetter
  · intro c hc
    rw [hlast, ← htrim] at hc
    exact Text.getLast?_trim c hc

end Names

/-! ## Whole files -/

/-- A file with one section beside an empty implicit one has the behavior of its route. -/
theorem BehaviorSet.compile_single {now : Time.Instant} {name path : String} {m : Http.Method}
    (hname : name ≠ BehaviorFile.defaultName) (hroute : routeOf name = .ok (m, path)) :
    compile now [⟨BehaviorFile.defaultName, 0, []⟩, ⟨name, 1, []⟩] =
      .ok { fallback := some {}, behaviors := [⟨m, path, none, {}⟩] } := by
  have hbehavior : Behavior.ofSection now ⟨name, 1, []⟩ = .ok ⟨m, path, none, {}⟩ := by
    unfold Behavior.ofSection
    rw [hroute]
    rfl
  have hadd : add now { fallback := some {} } ⟨name, 1, []⟩ =
      .ok { fallback := some {}, behaviors := [⟨m, path, none, {}⟩] } := by
    unfold add
    rw [if_neg hname]
    exact bind_eq_ok.mpr ⟨_, hbehavior, rfl⟩
  exact bind_eq_ok.mpr ⟨{ fallback := some {} }, rfl, bind_eq_ok.mpr ⟨_, hadd, rfl⟩⟩

/-- A set of one behavior without a count answers what is meant for that behavior. -/
theorem Registry.dispatch_publish_single (registry : Registry) (fallback : Option Response)
    {b : Behavior} (hcount : b.repetitions = none) (method path : String) :
    ((registry.publish ⟨fallback, [b]⟩).dispatch method path).answer.matched =
      b.accepts method path := by
  -- a behavior without a count has a route, and this grants every answer
  have hroutes : (registry.publish ⟨fallback, [b]⟩).routes = [.ofBehavior 0 b] := by
    show (([(b, 0)] : List (Behavior × Nat)).filter _).map _ = _
    rw [List.filter_cons_of_pos (by simp [hcount])]
    rfl
  have hanswers : (Route.ofBehavior 0 b).answers method path = b.accepts method path := by
    have hany := Route.after_any_answers 0 b 0 method path
    rw [Route.after_zero, if_neg (by simp [hcount]), Behavior.isSpent_of_none hcount,
      Bool.not_false, Bool.and_true] at hany
    exact hany
  unfold dispatch
  rw [hroutes, List.find?_singleton, hanswers]
  cases b.accepts method path <;> rfl

/-- **A declared route is served as it was declared, unless its path ends in a bracket.** A
file of one header, a method in any mix of cases and a path, has one behavior under either
policy. Its method is that method, and it answers at the `servedPath`; that is the path as it
was written, and requests for that are answered, if and only if it does not end in a
bracket. -/
theorem declared_route (policy : BehaviorFile.DuplicatePolicy) (now : Time.Instant)
    (registry : Registry) {word path : String} {m : Http.Method}
    (hword : word.toList.map Char.toUpper = m.text.toList)
    (hslash : path.toList.head? = some '/') (hline : '\n' ∉ path.toList)
    (htrim : Text.trim path.toList = path.toList) :
    ∃ sections set,
      BehaviorFile.ofText policy ("[" ++ word ++ " " ++ path ++ "]") = .ok sections ∧
      BehaviorSet.compile now sections = .ok set ∧
      set.behaviors = [⟨m, servedPath path, none, {}⟩] ∧
      ((registry.publish set).dispatch m.text (servedPath path)).answer.matched = true ∧
      (servedPath path = path ↔ path.toList.getLast?.any isBracket = false) ∧
      (((registry.publish set).dispatch m.text path).answer.matched = true ↔
        path.toList.getLast?.any isBracket = false) := by
  have htext : "[" ++ word ++ " " ++ path ++ "]" =
      String.ofList ('[' :: (word.toList ++ ' ' :: path.toList) ++ [']']) := by
    refine String.toList_injective ?_
    rw [String.toList_ofList]
    simp [String.toList_append]
  have hname := kept_header hword hslash htrim
  -- the space keeps the name apart from the empty one and from that of the implicit section
  have hspace : ∀ other : String, ' ' ∉ other.toList →
      String.ofList (word.toList ++ ' ' :: path.toList) ≠ other := by
    rintro other hother rfl
    rw [String.toList_ofList] at hother
    exact hother (by simp)
  have hlines : '\n' ∉ word.toList ++ ' ' :: path.toList := by
    intro hmem
    rcases List.mem_append.mp hmem with hin | hin
    · exact absurd (Http.Method.isLetter_of_mem hword _ hin) (by decide)
    · exact hline (List.mem_of_ne_of_mem (by decide) hin)
  have haccepts : ∀ other, Behavior.accepts ⟨m, servedPath path, none, {}⟩ m.text other = true ↔
      servedPath path = other := by
    intro other
    simp [Behavior.accepts, Http.Method.matchesRequest]
  have hself := servedPath_eq_self_iff hslash htrim
  refine ⟨_, _, ?_, BehaviorSet.compile_single (hspace _ (by decide))
    (routeOf_header hword hslash), rfl, ?_, hself, ?_⟩
  · rw [htext, BehaviorFile.ofText_header policy hlines, hname]
    · rw [hname]
      exact hspace _ (by decide)
    · rw [hname]
      exact hspace _ (by decide)
  · rw [Registry.dispatch_publish_single registry _ rfl]
    exact (haccepts _).mpr rfl
  · rw [Registry.dispatch_publish_single registry _ rfl]
    exact (haccepts _).trans hself

/-- A path with brackets inside it, and a method in lower case. -/
theorem declared_route_lowercase :
    ∃ sections set,
      BehaviorFile.ofText .merge ("[" ++ "get" ++ " " ++ "/a[0] =b" ++ "]") = .ok sections ∧
      BehaviorSet.compile .epoch sections = .ok set ∧
      set.behaviors = [⟨.get, servedPath "/a[0] =b", none, {}⟩] ∧
      ((Registry.publish {} set).dispatch "GET" (servedPath "/a[0] =b")).answer.matched = true ∧
      (servedPath "/a[0] =b" = "/a[0] =b" ↔ "/a[0] =b".toList.getLast?.any isBracket = false) ∧
      (((Registry.publish {} set).dispatch "GET" "/a[0] =b").answer.matched = true ↔
        "/a[0] =b".toList.getLast?.any isBracket = false) :=
  declared_route .merge .epoch {} (m := .get) (by decide) (by decide) (by decide) (by decide)

/-- A path that ends in a bracket loses it, and nothing answers where it was declared. -/
theorem not_declared_at_bracket :
    ∃ sections set,
      BehaviorFile.ofText .merge "[GET /a]]" = .ok sections ∧
      BehaviorSet.compile .epoch sections = .ok set ∧
      set.behaviors = [⟨.get, "/a", none, {}⟩] ∧
      ((Registry.publish {} set).dispatch "GET" "/a]").answer.matched = false := by
  refine ⟨[⟨"default", 0, []⟩, ⟨"GET /a]", 1, []⟩],
    { fallback := some {}, behaviors := [⟨.get, "/a", none, {}⟩] }, ?_, ?_, rfl, ?_⟩
  · decide +kernel
  · decide +kernel
  · decide +kernel

end StubServer
