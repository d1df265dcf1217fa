import StubServer.Proofs.Behavior.WellFormed

/-!
# Which fields a reply has

A reply is put together in three turns: the configured headers, the cookies, and what the kind of
the body demands. The first and the last turn replace what stands under the name, the second
adds to it, and each leaves out what cannot be sent. Name by name, little of this is left:

> `values_fieldsOf`: under each name stands what the kind of the body demands; if it demands
> nothing there, the configured value, and after it the cookies if the name is theirs.

The table of headers is looked up by name only, so it does not matter in which order it is gone
through, as long as no name stands in it twice. The names may be in any mix of cases, and any
texts, for a table that was not compiled from a file can hold what cannot be sent.
-/

namespace StubServer.Http

/-- A name as it is compared: the case of its letters does not count. -/
def nameKey (text : String) : List Char :=
  text.toList.map Char.toLower

theorem toList_of_fieldName? {text name : String} (h : fieldName? text = some name) :
    name.toList = nameKey text := by
  obtain ⟨-, hname⟩ := Option.ite_none_right_eq_some.mp h
  rw [← Option.some.inj hname, String.toList_ofList]
  rfl

/-! ## Fields that are set one after the other -/

namespace Fields

variable {name : String}

/-- A name that none of them has keeps its values. -/
theorem values_setAll_of_notMem : ∀ (demanded : Fields) {fields : Fields},
    name ∉ demanded.map (·.1) → (fields.setAll demanded).values name = fields.values name
  | [], _, _ => rfl
  | f :: rest, fields, hname => by
    obtain ⟨hfirst, hrest⟩ := not_or.mp (fun hin => hname (List.mem_cons.mpr hin))
    show ((fields.set f.1 f.2).setAll rest).values name = _
    rw [values_setAll_of_notMem rest hrest, values_set_ne hfirst]

/-- What stands under a name in the end depends only on what stood there. -/
theorem values_setAll_congr : ∀ (demanded : Fields) {fields fields' : Fields},
    fields.values name = fields'.values name →
      (fields.setAll demanded).values name = (fields'.setAll demanded).values name
  | [], _, _, h => h
  | f :: rest, fields, fields', h => by
    refine values_setAll_congr rest ?_
    by_cases hname : name = f.1
    · rw [hname, values_set_self, values_set_self]
    · rw [values_set_ne hname, values_set_ne hname, h]

end Fields

namespace Reply

/-! ## Configured headers -/

/-- No name stands twice in a table, in whatever case. -/
def HasDistinctNames (table : List (String × String)) : Prop :=
  (table.map fun h => nameKey h.1).Nodup

instance (table : List (String × String)) : Decidable (HasDistinctNames table) :=
  inferInstanceAs (Decidable (List.Nodup _))

/-- What a table configures under a field name, if it can be sent. -/
def configured? (table : List (String × String)) (name : String) : Option String :=
  (table.find? fun h => fieldName? h.1 == some name && isFieldValue h.2).map (·.2)

section Configured

variable {table table' : List (String × String)} {name value : String}

/-- There is one header for a field name. -/
theorem eq_of_fieldName? (hdistinct : HasDistinctNames table) {h h' : String × String}
    (hmem : h ∈ table) (hmem' : h' ∈ table) (hname : fieldName? h.1 = some name)
    (hname' : fieldName? h'.1 = some name) : h = h' := by
  refine List.inj_on_of_nodup_map hdistinct hmem hmem' ?_
  rw [← toList_of_fieldName? hname, ← toList_of_fieldName? hname']

theorem configured?_eq_some_iff (hdistinct : HasDistinctNames table) :
    configured? table name = some value ↔
      ∃ h ∈ table, fieldName? h.1 = some name ∧ isFieldValue h.2 = true ∧ h.2 = value := by
  unfold configured?
  rw [Option.map_eq_some_iff]
  constructor
  · rintro ⟨h, hfind, rfl⟩
    have hlegal := List.find?_some hfind
    rw [Bool.and_eq_true, beq_iff_eq] at hlegal
    exact ⟨h, List.mem_of_find?_eq_some hfind, hlegal.1, hlegal.2, rfl⟩
  · rintro ⟨h, hmem, hname, hvalue, rfl⟩
    cases hfind : table.find? fun h => fieldName? h.1 == some name && isFieldValue h.2 with
    | none => exact absurd (List.find?_eq_none.mp hfind h hmem) (by simp [hname, hvalue])
    | some h' =>
      have hlegal := List.find?_some hfind
      rw [Bool.and_eq_true, beq_iff_eq] at hlegal
      obtain rfl := eq_of_fieldName? hdistinct (List.mem_of_find?_eq_some hfind) hmem hlegal.1 hname
      exact ⟨h', rfl, rfl⟩

/-- The order of a table does not show. -/
theorem configured?_perm (hdistinct : HasDistinctNames table) (hperm : table'.Perm table)
    (name : String) : configured? table' name = configured? table name := by
  have hdistinct' : HasDistinctNames table' := (hperm.map _).nodup_iff.mpr hdistinct
  refine Option.ext fun value => ?_
  rw [configured?_eq_some_iff hdistinct, configured?_eq_some_iff hdistinct']
  simp only [hperm.mem_iff]

/-- A header replaces what stands under its name, if it can be sent. -/
theorem values_putConfigured (fields : Fields) (text value name : String) :
    (putConfigured fields text value).values name =
      if fieldName? text = some name ∧ isFieldValue value = true then [value]
      else fields.values name := by
  unfold putConfigured
  cases hname : fieldName? text with
  | none => simp
  | some field =>
    dsimp only
    by_cases hvalue : isFieldValue value = true
    · rw [if_pos hvalue]
      by_cases hsame : field = name
      · rw [if_pos ⟨congrArg some hsame, hvalue⟩, hsame, Fields.values_set_self]
      · rw [if_neg (fun h => hsame (Option.some.inj h.1)), Fields.values_set_ne (Ne.symm hsame)]
    · rw [if_neg hvalue, if_neg (fun h => hvalue h.2)]

/-- So a table without a name that stands twice is looked up under each name. -/
theorem values_foldl_putConfigured : ∀ {table : List (String × String)} (fields : Fields)
    (name : String), HasDistinctNames table →
      (table.foldl (fun fields h => putConfigured fields h.1 h.2) fields).values name =
        ((configured? table name).map ([·])).getD (fields.values name)
  | [], _, _, _ => rfl
  | h :: rest, fields, name, hdistinct => by
    obtain ⟨hfirst, hrest⟩ := List.nodup_cons.mp hdistinct
    rw [List.foldl_cons, values_foldl_putConfigured _ name hrest, values_putConfigured]
    by_cases hlegal : fieldName? h.1 = some name ∧ isFieldValue h.2 = true
    · -- no later header has this name
      have hlater : configured? rest name = none := by
        refine Option.eq_none_iff_forall_ne_some.mpr fun value hvalue => hfirst ?_
        obtain ⟨h', hmem, hname, -, -⟩ := (configured?_eq_some_iff hrest).mp hvalue
        exact List.mem_map.mpr ⟨h', hmem,
          (toList_of_fieldName? hname).symm.trans (toList_of_fieldName? hlegal.1)⟩
      rw [hlater, if_pos hlegal]
      unfold configured?
      rw [List.find?_cons_of_pos (by simp [hlegal])]
      rfl
    · rw [if_neg hlegal]
      unfold configured?
      rw [List.find?_cons_of_neg (by simpa using hlegal)]

end Configured

/-! ## The kind of the body -/

/-- The fields that the kind of the body demands, as far as they can be sent. -/
def demanded (r : Response) : Fields :=
  (kindFields r).filter fun f => isFieldValue f.2

theorem putKind_eq (r : Response) (fields : Fields) :
    putKind r fields = fields.setAll (demanded r) := by
  unfold putKind demanded kindFields
  cases r.redirect with
  | some target =>
    dsimp only
    rw [List.filter_singleton]
    cases isFieldValue target <;> rfl
  | none => cases r.stream <;> rfl

section Kinds

variable {r : Response}

theorem demanded_redirect {target : String} (hredirect : r.redirect = some target)
    (htarget : isFieldValue target = true) : demanded r = [("location", target)] := by
  unfold demanded kindFields
  rw [hredirect]
  exact List.filter_cons_of_pos htarget

theorem demanded_stream (hredirect : r.redirect = none) (hstream : r.stream = true) :
    demanded r = [("content-type", "text/event-stream"), ("cache-control", "no-cache")] := by
  unfold demanded kindFields
  rw [hredirect, hstream]
  rfl

/-- A redirect demands nothing but a location, and not even this if its target cannot be sent. -/
theorem name_of_demanded_redirect (hredirect : r.redirect.isSome = true) {name : String}
    (hname : name ∈ (demanded r).map (·.1)) : name = "location" := by
  obtain ⟨target, htarget⟩ := Option.isSome_iff_exists.mp hredirect
  obtain ⟨f, hf, rfl⟩ := List.mem_map.mp hname
  have hkind := List.mem_of_mem_filter hf
  unfold kindFields at hkind
  rw [htarget] at hkind
  rw [List.mem_singleton.mp hkind]

end Kinds

/-! ## All fields -/

/-- Before the last turn, a name has its configured value, and the cookies if it is theirs. -/
theorem values_beforeKind {r : Response} (hdistinct : HasDistinctNames r.headers) (name : String) :
    Fields.values (r.cookies.foldl putCookie
        (r.headers.foldl (fun fields h => putConfigured fields h.1 h.2) [])) name =
      (configured? r.headers name).toList ++
        if name = "set-cookie" then (r.cookies.map (·.line)).filter isFieldValue else [] := by
  have hsendable : (r.cookies.filter (·.isSendable)).map (·.line) =
      (r.cookies.map (·.line)).filter isFieldValue := by
    rw [List.filter_map]
    exact congrArg (List.map _) (List.filter_congr fun c _ => (Cookie.isFieldValue_line c).symm)
  rw [foldl_putCookie, Fields.values_append, values_foldl_putConfigured [] name hdistinct,
    values_cookieFields, hsendable]
  cases configured? r.headers name <;> rfl

/-- **What stands under each name.** -/
theorem values_fieldsOf {r : Response} (hdistinct : HasDistinctNames r.headers) {name : String}
    (hname : name ∉ (demanded r).map (·.1)) :
    (fieldsOf r).values name = (configured? r.headers name).toList ++
      if name = "set-cookie" then (r.cookies.map (·.line)).filter isFieldValue else [] := by
  unfold fieldsOf
  rw [putKind_eq, Fields.values_setAll_of_notMem _ hname, values_beforeKind hdistinct]

/-- The order of the headers does not show. -/
theorem values_fieldsOf_perm {r : Response} (hdistinct : HasDistinctNames r.headers)
    {headers : List (String × String)} (hperm : headers.Perm r.headers) (name : String) :
    (fieldsOf { r with headers := headers }).values name = (fieldsOf r).values name := by
  have hdistinct' : HasDistinctNames headers := (hperm.map _).nodup_iff.mpr hdistinct
  have hbefore := values_beforeKind (r := { r with headers := headers }) hdistinct' name
  dsimp only at hbefore
  rw [configured?_perm hdistinct hperm, ← values_beforeKind hdistinct] at hbefore
  unfold fieldsOf
  rw [putKind_eq, putKind_eq]
  exact Fields.values_setAll_congr _ hbefore

/-- The fields of a reply, name by name, and the body of a redirect. -/
structure Rendered (r : Response) (reply : Reply) : Prop where
  /-- The cookies that can be sent stand in their order after a configured field of that name. -/
  cookies : reply.fields.values "set-cookie" = (configured? r.headers "set-cookie").toList ++
    (r.cookies.map (·.line)).filter isFieldValue
  /-- The target of a redirect is the only location, if it can be sent. -/
  location : ∀ target, r.redirect = some target → isFieldValue target = true →
    reply.fields.values "location" = [target]
  /-- A stream is announced as one, whatever was configured. -/
  announced : r.redirect = none → r.stream = true →
    reply.fields.values "content-type" = ["text/event-stream"] ∧
      reply.fields.values "cache-control" = ["no-cache"]
  /-- Where the kind of the body demands nothing, the configured value stands, if there is one. -/
  configured : ∀ name, name ≠ "set-cookie" → name ∉ (demanded r).map (·.1) →
    reply.fields.values name = (configured? r.headers name).toList
  /-- A redirect has no body and is not announced as a stream, even if it is one as well. -/
  redirected : r.redirect.isSome = true → reply.body = .empty ∧
    ∀ name, name ≠ "set-cookie" → name ≠ "location" →
      reply.fields.values name = (configured? r.headers name).toList

theorem rendered {r : Response} (hdistinct : HasDistinctNames r.headers) (status : Nat)
    (matched : Bool) : Rendered r (render ⟨r, status, matched⟩) := by
  have hconfigured : ∀ name, name ≠ "set-cookie" → name ∉ (demanded r).map (·.1) →
      (fieldsOf r).values name = (configured? r.headers name).toList := by
    intro name hcookie hname
    rw [values_fieldsOf hdistinct hname, if_neg hcookie, List.append_nil]
  constructor
  case configured => exact hconfigured
  case cookies =>
    show (fieldsOf r).values "set-cookie" = _
    unfold fieldsOf
    rw [values_putKind_cookie, values_beforeKind hdistinct, if_pos rfl]
  case location =>
    intro target hredirect htarget
    show (fieldsOf r).values "location" = _
    unfold fieldsOf
    rw [putKind_eq, demanded_redirect hredirect htarget]
    exact Fields.values_set_self
  case announced =>
    intro hredirect hstream
    show (fieldsOf r).values "content-type" = _ ∧ (fieldsOf r).values "cache-control" = _
    unfold fieldsOf
    rw [putKind_eq, demanded_stream hredirect hstream]
    exact ⟨(Fields.values_set_ne (by decide)).trans Fields.values_set_self, Fields.values_set_self⟩
  case redirected =>
    intro hredirect
    refine ⟨?_, fun name hcookie hlocation => ?_⟩
    · show bodyOf r = .empty
      unfold bodyOf
      rw [if_pos hredirect]
    · exact hconfigured name hcookie fun hmem => hlocation (name_of_demanded_redirect hredirect hmem)

/-- **The fields of a reply.** If no name is configured twice, a reply has under each name what its
kind of body demands, or else the configured value, with the cookies after it under their name,
and of all these only what can be sent. In which order the headers are gone through does not
matter. -/
theorem render_fields (d : Dispatch) (hdistinct : HasDistinctNames d.response.headers) :
    Rendered d.response (render d) ∧
      ∀ headers, headers.Perm d.response.headers → ∀ name,
        (render { d with response := { d.response with headers := headers } }).fields.values name =
          (render d).fields.values name :=
  ⟨rendered hdistinct d.status d.matched, fun _ hperm name => values_fieldsOf_perm hdistinct hperm name⟩

/-- A redirect that is a stream as well, over a table with a name that cannot be sent, a location
and a field for cookies, gone through from its end. -/
theorem render_fields_redirect :
    let r : Response :=
      { headers := [("Content-Type", "a/b"), ("bad name", "x"), ("LOCATION", "/old"),
          ("Set-Cookie", "x=1")]
        cookies := [{ name := "c" }, { name := "d", value := "\x01" }]
        body := some "hi", redirect := some "/new", stream := true }
    HasDistinctNames r.headers ∧ Rendered r (render ⟨r, 302, true⟩) ∧
      (render ⟨{ r with headers := r.headers.reverse }, 302, true⟩).fields.values "location" =
        ["/new"] := by
  intro r
  have hdistinct : HasDistinctNames r.headers := by decide +kernel
  have hrendered := render_fields ⟨r, 302, true⟩ hdistinct
  refine ⟨hdistinct, hrendered.1, ?_⟩
  exact (hrendered.2 _ (List.reverse_perm _) "location").trans (hrendered.1.location _ rfl (by decide))

end Reply

end StubServer.Http
