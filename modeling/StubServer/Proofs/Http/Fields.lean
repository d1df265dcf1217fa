import StubServer.Http.Reply

/-!
# Lists of header fields

`Fields.values` is all that a receiver sees of a list of fields, so each operation on
lists is described here by what it does to the values of a name: to its own name, and to
any other.

Of the operations that a reply is made with only one puts a second field of a name, and it
does so for cookies. So in every rendered reply each other name stands at most once
(`fieldsOf_single`).
-/

namespace StubServer.Http

namespace Fields

variable {fields : Fields} {name other value : String}

theorem values_append (a b : Fields) : values (a ++ b) name = a.values name ++ b.values name := by
  unfold values
  rw [List.filter_append, List.map_append]

@[simp] theorem values_singleton_self : values [(name, value)] name = [value] := by
  unfold values
  rw [List.filter_cons_of_pos (by simp)]
  rfl

theorem values_singleton_ne (h : other ≠ name) : values [(name, value)] other = [] := by
  unfold values
  rw [List.filter_cons_of_neg (by simp [h.symm])]
  rfl

/-- Where no name stands twice, the values of a name are that of its first field. -/
theorem values_eq_find? : ∀ {fields : Fields}, (fields.map (·.1)).Nodup → ∀ (name : String),
    fields.values name = ((fields.find? (·.1 == name)).map (·.2)).toList
  | [], _, _ => rfl
  | (n, v) :: rest, h, name => by
    obtain ⟨hfirst, hrest⟩ := List.nodup_cons.mp h
    have ih := values_eq_find? hrest name
    by_cases hname : n = name
    · -- no later field has this name
      have hlater : rest.find? (·.1 == name) = none := by
        refine List.find?_eq_none.mpr fun f hmem hsame => hfirst ?_
        exact List.mem_map.mpr ⟨f, hmem, (eq_of_beq hsame).trans hname.symm⟩
      rw [hlater] at ih
      unfold values at ih ⊢
      rw [List.filter_cons_of_pos (by simp [hname]), List.find?_cons_of_pos (by simp [hname]),
        List.map_cons, ih]
      rfl
    · unfold values at ih ⊢
      rw [List.filter_cons_of_neg (by simp [hname]), List.find?_cons_of_neg (by simp [hname]), ih]

/-- A name has a field when it has a value. -/
theorem has_eq : fields.has name = (fields.values name != []) := by
  induction fields with
  | nil => rfl
  | cons h rest ih =>
    unfold has at ih ⊢
    unfold values at ih ⊢
    rw [List.any_cons, List.filter_cons, ih]
    by_cases hname : (h.1 == name) = true
    · rw [if_pos hname, hname]
      rfl
    · rw [if_neg hname, Bool.eq_false_iff.mpr hname]
      rfl

/-! ## Setting and adding -/

theorem values_add_ne (h : other ≠ name) : (fields.add name value).values other =
    fields.values other := by
  unfold add
  rw [values_append, values_singleton_ne h, List.append_nil]

@[simp] theorem values_set_self : (fields.set name value).values name = [value] := by
  have hgone : values (fields.filter (·.1 != name)) name = [] := by
    unfold values
    rw [List.filter_filter, List.map_eq_nil_iff, List.filter_eq_nil_iff]
    intro h _
    simp
  unfold set
  rw [values_append, hgone, values_singleton_self]
  rfl

theorem values_set_ne (h : other ≠ name) : (fields.set name value).values other =
    fields.values other := by
  have hkept : values (fields.filter (·.1 != name)) other = fields.values other := by
    unfold values
    rw [List.filter_filter]
    congr 1
    refine List.filter_congr fun entry _ => ?_
    by_cases hentry : entry.1 = other
    · simp [hentry, h]
    · simp [hentry]
  unfold set
  rw [values_append, hkept, values_singleton_ne h, List.append_nil]

theorem values_setIfMissing_ne (h : other ≠ name) :
    (fields.setIfMissing name value).values other = fields.values other := by
  unfold setIfMissing
  split
  next => rfl
  next => exact values_add_ne h

/-- A field that was missing is put at the end. -/
theorem setIfMissing_eq : fields.setIfMissing name value =
    fields ++ if fields.values name = [] then [(name, value)] else [] := by
  unfold setIfMissing
  rw [has_eq]
  by_cases h : fields.values name = []
  · rw [if_neg (by simp [h]), if_pos h]
    rfl
  · rw [if_pos (by simp [h]), if_neg h, List.append_nil]

/-! ## Single fields -/

/-- No name but that of cookies stands more than once. -/
def Single (fields : Fields) : Prop :=
  ∀ name, name ≠ "set-cookie" → (fields.values name).length ≤ 1

theorem single_nil : Single [] :=
  fun _ _ => Nat.zero_le 1

theorem Single.set (h : fields.Single) : (fields.set name value).Single := by
  intro other hother
  by_cases hname : other = name
  · rw [hname, values_set_self]
    exact Nat.le_refl 1
  · rw [values_set_ne hname]
    exact h other hother

theorem Single.addCookie (h : fields.Single) : (fields.add "set-cookie" value).Single := by
  intro other hother
  rw [values_add_ne hother]
  exact h other hother

end Fields

namespace Reply

open Fields

theorem putConfigured_single {fields : Fields} (h : fields.Single) (name value : String) :
    (putConfigured fields name value).Single := by
  unfold putConfigured
  split
  next =>
    split
    next => exact h.set
    next => exact h
  next => exact h

theorem putCookie_single {fields : Fields} (h : fields.Single) (c : Cookie) :
    (putCookie fields c).Single := by
  unfold putCookie
  split
  next => exact h.addCookie
  next => exact h

theorem putKind_single {fields : Fields} (h : fields.Single) (r : Response) :
    (putKind r fields).Single := by
  unfold putKind
  split
  next =>
    split
    next => exact h.set
    next => exact h
  next =>
    split
    next => exact h.set.set
    next => exact h

/-- In the fields of a response no name but that of cookies stands more than once. -/
theorem fieldsOf_single (r : Response) : (fieldsOf r).Single := by
  unfold fieldsOf
  -- from the outside in: the fields of the kind, the cookies, the configured fields
  refine putKind_single ?_ r
  have hconfigured : (r.headers.foldl (fun fields h => putConfigured fields h.1 h.2) []).Single :=
    by
    refine List.foldlRecOn r.headers _ single_nil ?_
    intro fields hfields h _
    exact putConfigured_single hfields h.1 h.2
  refine List.foldlRecOn r.cookies _ hconfigured ?_
  intro fields hfields c _
  exact putCookie_single hfields c

end Reply

end StubServer.Http
