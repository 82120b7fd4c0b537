/-! # Named fields

A list of named values in which a name is written once: writing a name that is there already
changes its value and keeps its place. Main statements: `lookup_upsertField` and
`lookup_upsertField_of_ne`, which say what each name holds after a write. -/

namespace TokenTable

variable {α : Type}

/-- The fields with a value under a name; a name already there keeps its place. -/
def upsertField (name : String) (value : α) : List (String × α) → List (String × α)
  | [] => [(name, value)]
  | (n, v) :: rest =>
    if n = name then (n, value) :: rest else (n, v) :: upsertField name value rest

theorem lookup_upsertField (name : String) (value : α) (fields : List (String × α)) :
    (upsertField name value fields).lookup name = some value := by
  induction fields with
  | nil => simp [upsertField]
  | cons field rest ih =>
    obtain ⟨n, v⟩ := field
    by_cases found : n = name
    · simp [upsertField, found]
    · have other : (name == n) = false := beq_eq_false_iff_ne.mpr (Ne.symm found)
      rw [upsertField, if_neg found, List.lookup_cons, other]
      exact ih

theorem lookup_upsertField_of_ne (name other : String) (value : α) (fields : List (String × α))
    (differs : other ≠ name) :
    (upsertField name value fields).lookup other = fields.lookup other := by
  have notName : (other == name) = false := beq_eq_false_iff_ne.mpr differs
  induction fields with
  | nil => simp [upsertField, List.lookup_cons, notName]
  | cons field rest ih =>
    obtain ⟨n, v⟩ := field
    by_cases found : n = name
    · subst found
      simp [upsertField, List.lookup_cons, notName]
    · rw [upsertField, if_neg found, List.lookup_cons, List.lookup_cons, ih]

end TokenTable
