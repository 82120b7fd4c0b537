import Mathlib.Data.List.Induction
import Mathlib.Data.List.Nodup
import TokenTable.Fields

/-! # Fields written one after another

Of the values that are written under one name only the last stays (`lookup_writeFields`). So no
value is lost exactly when no name is written twice (`length_writeFields_iff`), and then the fields
are what was written, in order (`writeFields_eq_self_iff`).
-/

namespace TokenTable

variable {α : Type}

/-- The fields after some are written one after another. -/
def writeFields (written : List (String × α)) : List (String × α) :=
  written.foldl (fun done field => upsertField field.1 field.2 done) []

theorem writeFields_concat (written : List (String × α)) (field : String × α) :
    writeFields (written ++ [field]) = upsertField field.1 field.2 (writeFields written) := by
  rw [writeFields, List.foldl_append]
  rfl

/-- A write keeps the names in place, and adds its own behind them if it is new. -/
theorem names_upsertField (name : String) (value : α) (fields : List (String × α)) :
    (upsertField name value fields).map Prod.fst =
      if name ∈ fields.map Prod.fst then fields.map Prod.fst
      else fields.map Prod.fst ++ [name] := by
  induction fields with
  | nil => rfl
  | cons field rest ih =>
      obtain ⟨n, v⟩ := field
      by_cases found : n = name
      · subst found
        simp [upsertField]
      · have apart : name ≠ n := Ne.symm found
        rw [upsertField, if_neg found, List.map_cons, ih, List.map_cons]
        by_cases later : name ∈ rest.map Prod.fst
        · rw [if_pos later, if_pos (List.mem_cons_of_mem _ later)]
        · rw [if_neg later, if_neg (by simp [apart, later]), List.cons_append]

/-- A name that is new to the first fields is written among those behind them. -/
theorem upsertField_append_of_fresh {name : String} (value : α) {first : List (String × α)}
    (second : List (String × α)) (fresh : name ∉ first.map Prod.fst) :
    upsertField name value (first ++ second) = first ++ upsertField name value second := by
  induction first with
  | nil => rfl
  | cons field rest ih =>
      obtain ⟨n, v⟩ := field
      rw [List.map_cons, List.mem_cons, not_or] at fresh
      rw [List.cons_append, upsertField, if_neg (Ne.symm fresh.1), ih fresh.2, List.cons_append]

theorem upsertField_of_fresh {name : String} (value : α) {fields : List (String × α)}
    (fresh : name ∉ fields.map Prod.fst) :
    upsertField name value fields = fields ++ [(name, value)] := by
  have written := upsertField_append_of_fresh value [] fresh
  rwa [List.append_nil] at written

theorem mem_names_writeFields (name : String) (written : List (String × α)) :
    name ∈ (writeFields written).map Prod.fst ↔ name ∈ written.map Prod.fst := by
  induction written using List.reverseRecOn with
  | nil => rfl
  | append_singleton written field ih =>
      rw [writeFields_concat, names_upsertField, List.map_append, List.mem_append, ← ih,
        List.map_singleton, List.mem_singleton]
      by_cases known : field.1 ∈ (writeFields written).map Prod.fst
      · rw [if_pos known]
        refine ⟨Or.inl, ?_⟩
        rintro (old | rfl)
        · exact old
        · exact known
      · rw [if_neg known, List.mem_append, List.mem_singleton]

theorem nodup_names_writeFields (written : List (String × α)) :
    ((writeFields written).map Prod.fst).Nodup := by
  induction written using List.reverseRecOn with
  | nil => exact List.nodup_nil
  | append_singleton written field ih =>
      rw [writeFields_concat, names_upsertField]
      by_cases known : field.1 ∈ (writeFields written).map Prod.fst
      · rwa [if_pos known]
      · rw [if_neg known]
        rw [← List.concat_eq_append]
        exact ih.concat known

/-- A name holds the last value that was written under it. -/
theorem lookup_writeFields (name : String) (written : List (String × α)) :
    (writeFields written).lookup name = written.reverse.lookup name := by
  induction written using List.reverseRecOn with
  | nil => rfl
  | append_singleton written field ih =>
      rw [writeFields_concat, List.reverse_append, List.reverse_singleton, List.singleton_append]
      obtain ⟨n, v⟩ := field
      by_cases found : name = n
      · subst found
        rw [lookup_upsertField, List.lookup_cons_self]
      · have apart : (name == n) = false := beq_eq_false_iff_ne.mpr found
        rw [lookup_upsertField_of_ne _ _ _ _ found, ih, List.lookup_cons, apart]

theorem length_upsertField (name : String) (value : α) (fields : List (String × α)) :
    (upsertField name value fields).length =
      if name ∈ fields.map Prod.fst then fields.length else fields.length + 1 := by
  rw [← List.length_map (f := Prod.fst), names_upsertField]
  split
  · rw [List.length_map]
  · rw [List.length_append, List.length_map, List.length_singleton]

theorem length_writeFields_le (written : List (String × α)) :
    (writeFields written).length ≤ written.length := by
  induction written using List.reverseRecOn with
  | nil => exact Nat.le_refl 0
  | append_singleton written field ih =>
      rw [writeFields_concat, length_upsertField, List.length_append, List.length_singleton]
      split
      · omega
      · omega

/-- There are as many fields as were written exactly when no name was written twice. -/
theorem length_writeFields_iff (written : List (String × α)) :
    (writeFields written).length = written.length ↔ (written.map Prod.fst).Nodup := by
  induction written using List.reverseRecOn with
  | nil => simp [writeFields]
  | append_singleton written field ih =>
      have fewer := length_writeFields_le written
      rw [writeFields_concat, length_upsertField, List.length_append, List.length_singleton,
        List.map_append, List.map_singleton]
      by_cases known : field.1 ∈ written.map Prod.fst
      · rw [if_pos ((mem_names_writeFields _ _).mpr known)]
        rw [← List.concat_eq_append, List.nodup_concat]
        exact ⟨fun same => absurd same (by omega), fun distinct => absurd known distinct.1⟩
      · rw [if_neg (mt (mem_names_writeFields _ _).mp known), Nat.add_right_cancel_iff, ih]
        rw [← List.concat_eq_append, List.nodup_concat, and_iff_right known]

theorem writeFields_eq_self_iff (written : List (String × α)) :
    writeFields written = written ↔ (written.map Prod.fst).Nodup := by
  constructor
  · intro same
    rw [← same]
    exact nodup_names_writeFields written
  · intro distinct
    induction written using List.reverseRecOn with
    | nil => rfl
    | append_singleton written field ih =>
        rw [List.map_append, List.map_singleton, ← List.concat_eq_append, List.nodup_concat]
          at distinct
        rw [writeFields_concat, ih distinct.2, upsertField_of_fresh _ distinct.1]

/-- Under distinct names, a name holds the value of the field with that name. -/
theorem lookup_eq_some_iff_mem {fields : List (String × α)} (distinct : (fields.map Prod.fst).Nodup)
    (name : String) (value : α) : fields.lookup name = some value ↔ (name, value) ∈ fields := by
  induction fields with
  | nil => simp
  | cons field rest ih =>
      obtain ⟨n, v⟩ := field
      rw [List.map_cons, List.nodup_cons] at distinct
      by_cases found : name = n
      · subst found
        have elsewhere : (name, value) ∉ rest := fun later =>
          distinct.1 (List.mem_map.mpr ⟨_, later, rfl⟩)
        rw [List.lookup_cons_self, List.mem_cons, or_iff_left elsewhere, Prod.mk.injEq,
          Option.some.injEq]
        simp [eq_comm]
      · have apart : (name == n) = false := beq_eq_false_iff_ne.mpr found
        have other : (name, value) ≠ (n, v) := fun same => found (congrArg Prod.fst same)
        rw [List.lookup_cons, apart, List.mem_cons, or_iff_right other, ← ih distinct.2]

/-- Under distinct names, it does not matter in which order the fields stand. -/
theorem lookup_eq_of_perm {fields others : List (String × α)} (perm : fields.Perm others)
    (distinct : (fields.map Prod.fst).Nodup) (name : String) :
    fields.lookup name = others.lookup name := by
  have distinctOthers : (others.map Prod.fst).Nodup := (perm.map Prod.fst).nodup_iff.mp distinct
  apply Option.ext
  intro value
  rw [lookup_eq_some_iff_mem distinct, lookup_eq_some_iff_mem distinctOthers, perm.mem_iff]

/-- Under distinct names, of the fields that pass a test a name holds what it held, if that field
passes. -/
theorem lookup_filter {fields : List (String × α)} (distinct : (fields.map Prod.fst).Nodup)
    (test : String × α → Bool) (name : String) :
    (fields.filter test).lookup name =
      (fields.lookup name).filter fun value => test (name, value) := by
  have kept : ((fields.filter test).map Prod.fst).Nodup :=
    distinct.sublist (List.filter_sublist.map _)
  apply Option.ext
  intro value
  rw [lookup_eq_some_iff_mem kept, List.mem_filter, Option.filter_eq_some_iff,
    lookup_eq_some_iff_mem distinct]

/-- Values that are mapped are found under the names where the values were. -/
theorem lookup_mapValues {β : Type} (f : α → β) (fields : List (String × α)) (name : String) :
    (fields.map fun field => (field.1, f field.2)).lookup name = (fields.lookup name).map f := by
  induction fields with
  | nil => rfl
  | cons field rest ih =>
      obtain ⟨n, value⟩ := field
      rw [List.map_cons, List.lookup_cons, List.lookup_cons]
      cases name == n with
      | true => rfl
      | false => exact ih

end TokenTable
