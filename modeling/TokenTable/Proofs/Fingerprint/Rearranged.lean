import Mathlib.Data.List.Nodup
import Mathlib.Data.List.Perm.Basic
import TokenTable.Batch.Read
import TokenTable.Proofs.Fallible

/-! # Fingerprints of rearranged maps

A fingerprint sorts the fields of a record by their names, so records with the same fields in
another order have the same fingerprint (`fingerprint_record_of_perm`). In particular, it does not
matter in which order the names of a projection are listed (`fingerprint_project_of_perm`).
-/

namespace TokenTable

/-- A step that succeeds for all members of a list does so in another order of them, with the
results in another order. -/
theorem mapM_of_perm {ε α β : Type} {step : α → Except ε β} {items others : List α}
    {results : List β} (perm : items.Perm others) (done : items.mapM step = .ok results) :
    ∃ rearranged, others.mapM step = .ok rearranged ∧ rearranged.Perm results := by
  have each := List.perm_comp_forall₂ perm.symm (forall₂_of_mapM done)
  obtain ⟨rearranged, several, same⟩ := each
  exact ⟨rearranged, mapM_of_forall₂ several, same⟩

def entryOfField (field : String × Value) : Value × Value := (.text field.1, field.2)

/-- Fields in the order of their names. -/
def byName (fields : List (String × Value)) : List (String × Value) :=
  fields.mergeSort fun first second => !decide (second.1 < first.1)

/-- Fields under distinct names have one order. -/
theorem byName_eq_of_perm {fields others : List (String × Value)} (perm : fields.Perm others)
    (distinct : (fields.map Prod.fst).Nodup) : byName fields = byName others := by
  have sorted : ∀ fields, (byName fields).Pairwise fun first second =>
      (!decide (second.1 < first.1)) = true := by
    intro fields
    apply List.pairwise_mergeSort
    · intro a b c early late
      simp only [Bool.not_eq_true', decide_eq_false_iff_not, String.not_lt] at early late ⊢
      exact String.le_trans early late
    · intro a b
      simp only [Bool.or_eq_true, Bool.not_eq_true', decide_eq_false_iff_not, String.not_lt]
      exact String.le_total a.1 b.1
  have rearranged : (byName fields).Perm (byName others) :=
    ((List.mergeSort_perm fields _).trans perm).trans (List.mergeSort_perm others _).symm
  apply List.Perm.eq_of_pairwise _ (sorted fields) (sorted others) rearranged
  intro first second inFields inOthers early late
  simp only [Bool.not_eq_true', decide_eq_false_iff_not, String.not_lt] at early late
  have here : first ∈ fields := (List.mergeSort_perm fields _).mem_iff.mp inFields
  have there : second ∈ fields := by
    rw [perm.mem_iff]
    exact (List.mergeSort_perm others _).mem_iff.mp inOthers
  exact List.inj_on_of_nodup_map distinct here there (String.le_antisymm early late)

theorem sortMarks_entryOfField (fields : List (String × Value)) :
    sortMarks (fields.map entryOfField) =
      .ok (.tuple ((byName fields).map fun field => .tuple [.text field.1, field.2])) := by
  have names : (fields.map entryOfField).map (·.1) = (fields.map Prod.fst).map Value.text := by
    rw [List.map_map, List.map_map]
    rfl
  have line : Value.isLine ((fields.map entryOfField).map (·.1)) = true := by
    rw [names]
    exact Value.isLine_text _
  have sorted : (byName fields).map entryOfField =
      (fields.map entryOfField).mergeSort fun first second => Value.notAfter first.1 second.1 := by
    apply List.map_mergeSort
    intro first _ second _
    simp only [entryOfField, Value.notAfter, Value.before_text]
  rw [sortMarks, Value.sortOn, if_pos line, ← sorted]
  simp only [bind, Except.bind, pure, Except.pure, List.map_map]
  rfl

theorem markOf_record_singleton {name : String} {value taken : Value} (outer : Value)
    (inner : markOf (.text name) value = .ok taken) :
    markOf outer (.record [(name, value)]) = .ok (.tuple [.tuple [.text name, taken]]) := by
  have sorted := sortMarks_entryOfField [(name, taken)]
  have alone : byName [(name, taken)] = [(name, taken)] := List.mergeSort_singleton _
  rw [alone] at sorted
  have several : entryMarks [(.text name, value)] = .ok [(.text name, taken)] :=
    (bind_eq_ok_iff _ _ _).mpr ⟨taken, inner, rfl⟩
  exact (bind_eq_ok_iff _ _ _).mpr ⟨_, several, sorted⟩

theorem entryMarks_record {fields : List (String × Value)} {marks : List (Value × Value)}
    (done : entryMarks (fields.map entryOfField) = .ok marks) :
    ∃ marked : List (String × Value), marks = marked.map entryOfField ∧
      marked.map Prod.fst = fields.map Prod.fst ∧
      fields.mapM (fun field => do return (field.1, ← markOf (.text field.1) field.2)) =
        .ok marked := by
  induction fields generalizing marks with
  | nil =>
      cases done
      exact ⟨[], rfl, rfl, rfl⟩
  | cons field rest ih =>
      obtain ⟨mark, single, done⟩ := (bind_eq_ok_iff _ _ _).mp done
      obtain ⟨others, several, done⟩ := (bind_eq_ok_iff _ _ _).mp done
      cases done
      obtain ⟨marked, rfl, names, each⟩ := ih several
      refine ⟨(field.1, mark) :: marked, rfl, by rw [List.map_cons, names, List.map_cons], ?_⟩
      refine (mapM_cons_eq_ok_iff _ _ _ _).mpr ⟨(field.1, mark), marked, ?_, each, rfl⟩
      exact (bind_eq_ok_iff _ _ _).mpr ⟨mark, single, rfl⟩

theorem entryMarks_of_mapM {fields marked : List (String × Value)}
    (each : fields.mapM (fun field => do return (field.1, ← markOf (.text field.1) field.2)) =
      .ok marked) :
    entryMarks (fields.map entryOfField) = .ok (marked.map entryOfField) := by
  induction fields generalizing marked with
  | nil =>
      rw [(mapM_nil_eq_ok_iff _ _).mp each]
      rfl
  | cons field rest ih =>
      obtain ⟨first, others, single, several, same⟩ := (mapM_cons_eq_ok_iff _ _ _ _).mp each
      subst same
      obtain ⟨mark, taken, single⟩ := (bind_eq_ok_iff _ _ _).mp single
      cases single
      refine (bind_eq_ok_iff _ _ _).mpr ⟨mark, taken, ?_⟩
      exact (bind_eq_ok_iff _ _ _).mpr ⟨others.map entryOfField, ih several, rfl⟩

/-- The fingerprint of a record with distinct names does not tell the order of its fields. -/
theorem fingerprint_record_of_perm {fields others : List (String × Value)} {value : Value}
    (perm : fields.Perm others) (distinct : (fields.map Prod.fst).Nodup)
    (done : fingerprint (.record fields) = .ok value) :
    fingerprint (.record others) = .ok value := by
  obtain ⟨marks, several, done⟩ := (bind_eq_ok_iff _ _ _).mp done
  obtain ⟨marked, rfl, names, each⟩ := entryMarks_record several
  obtain ⟨rearranged, eachOther, same⟩ := mapM_of_perm perm each
  have severalOther : entryMarks (others.map entryOfField) = .ok (rearranged.map entryOfField) :=
    entryMarks_of_mapM eachOther
  have distinctMarks : (marked.map Prod.fst).Nodup := by
    rw [names]
    exact distinct
  refine (bind_eq_ok_iff _ _ _).mpr ⟨_, severalOther, ?_⟩
  rw [sortMarks_entryOfField] at done ⊢
  rw [← byName_eq_of_perm same.symm distinctMarks]
  exact done

/-- The fields of a projection: none for a name that the native lacks, and else one. -/
theorem fst_of_project (names : List String) (native : Value)
    (fields : List (List (String × Value)))
    (done : (names.mapM fun name => do
      if ← native.holds name then return [(name, ← native.index name)] else return []) =
        .ok fields) :
    (fields.flatten.map Prod.fst).Sublist names := by
  induction names generalizing fields with
  | nil =>
      rw [(mapM_nil_eq_ok_iff _ _).mp done]
      exact List.Sublist.refl _
  | cons name rest ih =>
      obtain ⟨field, others, single, several, same⟩ := (mapM_cons_eq_ok_iff _ _ _ _).mp done
      subst same
      have later := ih others several
      obtain ⟨held, _, single⟩ := (bind_eq_ok_iff _ _ _).mp single
      rw [List.flatten_cons, List.map_append]
      cases held with
      | true =>
          obtain ⟨value, _, single⟩ := (bind_eq_ok_iff _ _ _).mp single
          cases single
          exact later.cons_cons name
      | false =>
          cases single
          exact later.cons name

/-- The fingerprint of a projection does not tell the order of the names. -/
theorem fingerprint_project_of_perm {names others : List String} {native part value : Value}
    (perm : names.Perm others) (distinct : names.Nodup)
    (projected : Batch.project names native = .ok part) (done : fingerprint part = .ok value) :
    ∃ rearranged, Batch.project others native = .ok rearranged ∧
      fingerprint rearranged = .ok value := by
  obtain ⟨fields, several, projected⟩ := (bind_eq_ok_iff _ _ _).mp projected
  cases projected
  obtain ⟨fieldsOther, severalOther, same⟩ := mapM_of_perm perm several
  refine ⟨.record fieldsOther.flatten, (bind_eq_ok_iff _ _ _).mpr ⟨_, severalOther, rfl⟩, ?_⟩
  refine fingerprint_record_of_perm same.symm.flatten ?_ done
  exact (fst_of_project names native fields several).nodup distinct

end TokenTable
