import TokenTable.Proofs.Batch.Matching
import TokenTable.Proofs.Fields
import TokenTable.Proofs.Fingerprint.Rearranged

/-! # Fingerprints of projections

The fingerprint of an item holds the marks of all its fields, and that of a projection the marks of
some of them. So items with the same fingerprint have the same key, by fingerprint, and requests
with the same fingerprint write under the same key (`keyOf_eq_of_mark_request`).
-/

namespace TokenTable

/-- The fields under some names, in the order of the names. -/
def pick {α : Type} (names : List String) (fields : List (String × α)) : List (String × α) :=
  names.filterMap fun name => (fields.lookup name).map (name, ·)

/-- The projection of a record holds the fields that it picks. -/
theorem project_record (names : List String) (fields : List (String × Value)) :
    Batch.project names (.record fields) = .ok (.record (pick names fields)) := by
  have single : ∀ name, (do
      if ← (Value.record fields).holds name then return [(name, ← (Value.record fields).index name)]
      else return [] : Except Fault (List (String × Value))) =
        .ok ((fields.lookup name).map (name, ·)).toList := by
    intro name
    rw [Value.record, Value.holds, Value.index, Value.lookup_record]
    cases fields.lookup name <;> rfl
  have several : (names.mapM fun name => do
      if ← (Value.record fields).holds name then return [(name, ← (Value.record fields).index name)]
      else return [] : Except Fault (List (List (String × Value)))) =
        .ok (names.map fun name => ((fields.lookup name).map (name, ·)).toList) := by
    apply mapM_of_forall₂
    rw [List.forall₂_map_right_iff, List.forall₂_same]
    exact fun name _ => single name
  refine (bind_eq_ok_iff _ _ _).mpr ⟨_, several, ?_⟩
  rw [pick, List.filterMap_eq_flatMap_toList]
  rfl

/-- Fields with their marks in place of their values. -/
def Marked (fields marked : List (String × Value)) : Prop :=
  fields.mapM (fun field => do return (field.1, ← markOf (.text field.1) field.2)) = .ok marked

theorem marked_cons_iff (field : String × Value) (rest marked : List (String × Value)) :
    Marked (field :: rest) marked ↔ ∃ mark others, markOf (.text field.1) field.2 = .ok mark ∧
      Marked rest others ∧ marked = (field.1, mark) :: others := by
  rw [Marked, mapM_cons_eq_ok_iff]
  constructor
  · rintro ⟨_, others, single, several, rfl⟩
    obtain ⟨mark, taken, single⟩ := (bind_eq_ok_iff _ _ _).mp single
    cases single
    exact ⟨mark, others, taken, several, rfl⟩
  · rintro ⟨mark, others, taken, several, rfl⟩
    exact ⟨_, others, (bind_eq_ok_iff _ _ _).mpr ⟨mark, taken, rfl⟩, several, rfl⟩

/-- A name holds the mark of what it held, or nothing as before. -/
theorem lookup_of_marked {fields marked : List (String × Value)} (each : Marked fields marked)
    (name : String) :
    (fields.lookup name = none ∧ marked.lookup name = none) ∨
      ∃ v mark, fields.lookup name = some v ∧ marked.lookup name = some mark ∧
        markOf (.text name) v = .ok mark := by
  induction fields generalizing marked with
  | nil =>
      rw [(mapM_nil_eq_ok_iff _ _).mp each]
      exact Or.inl ⟨rfl, rfl⟩
  | cons field rest ih =>
      obtain ⟨mark, others, taken, several, rfl⟩ := (marked_cons_iff _ _ _).mp each
      obtain ⟨n, v⟩ := field
      by_cases found : name = n
      · subst found
        exact Or.inr ⟨v, mark, List.lookup_cons_self, List.lookup_cons_self, taken⟩
      · have apart : (name == n) = false := beq_eq_false_iff_ne.mpr found
        simp only [List.lookup_cons, apart]
        exact ih several

/-- The marks of some fields are those of all fields, under their names. -/
theorem marked_pick {fields marked : List (String × Value)} (each : Marked fields marked)
    (names : List String) : Marked (pick names fields) (pick names marked) := by
  induction names with
  | nil => rfl
  | cons name rest ih =>
      rw [pick, List.filterMap_cons, pick, List.filterMap_cons]
      rcases lookup_of_marked each name with ⟨none, noMark⟩ | ⟨v, mark, held, heldMark, taken⟩
      · rw [none, noMark]
        exact ih
      · rw [held, heldMark]
        exact (marked_cons_iff _ _ _).mpr ⟨mark, pick rest marked, taken, ih, rfl⟩

/-- The fingerprint of a record depends on the marks of its fields only. -/
theorem fingerprint_of_marked {fields others marked : List (String × Value)}
    (each : Marked fields marked) (eachOther : Marked others marked) :
    fingerprint (.record fields) = fingerprint (.record others) := by
  have first : entryMarks (fields.map entryOfField) = .ok (marked.map entryOfField) :=
    entryMarks_of_mapM each
  have second : entryMarks (others.map entryOfField) = .ok (marked.map entryOfField) :=
    entryMarks_of_mapM eachOther
  have unfolded : ∀ fields, entryMarks (fields.map entryOfField) = .ok (marked.map entryOfField) →
      fingerprint (.record fields) = (do
        let mark ← sortMarks (marked.map entryOfField)
        if mark.isKey then return mark else throw .wrongShape) := by
    intro fields marking
    unfold entryOfField at marking
    rw [Value.record, fingerprint, marking]
    rfl
  rw [unfolded fields first, unfolded others second]

/-- The fingerprint of the part of a native item under the names of a key, if it has one. -/
def keyOf (names : List String) (native : Value) : Option Value :=
  (Batch.project names native).toOption.bind mark

/-- Records whose fields have the same marks, in some order, have the same keys. -/
theorem keyOf_eq_of_marked {fields others marked markedOther : List (String × Value)}
    (each : Marked fields marked) (eachOther : Marked others markedOther)
    (perm : marked.Perm markedOther) (distinct : (marked.map Prod.fst).Nodup)
    (names : List String) : keyOf names (.record fields) = keyOf names (.record others) := by
  have picked : pick names marked = pick names markedOther := by
    apply List.filterMap_congr
    intro name _
    rw [lookup_eq_of_perm perm distinct name]
  have part := marked_pick each names
  have partOther := marked_pick eachOther names
  rw [← picked] at partOther
  rw [keyOf, keyOf, project_record, project_record]
  exact congrArg (fun taken => taken.toOption.map Value.plain)
    (fingerprint_of_marked part partOther)

theorem markOf_record {name value : Value} {fields : List (String × Value)}
    (done : markOf name (.record fields) = .ok value) :
    ∃ marked, Marked fields marked ∧ marked.map Prod.fst = fields.map Prod.fst ∧
      value = .tuple ((byName marked).map fun field => .tuple [.text field.1, field.2]) := by
  obtain ⟨marks, several, done⟩ := (bind_eq_ok_iff _ _ _).mp done
  obtain ⟨marked, rfl, names, each⟩ := entryMarks_record several
  rw [sortMarks_entryOfField] at done
  cases done
  exact ⟨marked, each, names, rfl⟩

theorem perm_of_byName_tuples_eq {marked others : List (String × Value)}
    (same : (byName marked).map (fun field => Value.tuple [.text field.1, field.2]) =
      (byName others).map fun field => Value.tuple [.text field.1, field.2]) :
    marked.Perm others := by
  have injective : Function.Injective
      fun field : String × Value => Value.tuple [.text field.1, field.2] := by
    intro field other equal
    simp only [Value.tuple.injEq, List.cons.injEq, Value.text.injEq, and_true] at equal
    exact Prod.ext equal.1 equal.2
  have ordered := injective.list_map same
  have first : (byName marked).Perm marked := List.mergeSort_perm _ _
  have second : (byName others).Perm others := List.mergeSort_perm _ _
  rw [ordered] at first
  exact first.symm.trans second

/-- Records with distinct names and the same mark have the same keys. -/
theorem keyOf_eq_of_markOf {name value : Value} {fields others : List (String × Value)}
    (distinct : (fields.map Prod.fst).Nodup) (done : markOf name (.record fields) = .ok value)
    (doneOther : markOf name (.record others) = .ok value) (names : List String) :
    keyOf names (.record fields) = keyOf names (.record others) := by
  obtain ⟨marked, each, fieldNames, rfl⟩ := markOf_record done
  obtain ⟨markedOther, eachOther, _, same⟩ := markOf_record doneOther
  rw [Value.tuple.injEq] at same
  rw [← fieldNames] at distinct
  exact keyOf_eq_of_marked each eachOther (perm_of_byName_tuples_eq same) distinct names

theorem exists_of_markOf_record_singleton {outer value taken : Value} {name : String}
    (done : markOf outer (.record [(name, value)]) = .ok taken) :
    ∃ inner, markOf (.text name) value = .ok inner ∧
      taken = .tuple [.tuple [.text name, inner]] := by
  obtain ⟨marked, each, _, rfl⟩ := markOf_record done
  obtain ⟨inner, others, single, several, rfl⟩ := (marked_cons_iff _ _ _).mp each
  have none : others = [] := (mapM_nil_eq_ok_iff _ _).mp several
  subst none
  have alone : byName [(name, inner)] = [(name, inner)] := List.mergeSort_singleton _
  rw [alone]
  exact ⟨inner, single, rfl⟩

theorem mark_eq_some_iff (native taken : Value) :
    mark native = some taken ↔ ∃ value, fingerprint native = .ok value ∧ value.plain = taken := by
  rw [mark]
  cases fingerprint native with
  | error fault => simp [Except.toOption]
  | ok value => simp [Except.toOption]

/-- Requests with the same fingerprint write under the same key. -/
theorem keyOf_eq_of_mark_request {mode : Batch.Mode} {item other : NativeItem} {taken : Value}
    (wellFormed : item.WellFormed) (wellFormedOther : other.WellFormed)
    (marked : mark (mode.request item.toValue) = some taken)
    (markedOther : mark (mode.request other.toValue) = some taken) (names : List String) :
    keyOf names item.toValue = keyOf names other.toValue := by
  obtain ⟨value, done, rfl⟩ := (mark_eq_some_iff _ _).mp marked
  obtain ⟨valueOther, doneOther, same⟩ := (mark_eq_some_iff _ _).mp markedOther
  have plain : value.isPlain = true := isPlain_fingerprint_request mode item
    (fun field member => Attribute.encoded_of_wellTyped (wellFormed.typed field member)) value done
  have plainOther : valueOther.isPlain = true := isPlain_fingerprint_request mode other
    (fun field member => Attribute.encoded_of_wellTyped (wellFormedOther.typed field member))
    valueOther doneOther
  rw [Value.plain_of_isPlain _ plain, Value.plain_of_isPlain _ plainOther] at same
  subst same
  have wrapped : ∀ (outer inner : String),
      fingerprint (.record [(outer, .record [(inner, item.toValue)])]) = .ok valueOther →
      fingerprint (.record [(outer, .record [(inner, other.toValue)])]) = .ok valueOther →
      keyOf names item.toValue = keyOf names other.toValue := by
    intro outer inner done doneOther
    obtain ⟨body, bodyDone, same⟩ :=
      exists_of_markOf_record_singleton (markOf_of_fingerprint .null _ _ done)
    obtain ⟨bodyOther, bodyDoneOther, sameOther⟩ :=
      exists_of_markOf_record_singleton (markOf_of_fingerprint .null _ _ doneOther)
    obtain ⟨field, fieldDone, rfl⟩ := exists_of_markOf_record_singleton bodyDone
    obtain ⟨fieldOther, fieldDoneOther, rfl⟩ := exists_of_markOf_record_singleton bodyDoneOther
    rw [same] at sameOther
    simp only [Value.tuple.injEq, List.cons.injEq, and_true, true_and] at sameOther
    subst sameOther
    have distinct : ((item.map fun entry => (entry.1, entry.2.toNative)).map Prod.fst).Nodup := by
      rw [List.map_map]
      exact wellFormed.distinct
    exact keyOf_eq_of_markOf distinct fieldDone fieldDoneOther names
  cases mode with
  | put => exact wrapped "PutRequest" "Item" done doneOther
  | delete => exact wrapped "DeleteRequest" "Key" done doneOther

end TokenTable
