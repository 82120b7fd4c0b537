import TokenTable.Proofs.Fingerprint.Projected

/-! # Values that have fingerprints

Taking a fingerprint fails on a number that is too great for a normal form, and on a set of binary
elements that holds texts beside byte strings, which have no order. Whatever else encoding makes is
comparable and has a fingerprint (`exists_fingerprint_toValue`), and so have the requests that are
made of it and the parts of it under some names (`comparable_pick`).
-/

namespace TokenTable

namespace Value

/-- A value that spells no number, or one whose normal form does not overflow. -/
def InRange (v : Value) : Prop :=
  ∀ s d, v = .text s → Decimal.read? s = some d → d.normal ≠ .error .overflow

theorem isLine_map {α : Type} (f : α → Value) (inLine : ∀ a b, Value.inLine (f a) (f b) = true)
    (items : List α) : isLine (items.map f) = true := by
  induction items with
  | nil => rfl
  | cons a rest ih =>
      have pairs : (rest.map f).all (Value.inLine (f a)) = true := by
        rw [List.all_map, List.all_eq_true]
        exact fun b _ => inLine a b
      rw [List.map_cons, isLine, pairs, ih]
      rfl

theorem inLine_bytes (content other : List UInt8) :
    inLine (.bytes .plain content) (.bytes .plain other) = true := by
  by_cases early : content < other
  · simp [inLine, before, comparableForms, early]
  · by_cases late : other < content
    · simp [inLine, before, comparableForms, late]
    · have alike : content = other := by
        have antisymm : Std.Antisymm fun a b : UInt8 => ¬ a < b :=
          ⟨fun _ _ first second =>
            UInt8.le_antisymm (UInt8.not_lt.mp second) (UInt8.not_lt.mp first)⟩
        exact List.le_antisymm late early
      simp [inLine, before, comparableForms, same, sameAtom, alike]

theorem exists_sorted {items : List Value} (line : isLine items = true) :
    ∃ ordered, sorted items = .ok ordered := by
  rw [sorted, sortOn, List.map_id, if_pos line]
  exact ⟨_, rfl⟩

/-- Members that are all made by one function are the images of a list. -/
theorem exists_map_of_forall {α : Type} (f : α → Value) {items : List Value}
    (each : ∀ item ∈ items, ∃ a, item = f a) : ∃ origins : List α, items = origins.map f := by
  induction items with
  | nil => exact ⟨[], rfl⟩
  | cons item rest ih =>
      rw [List.forall_mem_cons] at each
      obtain ⟨a, rfl⟩ := each.1
      obtain ⟨origins, rfl⟩ := ih each.2
      exact ⟨a :: origins, rfl⟩

theorem isLine_of_texts {items : List Value} (texts : ∀ item ∈ items, ∃ s, item = .text s) :
    isLine items = true := by
  obtain ⟨ss, rfl⟩ := exists_map_of_forall .text texts
  exact isLine_text ss

theorem isLine_of_bytes {items : List Value}
    (bytes : ∀ item ∈ items, ∃ content, item = .bytes .plain content) : isLine items = true := by
  obtain ⟨contents, rfl⟩ := exists_map_of_forall (.bytes .plain) bytes
  exact isLine_map _ inLine_bytes contents

mutual

/-- Whatever is plain may be the key of a map. -/
theorem isKey_of_isPlain (v : Value) (isPlain : v.isPlain = true) : v.isKey = true := by
  cases v with
  | text s => rfl
  | bytes form content =>
      cases form with
      | plain => rfl
      | _ => cases isPlain
  | tuple items => exact allKeys_of_allPlain items isPlain
  | _ => cases isPlain
termination_by structural v

theorem allKeys_of_allPlain (vs : List Value) (arePlain : allPlain vs = true) :
    allKeys vs = true := by
  cases vs with
  | nil => rfl
  | cons v rest =>
      rw [allPlain, Bool.and_eq_true] at arePlain
      rw [allKeys, isKey_of_isPlain v arePlain.1, allKeys_of_allPlain rest arePlain.2]
      rfl
termination_by structural vs

end

end Value

/-- A typed value with a fingerprint: its numbers are in range, and a set of binary elements holds
only texts or only byte strings. -/
def Attribute.Comparable : Attribute → Prop
  | .scalar .number payload => payload.InRange
  | .set .number elements => ∀ element ∈ elements, element.InRange
  | .set .binary elements =>
    (∀ element ∈ elements, ∃ s, element = .text s) ∨
      ∀ element ∈ elements, ∃ content, element = .bytes .plain content
  | _ => True

/-- A native item whose values are of their kinds and have fingerprints. -/
structure NativeItem.Comparable (item : NativeItem) : Prop where
  typed : ∀ field ∈ item, field.2.WellTyped
  comparable : ∀ field ∈ item, field.2.Comparable

theorem NativeItem.Comparable.encoded {item : NativeItem} (comparable : item.Comparable) :
    ∀ field ∈ item, field.2.Encoded :=
  fun field member => Attribute.encoded_of_wellTyped (comparable.typed field member)

/-- A number text in range has a mark, which is a text. -/
theorem exists_numberMark {s : String} (inRange : Value.InRange (.text s)) :
    ∃ t, numberMark (.text s) = .ok (.text t) := by
  unfold numberMark
  cases read : Decimal.read? s with
  | none => exact ⟨s, by simp [Value.toDecimal, Value.number?, read]⟩
  | some d =>
      have spelled : (Value.text s).toDecimal = .ok d := by
        simp [Value.toDecimal, Value.number?, read]
      rw [spelled]
      cases normal : d.normal with
      | ok n => exact ⟨n.toText, by simp only [normal]⟩
      | error cause =>
          cases cause with
          | invalid => exact ⟨s, by simp only [normal]⟩
          | overflow => exact absurd normal (inRange s d rfl read)

theorem exists_numberMarks {items : List Value} (texts : ∀ item ∈ items, ∃ s, item = .text s)
    (inRange : ∀ item ∈ items, item.InRange) :
    ∃ marks, items.mapM numberMark = .ok marks ∧ ∀ mark ∈ marks, ∃ t, mark = .text t := by
  induction items with
  | nil => exact ⟨[], rfl, fun _ member => by cases member⟩
  | cons item rest ih =>
      rw [List.forall_mem_cons] at texts inRange
      obtain ⟨s, rfl⟩ := texts.1
      obtain ⟨t, single⟩ := exists_numberMark inRange.1
      obtain ⟨marks, several, each⟩ := ih texts.2 inRange.2
      refine ⟨.text t :: marks, (mapM_cons_eq_ok_iff _ _ _ _).mpr ⟨_, _, single, several, rfl⟩, ?_⟩
      rw [List.forall_mem_cons]
      exact ⟨⟨t, rfl⟩, each⟩

/-- The elements of a set that are in line have a mark. -/
theorem exists_sortedMark {items : List Value} (line : Value.isLine items = true) :
    ∃ mark, (do return .tuple (← Value.sorted items) : Except Fault Value) = .ok mark := by
  obtain ⟨ordered, sorted⟩ := Value.exists_sorted line
  exact ⟨.tuple ordered, (bind_eq_ok_iff _ _ _).mpr ⟨ordered, sorted, rfl⟩⟩

theorem exists_payloadMark {typed : Attribute} (wellTyped : typed.WellTyped)
    (comparable : typed.Comparable) :
    ∃ mark, payloadMark (.text typed.kind.tag) typed.decoded = .ok mark := by
  cases typed with
  | scalar e payload =>
      rw [Attribute.decoded_scalar wellTyped]
      cases e with
      | number =>
          obtain ⟨s, rfl⟩ := wellTyped
          obtain ⟨t, done⟩ := exists_numberMark comparable
          exact ⟨.text t, done⟩
      | text =>
          obtain ⟨s, rfl⟩ := wellTyped
          exact ⟨.text s, rfl⟩
      | binary =>
          rcases wellTyped with ⟨s, rfl⟩ | ⟨content, rfl⟩
          · exact ⟨.text s, rfl⟩
          · exact ⟨.bytes .plain content, rfl⟩
  | set e elements =>
      cases e with
      | number =>
          obtain ⟨marks, several, texts⟩ := exists_numberMarks wellTyped comparable
          obtain ⟨mark, done⟩ := exists_sortedMark (Value.isLine_of_texts texts)
          exact ⟨mark, (bind_eq_ok_iff _ _ _).mpr ⟨marks, several, done⟩⟩
      | text => exact exists_sortedMark (Value.isLine_of_texts wellTyped)
      | binary =>
          rcases comparable with texts | bytes
          · exact exists_sortedMark (Value.isLine_of_texts texts)
          · exact exists_sortedMark (Value.isLine_of_bytes bytes)

/-- A record has a mark if each of its fields does. -/
theorem exists_markOf_record (name : Value) {fields : List (String × Value)}
    (each : ∀ field ∈ fields, ∃ mark, markOf (.text field.1) field.2 = .ok mark) :
    ∃ mark, markOf name (.record fields) = .ok mark := by
  have several : ∃ marked, Marked fields marked := by
    apply exists_mapM
    intro field member
    obtain ⟨mark, single⟩ := each field member
    exact ⟨(field.1, mark), (bind_eq_ok_iff _ _ _).mpr ⟨mark, single, rfl⟩⟩
  obtain ⟨marked, several⟩ := several
  exact ⟨_, (bind_eq_ok_iff _ _ _).mpr
    ⟨_, entryMarks_of_mapM several, sortMarks_entryOfField marked⟩⟩

theorem exists_markOf_toValue (name : Value) {item : NativeItem} (comparable : item.Comparable) :
    ∃ mark, markOf name item.toValue = .ok mark := by
  apply exists_markOf_record
  rw [List.forall_mem_map]
  intro field member
  have wellTyped := comparable.typed field member
  apply exists_markOf_record
  intro tagged inside
  rw [List.mem_singleton] at inside
  subst inside
  rw [markOf_decoded (Attribute.encoded_of_wellTyped wellTyped)]
  exact exists_payloadMark wellTyped (comparable.comparable field member)

/-- A map with a plain mark has that mark as its fingerprint. -/
theorem fingerprint_of_markOf {name value : Value} {entries : List (Value × Value)}
    (done : markOf name (.map entries) = .ok value) (isPlain : value.isPlain = true) :
    fingerprint (.map entries) = .ok value := by
  obtain ⟨marks, several, sorted⟩ := (bind_eq_ok_iff _ _ _).mp done
  refine (bind_eq_ok_iff _ _ _).mpr ⟨marks, several, ?_⟩
  refine (bind_eq_ok_iff _ _ _).mpr ⟨value, sorted, ?_⟩
  rw [if_pos (Value.isKey_of_isPlain value isPlain)]
  rfl

/-- What is comparable has a fingerprint. -/
theorem exists_fingerprint_toValue {item : NativeItem} (comparable : item.Comparable) :
    ∃ value, fingerprint item.toValue = .ok value := by
  obtain ⟨value, done⟩ := exists_markOf_toValue .null comparable
  have isPlain := isPlain_markOf_toValue item comparable.encoded .null value done
  exact ⟨value, fingerprint_of_markOf done isPlain⟩

/-- The request that writes what is comparable has a fingerprint. -/
theorem exists_fingerprint_request (mode : Batch.Mode) {item : NativeItem}
    (comparable : item.Comparable) :
    ∃ value, fingerprint (mode.request item.toValue) = .ok value := by
  have wrapped : ∀ outer inner : String, ∃ value,
      markOf .null (.record [(outer, .record [(inner, item.toValue)])]) = .ok value := by
    intro outer inner
    obtain ⟨mark, done⟩ := exists_markOf_toValue (.text inner) comparable
    exact ⟨_, markOf_record_singleton .null (markOf_record_singleton (.text outer) done)⟩
  cases mode with
  | put =>
      obtain ⟨value, done⟩ := wrapped "PutRequest" "Item"
      have isPlain := isPlain_markOf_request .put item comparable.encoded .null value done
      exact ⟨value, fingerprint_of_markOf done isPlain⟩
  | delete =>
      obtain ⟨value, done⟩ := wrapped "DeleteRequest" "Key"
      have isPlain := isPlain_markOf_request .delete item comparable.encoded .null value done
      exact ⟨value, fingerprint_of_markOf done isPlain⟩

theorem pick_map {α β : Type} (names : List String) (f : α → β) (fields : List (String × α)) :
    pick names (fields.map fun field => (field.1, f field.2)) =
      (pick names fields).map fun field => (field.1, f field.2) := by
  rw [pick, pick, List.map_filterMap]
  apply List.filterMap_congr
  intro name _
  induction fields with
  | nil => rfl
  | cons field rest ih =>
      obtain ⟨n, a⟩ := field
      rw [List.map_cons, List.lookup_cons, List.lookup_cons]
      cases name == n with
      | true => rfl
      | false => exact ih

/-- What is picked under a name was there under some name. -/
theorem exists_of_mem_pick {α : Type} {names : List String} {fields : List (String × α)}
    {field : String × α} (member : field ∈ pick names fields) :
    ∃ other ∈ fields, other.2 = field.2 := by
  obtain ⟨name, _, found⟩ := List.mem_filterMap.mp member
  obtain ⟨a, held, rfl⟩ := Option.map_eq_some_iff.mp found
  obtain ⟨before, after, rfl, _⟩ := List.lookup_eq_some_iff.mp held
  exact ⟨(name, a), by simp, rfl⟩

theorem project_toValue (names : List String) (item : NativeItem) :
    Batch.project names item.toValue = .ok (NativeItem.toValue (pick names item)) := by
  rw [NativeItem.toValue, project_record, pick_map]
  rfl

/-- The part of a comparable item under some names is comparable. -/
theorem comparable_pick (names : List String) {item : NativeItem} (comparable : item.Comparable) :
    NativeItem.Comparable (pick names item) := by
  constructor
  · intro field member
    obtain ⟨other, inside, same⟩ := exists_of_mem_pick member
    rw [← same]
    exact comparable.typed other inside
  · intro field member
    obtain ⟨other, inside, same⟩ := exists_of_mem_pick member
    rw [← same]
    exact comparable.comparable other inside

end TokenTable
