import TokenTable.Proofs.Client.Clauses
import TokenTable.Proofs.Item.Encoding

/-! # Bare values

A value that is no tuple stands for itself: an item holds it, a condition compares with it and an
update puts it. Each of the three is translated in its own way, but of an entry with a bare value
all three make what `Item.Makes` says (`Condition.ofEntry_bare_iff`, `Update.ofEntry_bare_iff`), so
a map of bare values under different names means one thing in all places. Main statement:
`bare_values_agree`.
-/

namespace TokenTable

variable {α : Type}

/-- Entries of a map no two of which are read as one name. -/
def NamesApart (entries : Value.Entries) : Prop :=
  entries.Pairwise fun first second => ∀ token other,
    Token.parse false first.1 = .ok token → Token.parse false second.1 = .ok other →
      token.name ≠ other.name

theorem namesApart_of_nodup {entries : Value.Entries} {tokens : List Token}
    (parsed : List.Forall₂ (fun entry token => Token.parse false entry.1 = .ok token) entries
      tokens) (distinct : (tokens.map Token.name).Nodup) : NamesApart entries := by
  induction parsed with
  | nil => exact .nil
  | @cons entry token rest others single several ih =>
      rw [List.map_cons, List.nodup_cons] at distinct
      refine .cons (fun other member first second parsedFirst parsedSecond same => ?_)
        (ih distinct.2)
      obtain ⟨found, inside, parsedFound⟩ := exists_of_mem_forall₂ several.flip other member
      have sameFirst := Except.ok.inj (single.symm.trans parsedFirst)
      have sameSecond := Except.ok.inj (parsedFound.symm.trans parsedSecond)
      exact distinct.1 (List.mem_map.mpr ⟨found, inside, by rw [sameSecond, sameFirst, same]⟩)

/-- A field for each attribute of an item, under its name. -/
def shaped (shape : Attribute → α) (item : NativeItem) : List (String × α) :=
  item.map fun field => (field.1, shape field.2)

theorem names_shaped (shape : Attribute → α) (item : NativeItem) :
    (shaped shape item).map Prod.fst = item.map Prod.fst := by
  rw [shaped, List.map_map]
  rfl

theorem map_shaped {β : Type} (shape : Attribute → α) (further : α → β) (item : NativeItem) :
    (shaped shape item).map (fun field => (field.1, further field.2)) =
      shaped (fun typed => further (shape typed)) item := by
  rw [shaped, List.map_map]
  rfl

/-- The condition that an attribute has a value. -/
def Condition.equalTo (typed : Attribute) : Condition := ⟨.equal, some [typed]⟩

/-- The native form of equality with a native value. -/
def Condition.nativeEqualTo (native : Value) : Value :=
  .record [("ComparisonOperator", .text "EQ"), ("AttributeValueList", .list [native])]

/-- The update that gives an attribute a value. -/
def Update.putting (typed : Attribute) : Update := ⟨.put, some typed⟩

/-- The native form of an update that puts a native value. -/
def Update.nativePutting (native : Value) : Value :=
  .record [("Action", .text "PUT"), ("Value", native)]

/-- Equality with a value is a condition exactly when the value can be encoded. -/
theorem Condition.ofClause_equal_iff (text : String) (kind : Kind) (v : Value)
    (condition : Condition) :
    ofClause text kind ⟨Operator.equal.name, v⟩ = .ok condition ↔
      ∃ typed, Attribute.encode v kind = .ok typed ∧ condition = equalTo typed := by
  unfold ofClause
  rw [Operator.ofName?_name]
  cases null : v.isNull with
  | true => simp [null, Operator.isNullary, Attribute.encode]
  | false =>
      simp only [Operator.isNullary, Bool.false_eq_true, ↓reduceIte, operandsOf,
        bind_eq_ok_iff, pure_eq_ok_iff]
      constructor
      · rintro ⟨_, ⟨typed, encoded, rfl⟩, rfl⟩
        exact ⟨typed, encoded, rfl⟩
      · rintro ⟨typed, encoded, rfl⟩
        exact ⟨[typed], ⟨typed, encoded, rfl⟩, rfl⟩

/-- Putting a value is an update exactly when the value can be encoded. -/
theorem Update.ofClause_put_iff (text : String) (kind : Kind) (v : Value) (update : Update) :
    ofClause text kind ⟨Action.put.name, v⟩ = .ok update ↔
      ∃ typed, Attribute.encode v kind = .ok typed ∧ update = putting typed := by
  unfold ofClause
  rw [Action.ofName?_name]
  cases null : v.isNull with
  | true => simp [null, Attribute.encode]
  | false =>
      simp only [Bool.false_eq_true, ↓reduceIte, bind_eq_ok_iff, pure_eq_ok_iff]
      exact exists_congr fun typed => and_congr_right' eq_comm

/-- A condition on an entry with a bare value compares with the attribute that it makes. -/
theorem Condition.ofEntry_bare_iff {entry : Value × Value}
    (bare : ∀ members, entry.2 ≠ .tuple members) (field : String × Condition) :
    ofEntry entry.1 entry.2 = .ok field ↔
      ∃ made, Item.Makes entry made ∧ field = (made.1, equalTo made.2) := by
  simp only [ofEntry, Clause.split_of_not_tuple _ _ bare, Except.mapError, bind_eq_ok_iff,
    pure_eq_ok_iff, Except.ok.injEq, exists_eq_left', ofClause_equal_iff]
  constructor
  · rintro ⟨token, parsed, _, ⟨typed, encoded, rfl⟩, rfl⟩
    exact ⟨(token.name, typed), ⟨token, parsed, rfl, encoded⟩, rfl⟩
  · rintro ⟨made, ⟨token, parsed, named, encoded⟩, rfl⟩
    exact ⟨token, parsed, _, ⟨made.2, encoded, rfl⟩, by rw [named]⟩

/-- An update of an entry with a bare value puts the attribute that it makes. -/
theorem Update.ofEntry_bare_iff {entry : Value × Value}
    (bare : ∀ members, entry.2 ≠ .tuple members) (field : String × Update) :
    ofEntry entry.1 entry.2 = .ok field ↔
      ∃ made, Item.Makes entry made ∧ field = (made.1, putting made.2) := by
  simp only [ofEntry, Clause.split_of_not_tuple _ _ bare, Except.mapError, bind_eq_ok_iff,
    pure_eq_ok_iff, Except.ok.injEq, exists_eq_left', ofClause_put_iff]
  constructor
  · rintro ⟨token, parsed, _, ⟨typed, encoded, rfl⟩, rfl⟩
    exact ⟨(token.name, typed), ⟨token, parsed, rfl, encoded⟩, rfl⟩
  · rintro ⟨made, ⟨token, parsed, named, encoded⟩, rfl⟩
    exact ⟨token, parsed, _, ⟨made.2, encoded, rfl⟩, by rw [named]⟩

/-- Where every entry is translated to a shape of the attribute that it makes, a map is translated
to the shapes of an item. -/
theorem translated_iff_of_each {ofEntry : Value → Value → Except Fault (String × α)}
    {shape : Attribute → α} {entries : Value.Entries}
    (each : ∀ entry ∈ entries, ∀ field, ofEntry entry.1 entry.2 = .ok field ↔
      ∃ made, Item.Makes entry made ∧ field = (made.1, shape made.2))
    (translated : List (String × α)) :
    Translated ofEntry (.map entries) translated ↔
      ∃ item, List.Forall₂ Item.Makes entries item ∧ translated = shaped shape item := by
  have alone : Translated ofEntry (.map entries) translated ↔
      List.Forall₂ (fun entry field => ofEntry entry.1 entry.2 = .ok field) entries translated := by
    simp [Translated]
  rw [alone]
  induction entries generalizing translated with
  | nil =>
      constructor
      · rintro ⟨⟩
        exact ⟨[], .nil, rfl⟩
      · rintro ⟨_, ⟨⟩, rfl⟩
        exact .nil
  | cons entry rest ih =>
      have here := each entry List.mem_cons_self
      have later := ih fun other member => each other (List.mem_cons_of_mem _ member)
      constructor
      · intro all
        cases all with
        | cons single several =>
            obtain ⟨made, makes, rfl⟩ := (here _).mp single
            obtain ⟨others, makesOthers, rfl⟩ := (later _ (by simp [Translated])).mp several
            exact ⟨made :: others, .cons makes makesOthers, rfl⟩
      · rintro ⟨item, all, rfl⟩
        cases all with
        | cons makes makesOthers =>
            refine .cons ((here _).mpr ⟨_, makes, rfl⟩) ?_
            exact (later _ (by simp [Translated])).mpr ⟨_, makesOthers, rfl⟩

/-- Entries that are read as different names make attributes with different names. -/
theorem nodup_of_namesApart {entries : Value.Entries} {item : NativeItem}
    (apart : NamesApart entries) (makes : List.Forall₂ Item.Makes entries item) :
    (item.map Prod.fst).Nodup := by
  induction makes with
  | nil => exact List.nodup_nil
  | @cons entry field rest others single several ih =>
      obtain ⟨differs, apart⟩ := List.pairwise_cons.mp apart
      rw [List.map_cons, List.nodup_cons]
      refine ⟨fun again => ?_, ih apart⟩
      obtain ⟨other, member, same⟩ := List.mem_map.mp again
      obtain ⟨source, inside, token, parsed, named, _⟩ := exists_of_mem_forall₂ several other member
      obtain ⟨first, parsedFirst, namedFirst, _⟩ := single
      exact differs source inside first token parsedFirst parsed (by rw [namedFirst, named, same])

section Maps

variable {entries : Value.Entries} (apart : NamesApart entries)

include apart

theorem Item.toNative_apart_iff (native : Value) :
    Item.toNative (.map entries) = .ok native ↔
      ∃ item, List.Forall₂ Item.Makes entries item ∧
        native = .record (shaped Attribute.toNative item) := by
  simp only [Item.toNative, bind_eq_ok_iff, pure_eq_ok_iff, Item.encode_eq_ok_iff]
  constructor
  · rintro ⟨item, ⟨_, same, makes, _⟩, rfl⟩
    cases same
    exact ⟨item, makes, rfl⟩
  · rintro ⟨item, makes, rfl⟩
    exact ⟨item, ⟨entries, rfl, makes, nodup_of_namesApart apart makes⟩, rfl⟩

/-- Of entries under different names nothing is lost when their fields are written. -/
theorem writeFields_shaped {item : NativeItem} (shape : Attribute → α)
    (makes : List.Forall₂ Item.Makes entries item) :
    writeFields (shaped shape item) = shaped shape item := by
  rw [writeFields_eq_self_iff, names_shaped]
  exact nodup_of_namesApart apart makes

/-- Clauses each of which is translated to a shape of the attribute that it makes are together the
shapes of an item, since none takes another's place. -/
theorem fields_iff_of_each {ofEntry : Value → Value → Except Fault (String × α)}
    {shape : Attribute → α} (toNative : α → Value)
    (each : ∀ entry ∈ entries, ∀ field, ofEntry entry.1 entry.2 = .ok field ↔
      ∃ made, Item.Makes entry made ∧ field = (made.1, shape made.2)) (native : Value) :
    (∃ translated, Translated ofEntry (.map entries) translated ∧
        native = .record ((writeFields translated).map fun field =>
          (field.1, toNative field.2))) ↔
      ∃ item, List.Forall₂ Item.Makes entries item ∧
        native = .record (shaped (fun typed => toNative (shape typed)) item) := by
  have all := translated_iff_of_each each
  constructor
  · rintro ⟨translated, done, rfl⟩
    obtain ⟨item, makes, rfl⟩ := (all translated).mp done
    rw [writeFields_shaped apart _ makes, map_shaped]
    exact ⟨item, makes, rfl⟩
  · rintro ⟨item, makes, rfl⟩
    refine ⟨shaped shape item, (all _).mpr ⟨item, makes, rfl⟩, ?_⟩
    rw [writeFields_shaped apart _ makes, map_shaped]

end Maps

/-- **What bare values mean.** A map that holds no tuple, and no two of whose tokens are read as one
name, is an item, a map of conditions and a map of updates, or none of these. Where it is, the three
have the same names in the same order, and under each name the condition is equality with the value
that the item holds there, and the update puts that value. -/
theorem bare_values_agree (entries : Value.Entries)
    (bare : ∀ entry ∈ entries, ∀ members, entry.2 ≠ .tuple members)
    (apart : NamesApart entries) :
    (∃ fields : List (String × Value), (fields.map Prod.fst).Nodup ∧
        Item.toNative (.map entries) = .ok (.record fields) ∧
        Condition.toNativeAll (.map entries) = .ok (.record (fields.map fun field =>
          (field.1, Condition.nativeEqualTo field.2))) ∧
        Update.toNativeAll (.map entries) = .ok (.record (fields.map fun field =>
          (field.1, Update.nativePutting field.2)))) ∨
      (∃ fault, Item.toNative (.map entries) = .error fault) ∧
        (∃ fault, Condition.toNativeAll (.map entries) = .error fault) ∧
        ∃ fault, Update.toNativeAll (.map entries) = .error fault := by
  have ofItem := Item.toNative_apart_iff apart
  have ofConditions : ∀ native, _ := fun native =>
    (Condition.toNativeAll_eq_ok_iff (.map entries) native).trans <|
      fields_iff_of_each apart Condition.toNative
        (fun entry member => Condition.ofEntry_bare_iff (bare entry member)) native
  have ofUpdates : ∀ native, _ := fun native =>
    (Update.toNativeAll_eq_ok_iff (.map entries) native).trans <|
      fields_iff_of_each apart Update.toNative
        (fun entry member => Update.ofEntry_bare_iff (bare entry member)) native
  by_cases made : ∃ item, List.Forall₂ Item.Makes entries item
  · obtain ⟨item, makes⟩ := made
    refine Or.inl ⟨shaped Attribute.toNative item, ?_, ?_, ?_, ?_⟩
    · rw [names_shaped]
      exact nodup_of_namesApart apart makes
    · exact (ofItem _).mpr ⟨item, makes, rfl⟩
    · rw [map_shaped Attribute.toNative Condition.nativeEqualTo]
      exact (ofConditions _).mpr ⟨item, makes, rfl⟩
    · rw [map_shaped Attribute.toNative Update.nativePutting]
      exact (ofUpdates _).mpr ⟨item, makes, rfl⟩
  · refine Or.inr ⟨exists_error_of_not_ok ?_, exists_error_of_not_ok ?_,
      exists_error_of_not_ok ?_⟩
    · intro native done
      obtain ⟨item, makes, _⟩ := (ofItem native).mp done
      exact made ⟨item, makes⟩
    · intro native done
      obtain ⟨item, makes, _⟩ := (ofConditions native).mp done
      exact made ⟨item, makes⟩
    · intro native done
      obtain ⟨item, makes, _⟩ := (ofUpdates native).mp done
      exact made ⟨item, makes⟩

/-- Bare values of four kinds. -/
def fourKinds : Value.Entries :=
  [(.text "a", .text "x"), (.text "b::N", .int 2),
    (.text "c::SS", .list [.text "p", .text "q"]), (.text "d::B", .bytes .growable [7])]

/-- A text, a number, a set and a byte string mean the same in an item, as conditions and as
updates. -/
theorem bare_values_agree_four_kinds :
    (∀ entry ∈ fourKinds, ∀ members, entry.2 ≠ .tuple members) ∧ NamesApart fourKinds ∧
      Item.toNative (.map fourKinds) = .ok (.record
        [("a", .record [("S", .text "x")]), ("b", .record [("N", .text "2")]),
          ("c", .record [("SS", .list [.text "p", .text "q"])]),
          ("d", .record [("B", .bytes .plain [7])])]) ∧
      ((∃ fields : List (String × Value), (fields.map Prod.fst).Nodup ∧
        Item.toNative (.map fourKinds) = .ok (.record fields) ∧
        Condition.toNativeAll (.map fourKinds) = .ok (.record (fields.map fun field =>
          (field.1, Condition.nativeEqualTo field.2))) ∧
        Update.toNativeAll (.map fourKinds) = .ok (.record (fields.map fun field =>
          (field.1, Update.nativePutting field.2)))) ∨
      (∃ fault, Item.toNative (.map fourKinds) = .error fault) ∧
        (∃ fault, Condition.toNativeAll (.map fourKinds) = .error fault) ∧
        ∃ fault, Update.toNativeAll (.map fourKinds) = .error fault) := by
  have bare : ∀ entry ∈ fourKinds, ∀ members, entry.2 ≠ .tuple members := by
    simp [fourKinds]
  have apart : NamesApart fourKinds := by
    have tokens : List.Forall₂ (fun entry token => Token.parse false entry.1 = .ok token) fourKinds
        [⟨"a", .scalar .text⟩, ⟨"b", .scalar .number⟩, ⟨"c", .set .text⟩,
          ⟨"d", .scalar .binary⟩] :=
      .cons rfl (.cons rfl (.cons rfl (.cons rfl .nil)))
    exact namesApart_of_nodup tokens (by decide)
  exact ⟨bare, apart, rfl, bare_values_agree fourKinds bare apart⟩

end TokenTable
