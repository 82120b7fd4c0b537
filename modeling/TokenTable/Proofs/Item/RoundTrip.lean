import TokenTable.Proofs.Item.Encoding

/-! # Items through their tokens

A native item is decoded to token form and encoded again. Where every name fits the kind of its
value, the tokens are all different and each is read back as it was written, so the same item comes
back; where some name does not fit, no item with that name is ever encoded. Main statement:
`throughTokens_same_iff`.
-/

namespace TokenTable

namespace Value

/-- Records agree exactly when they have as many fields, and every field of the first has one of
its name and value in the second. -/
theorem same_record_iff (fields others : List (String × Value)) :
    same (record fields) (record others) = true ↔
      fields.length = others.length ∧
        ∀ field ∈ fields, ∃ other ∈ others, other.1 = field.1 ∧ same field.2 other.2 = true := by
  rw [record, record, same, Bool.and_eq_true, entriesWithin_iff, beq_iff_eq, List.length_map,
    List.length_map, List.forall_mem_map]
  simp only [List.mem_map, exists_exists_and_eq_and, same_text_iff]
  simp only [eq_comm]

theorem sameList_self {items : List Value} (each : ∀ item ∈ items, same item item = true) :
    sameList items items = true := by
  induction items with
  | nil => rfl
  | cons item rest ih =>
      rw [List.forall_mem_cons] at each
      rw [sameList, each.1, ih each.2]
      rfl

theorem same_self_of_admits {e : ScalarKind} {v : Value} (admits : e.Admits v) :
    same v v = true := by
  cases e with
  | binary =>
      rcases admits with ⟨s, rfl⟩ | ⟨content, rfl⟩
      · exact (same_text_iff s s).mpr rfl
      · simp [same, sameAtom]
  | _ =>
      obtain ⟨s, rfl⟩ := admits
      exact (same_text_iff s s).mpr rfl

/-- A value is added behind the others under a key that none of them has. -/
theorem upsert_of_fresh {entries : Entries} {key : Value} (value : Value)
    (fresh : ∀ entry ∈ entries, same entry.1 key = false) :
    upsert key value entries = entries ++ [(key, value)] := by
  induction entries with
  | nil => rfl
  | cons entry rest ih =>
      rw [List.forall_mem_cons] at fresh
      rw [upsert, fresh.1, ih fresh.2]
      rfl

end Value

namespace Attribute

theorem same_decoded_self {typed : Attribute} (wellTyped : typed.WellTyped) :
    Value.same typed.decoded typed.decoded = true := by
  cases typed with
  | scalar e payload =>
      rw [decoded_scalar wellTyped]
      exact Value.same_self_of_admits wellTyped
  | set e elements =>
      exact Value.sameList_self fun element member =>
        Value.same_self_of_admits (wellTyped element member)

theorem same_toNative_self {typed : Attribute} (wellTyped : typed.WellTyped) :
    Value.same typed.toNative typed.toNative = true := by
  rw [toNative, Value.same_record_iff]
  refine ⟨rfl, fun field member => ⟨field, member, rfl, ?_⟩⟩
  rw [List.mem_singleton] at member
  subst member
  exact same_decoded_self wellTyped

/-- Native forms that agree are of one kind. -/
theorem kind_eq_of_same {typed other : Attribute}
    (agree : Value.same typed.toNative other.toNative = true) : typed.kind = other.kind := by
  rw [toNative, toNative, Value.same_record_iff] at agree
  obtain ⟨found, member, tagged, _⟩ := agree.2 _ List.mem_cons_self
  rw [List.mem_singleton] at member
  subst member
  have named := (Kind.ofTag?_eq_some_iff _ typed.kind).mpr tagged.symm
  rw [Kind.ofTag?_tag] at named
  exact (Option.some.inj named).symm

end Attribute

namespace NativeItem

theorem same_toValue_self {item : NativeItem} (wellFormed : item.WellFormed) :
    Value.same item.toValue item.toValue = true := by
  rw [toValue, Value.same_record_iff, List.forall_mem_map]
  refine ⟨rfl, fun field member => ⟨_, List.mem_map_of_mem member, rfl, ?_⟩⟩
  exact Attribute.same_toNative_self (wellFormed.typed field member)

/-- The entries of an item in token form. -/
def tokens (item : NativeItem) : Value.Entries :=
  item.map fun field => (.text (Token.toText ⟨field.1, field.2.kind⟩), field.2.decoded)

end NativeItem

namespace Item

/-- A native item decoded to token form and encoded again. -/
def throughTokens (native : Value) : Except Fault Value := do
  toNative (← toTokens native)

theorem tokenKey_text (name : String) (kind : Kind) :
    tokenKey (.text name) kind = .text (Token.toText ⟨name, kind⟩) := by
  rw [tokenKey, Token.toText]
  split
  · rfl
  · rfl

theorem entries_toValue (item : NativeItem) :
    item.toValue.entries =
      .ok (item.map fun field => (Value.text field.1, field.2.toNative)) := by
  rw [NativeItem.toValue, Value.record, List.map_map]
  rfl

/-- A typed value is read off its native form. -/
theorem attributeOf_toNative (name : String) {typed : Attribute} (wellTyped : typed.WellTyped) :
    attributeOf (.text name, typed.toNative) = .ok typed := by
  rw [attributeOf, Attribute.ofNative_toNative wellTyped]
  rfl

/-- A field whose token is new is added behind the others. -/
theorem addToken_field {done : NativeItem} {field : String × Attribute}
    (wellTyped : field.2.WellTyped) (fits : Token.Fits ⟨field.1, field.2.kind⟩)
    (fitsDone : ∀ other ∈ done, Token.Fits ⟨other.1, other.2.kind⟩)
    (fresh : field.1 ∉ done.map Prod.fst) :
    addToken (NativeItem.tokens done) (.text field.1, field.2.toNative) =
      .ok (NativeItem.tokens (done ++ [field])) := by
  have new : ∀ entry ∈ NativeItem.tokens done,
      Value.same entry.1 (.text (Token.toText ⟨field.1, field.2.kind⟩)) = false := by
    rw [NativeItem.tokens, List.forall_mem_map]
    intro other member
    rw [Bool.eq_false_iff, ne_eq, Value.same_text_iff]
    intro clash
    have equal := Token.eq_of_toText_eq (fitsDone other member) fits clash
    refine fresh (List.mem_map.mpr ⟨other, member, ?_⟩)
    exact congrArg Token.name equal
  refine (bind_eq_ok_iff _ _ _).mpr ⟨field.2, attributeOf_toNative field.1 wellTyped, ?_⟩
  rw [tokenKey_text, Value.upsert_of_fresh _ new, NativeItem.tokens, NativeItem.tokens,
    List.map_append]
  rfl

theorem foldlM_addToken (before : NativeItem) {after : NativeItem}
    (wellFormed : (before ++ after).WellFormed)
    (fits : ∀ field ∈ before ++ after, Token.Fits ⟨field.1, field.2.kind⟩) :
    (after.map fun field => (Value.text field.1, field.2.toNative)).foldlM addToken before.tokens =
      .ok (NativeItem.tokens (before ++ after)) := by
  induction after generalizing before with
  | nil =>
      rw [List.append_nil]
      rfl
  | cons field rest ih =>
      have here : field ∈ before ++ field :: rest := by simp
      have fresh : field.1 ∉ before.map Prod.fst := by
        have distinct := wellFormed.distinct
        rw [List.map_append, List.map_cons, List.nodup_append] at distinct
        exact fun again => distinct.2.2 _ again _ List.mem_cons_self rfl
      have added := addToken_field (wellFormed.typed field here) (fits field here)
        (fun other member => fits other (List.mem_append_left _ member)) fresh
      rw [List.append_cons] at wellFormed fits ⊢
      rw [List.map_cons, List.foldlM_cons]
      exact (bind_eq_ok_iff _ _ _).mpr ⟨_, added, ih _ wellFormed fits⟩

/-- An item whose values are of their kinds has a token form, whatever its names are. -/
theorem exists_toTokens {item : NativeItem} (typed : ∀ field ∈ item, field.2.WellTyped) :
    ∃ tokens, toTokens item.toValue = .ok tokens := by
  suffices folded : ∀ start, ∃ done,
      (item.map fun field => (Value.text field.1, field.2.toNative)).foldlM addToken start =
        .ok done by
    obtain ⟨done, folded⟩ := folded []
    refine ⟨.map done, (bind_eq_ok_iff _ _ _).mpr ⟨_, entries_toValue item, ?_⟩⟩
    exact (bind_eq_ok_iff _ _ _).mpr ⟨done, folded, rfl⟩
  induction item with
  | nil => exact fun start => ⟨start, rfl⟩
  | cons field rest ih =>
      intro start
      rw [List.forall_mem_cons] at typed
      have added : addToken start (.text field.1, field.2.toNative) = .ok
          (Value.upsert (tokenKey (.text field.1) field.2.kind) field.2.decoded start) :=
        (bind_eq_ok_iff _ _ _).mpr ⟨field.2, attributeOf_toNative field.1 typed.1, rfl⟩
      obtain ⟨done, folded⟩ := ih typed.2 _
      refine ⟨done, ?_⟩
      rw [List.map_cons, List.foldlM_cons]
      exact (bind_eq_ok_iff _ _ _).mpr ⟨_, added, folded⟩

/-- An item whose names fit is decoded to one token for each field. -/
theorem toTokens_toValue {item : NativeItem} (wellFormed : item.WellFormed)
    (fits : ∀ field ∈ item, Token.Fits ⟨field.1, field.2.kind⟩) :
    toTokens item.toValue = .ok (.map item.tokens) := by
  have folded := foldlM_addToken [] wellFormed fits
  refine (bind_eq_ok_iff _ _ _).mpr ⟨_, entries_toValue item, ?_⟩
  exact (bind_eq_ok_iff _ _ _).mpr ⟨item.tokens, folded, rfl⟩

/-- The tokens of an item whose names fit are encoded as the item. -/
theorem encode_tokens {item : NativeItem} (wellFormed : item.WellFormed)
    (fits : ∀ field ∈ item, Token.Fits ⟨field.1, field.2.kind⟩) :
    encode (.map item.tokens) = .ok item := by
  refine (encode_eq_ok_iff _ _).mpr ⟨item.tokens, rfl, ?_, wellFormed.distinct⟩
  rw [NativeItem.tokens, List.forall₂_map_left_iff, List.forall₂_same]
  intro field member
  have read := (Token.parse_toText_iff false _).mpr (fits field member)
  exact ⟨_, read, rfl, Attribute.encode_decoded (wellFormed.typed field member)⟩

theorem throughTokens_of_fits {item : NativeItem} (wellFormed : item.WellFormed)
    (fits : ∀ field ∈ item, Token.Fits ⟨field.1, field.2.kind⟩) :
    throughTokens item.toValue = .ok item.toValue := by
  refine (bind_eq_ok_iff _ _ _).mpr ⟨_, toTokens_toValue wellFormed fits, ?_⟩
  exact (bind_eq_ok_iff _ _ _).mpr ⟨item, encode_tokens wellFormed fits, rfl⟩

/-- What comes back from tokens was encoded, so an item that it agrees with has names that fit. -/
theorem fits_of_throughTokens {item : NativeItem} {back : Value}
    (done : throughTokens item.toValue = .ok back) (agree : item.toValue.same back = true) :
    ∀ field ∈ item, Token.Fits ⟨field.1, field.2.kind⟩ := by
  obtain ⟨given, _, done⟩ := (bind_eq_ok_iff _ _ _).mp done
  obtain ⟨encoded, made, done⟩ := (bind_eq_ok_iff _ _ _).mp done
  cases done
  rw [NativeItem.toValue, NativeItem.toValue, Value.same_record_iff, List.forall_mem_map] at agree
  intro field member
  obtain ⟨other, inside, named, alike⟩ := agree.2 field member
  obtain ⟨origin, present, rfl⟩ := List.mem_map.mp inside
  have fits := fits_of_encode made origin present
  rw [Attribute.kind_eq_of_same alike, ← named]
  exact fits

/-- **Exact round trip through tokens.** A native item whose names are distinct and whose values are
of their kinds is encoded again from its token form as an equal item exactly when every name is not
empty, holds no separator, and ends in half a separator only if its value is of the default kind;
then it comes back with its fields in the same order. Every item that encoding makes is such an
item. -/
theorem throughTokens_same_iff :
    (∀ item : NativeItem, item.WellFormed →
      ((∃ back, throughTokens item.toValue = .ok back ∧ item.toValue.same back = true) ↔
          ∀ field ∈ item, Token.Fits ⟨field.1, field.2.kind⟩) ∧
        ((∀ field ∈ item, Token.Fits ⟨field.1, field.2.kind⟩) →
          throughTokens item.toValue = .ok item.toValue)) ∧
      ∀ given native, toNative given = .ok native →
        throughTokens native = .ok native ∧
          ∃ item : NativeItem, native = item.toValue ∧ item.WellFormed ∧
            ∀ field ∈ item, Token.Fits ⟨field.1, field.2.kind⟩ := by
  constructor
  · intro item wellFormed
    refine ⟨⟨?_, fun fits => ?_⟩, throughTokens_of_fits wellFormed⟩
    · rintro ⟨back, done, agree⟩
      exact fits_of_throughTokens done agree
    · exact ⟨_, throughTokens_of_fits wellFormed fits, NativeItem.same_toValue_self wellFormed⟩
  · intro given native encoded
    obtain ⟨item, made, encoded⟩ := (bind_eq_ok_iff _ _ _).mp encoded
    cases encoded
    have wellFormed := wellFormed_of_encode made
    have fits := fits_of_encode made
    exact ⟨throughTokens_of_fits wellFormed fits, item, rfl, wellFormed, fits⟩

/-- A name that ends in half a separator comes back under the default kind, and no other. -/
theorem throughTokens_half_separator :
    (∃ back, throughTokens (NativeItem.toValue [("Age:", .scalar .text (.text "7"))]) = .ok back ∧
        (NativeItem.toValue [("Age:", .scalar .text (.text "7"))]).same back = true) ∧
      ¬ ∃ back,
        throughTokens (NativeItem.toValue [("Age:", .scalar .number (.text "7"))]) = .ok back ∧
          (NativeItem.toValue [("Age:", .scalar .number (.text "7"))]).same back = true := by
  have wellFormed (e : ScalarKind) :
      NativeItem.WellFormed [("Age:", .scalar e (.text "7"))] := by
    refine ⟨List.nodup_singleton _, fun field member => ?_⟩
    rw [List.mem_singleton] at member
    subst member
    cases e with
    | binary => exact Or.inl ⟨"7", rfl⟩
    | _ => exact ⟨"7", rfl⟩
  constructor
  · refine (throughTokens_same_iff.1 _ (wellFormed .text)).1.mpr fun field member => ?_
    rw [List.mem_singleton] at member
    subst member
    exact (Token.parse_toText_iff false _).mp rfl
  · intro back
    have fits := (throughTokens_same_iff.1 _ (wellFormed .number)).1.mp back
    have apart := (fits _ List.mem_cons_self).apart (by decide)
    cases apart

end Item

end TokenTable
