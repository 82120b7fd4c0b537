import TokenTable.Proofs.Fingerprint.Elements
import TokenTable.Proofs.Item.Encoding

/-! # Values through their native form

What encoding makes of a value is read back from its native form as it is, and the value that an
application sees there is encoded to it again. A set comes in no order of its own: its elements are
put in line by what they contain (`elementLe_iff`), so two sets are encoded alike exactly when they
contribute the same elements, each as often (`encode_set_eq_iff`). Main statement: `encode_stable`.
-/

namespace TokenTable.Attribute

/-- What an element contains: bytes or a text. -/
abbrev Content : Type := List UInt8 ⊕ String

def ofContent : Content → Value
  | .inl bytes => .bytes .plain bytes
  | .inr s => .text s

/-- What a value contains once it is brought to a kind. -/
def contentUnder : ScalarKind → Value → Content
  | .binary, .bytes _ bytes => .inl bytes
  | _, v => .inr v.display

theorem ofContent_contentUnder (e : ScalarKind) (v : Value) :
    ofContent (contentUnder e v) = coerce e v := by
  cases e with
  | binary => cases v <;> rfl
  | _ => rfl

theorem ofContent_injective : Function.Injective ofContent := by
  rintro (bytes | s) (others | t) same
  · exact congrArg Sum.inl (Value.bytes.inj same).2
  · cases same
  · cases same
  · exact congrArg Sum.inr (Value.text.inj same)

/-- The place of an element among others: bytes stand before texts. -/
def Content.place : Content → List Nat ⊕ₗ String
  | .inl bytes => Sum.inlₗ (bytes.map UInt8.toNat)
  | .inr s => Sum.inrₗ s

theorem Content.place_injective : Function.Injective place := by
  have injective : Function.Injective (List.map UInt8.toNat) :=
    List.map_injective_iff.mpr fun _ _ => UInt8.toNat_inj.mp
  rintro (bytes | s) (others | t) same
  · exact congrArg Sum.inl (injective (Sum.inl_injective (toLex_inj.mp same)))
  · cases toLex_inj.mp same
  · cases toLex_inj.mp same
  · exact congrArg Sum.inr (Sum.inr_injective (toLex_inj.mp same))

/-- Elements are in line as their places are. -/
theorem elementLe_iff (first second : Content) :
    elementLe (ofContent first) (ofContent second) = true ↔ first.place ≤ second.place := by
  rcases first with bytes | s <;> rcases second with others | t
  · simp [elementLe, ofContent, Content.place, SortKey.bytes_lt_iff]
  · simp [elementLe, ofContent, Content.place]
  · simp [elementLe, ofContent, Content.place]
  · rw [ofContent, ofContent, elementLe, Bool.not_eq_true', decide_eq_false_iff_not, not_lt,
      Content.place, Content.place, Sum.Lex.inr_le_inr_iff]

theorem map_coerce (e : ScalarKind) (members : List Value) :
    members.map (coerce e) = (members.map (contentUnder e)).map ofContent := by
  rw [List.map_map]
  exact List.map_congr_left fun member _ => (ofContent_contentUnder e member).symm

/-- The elements of a set are what its members contain, in line. -/
theorem elementsOf_set (e : ScalarKind) (frozen : Bool) (members : List Value) :
    elementsOf e (.set frozen members) =
      ((members.map (contentUnder e)).mergeSort fun first second =>
        elementLe (ofContent first) (ofContent second)).map ofContent := by
  rw [elementsOf, map_coerce, List.map_mergeSort]
  exact fun _ _ _ _ => rfl

/-- Two sets are encoded alike exactly when their members are brought to the same elements, each as
often, in whatever order they come. -/
theorem encode_set_eq_iff (e : ScalarKind) (frozen frozen' : Bool) (members others : List Value) :
    encode (.set frozen members) (.set e) = encode (.set frozen' others) (.set e) ↔
      (members.map (coerce e)).Perm (others.map (coerce e)) := by
  have encoded : ∀ frozen members, encode (.set frozen members) (.set e) =
      .ok (.set e (elementsOf e (.set frozen members))) := fun _ _ => rfl
  rw [encoded, encoded, Except.ok.injEq, Attribute.set.injEq, and_iff_right rfl, elementsOf_set,
    elementsOf_set, ofContent_injective.list_map.eq_iff,
    mergeSort_eq_iff_perm Content.place_injective elementLe_iff, map_coerce, map_coerce,
    List.map_perm_map_iff ofContent_injective]

/-- The order in which the members of a set come does not matter. -/
theorem encode_set_of_perm (kind : Kind) (frozen frozen' : Bool) {members others : List Value}
    (perm : members.Perm others) :
    encode (.set frozen members) kind = encode (.set frozen' others) kind := by
  cases kind with
  | scalar e => rfl
  | set e => exact (encode_set_eq_iff e frozen frozen' members others).mpr (perm.map (coerce e))

/-- The payload of a single value, or the elements of a set. -/
def parts : Attribute → List Value
  | .scalar _ payload => [payload]
  | .set _ elements => elements

/-- A typed value that its native form keeps, together with the value that an application sees in
that form. -/
structure IsKept (kind : Kind) (typed : Attribute) (seen : Value) : Prop where
  native : typed.toNative = .record [(kind.tag, seen)]
  readBack : ofNative typed.toNative = .ok typed
  decodes : decode typed.toNative = .ok seen
  encodes : encode seen kind = .ok typed
  texts : kind.element ≠ .scalar .binary → ∀ part ∈ typed.parts, ∃ s, part = .text s
  lists : (∃ items, seen = .list items) ↔ ∃ e, kind = .set e

/-- Under any kind but a binary one, all parts of what is of its kind are texts. -/
theorem WellTyped.texts {typed : Attribute} (wellTyped : typed.WellTyped)
    (apart : typed.kind.element ≠ .scalar .binary) : ∀ part ∈ typed.parts, ∃ s, part = .text s := by
  have texts : ∀ {e : ScalarKind} {v : Value}, e ≠ .binary → e.Admits v → ∃ s, v = .text s := by
    intro e v other admits
    cases e with
    | binary => exact absurd rfl other
    | _ => exact admits
  cases typed with
  | scalar e payload =>
      have other : e ≠ .binary := fun same => apart (congrArg Kind.scalar same)
      exact List.forall_mem_singleton.mpr (texts other wellTyped)
  | set e elements =>
      have other : e ≠ .binary := fun same => apart (congrArg Kind.scalar same)
      exact fun element member => texts other (wellTyped element member)

theorem isKept_of_wellTyped {typed : Attribute} (wellTyped : typed.WellTyped) :
    IsKept typed.kind typed typed.decoded where
  native := rfl
  readBack := ofNative_toNative wellTyped
  decodes := by
    rw [decode, ofNative_toNative wellTyped]
    rfl
  encodes := encode_decoded wellTyped
  texts := wellTyped.texts
  lists := by
    cases typed with
    | set e elements => exact ⟨fun _ => ⟨e, rfl⟩, fun _ => ⟨elements, rfl⟩⟩
    | scalar e payload =>
        rw [decoded_scalar wellTyped]
        constructor
        · rintro ⟨items, rfl⟩
          cases (single_of_admits wellTyped).2
        · rintro ⟨_, ⟨⟩⟩

/-- **Encoding is undone by decoding, and is stable.** A value is encoded exactly under the kinds
that take it. What it is encoded to is read back from the native form, and the value seen there is
encoded to it again; it is a list exactly under a set kind, and it is made of texts under any kind
but a binary one. Sets are encoded alike exactly when their members are brought to the same
elements, each as often; so the order in which the members come does not matter. -/
theorem encode_stable (kind : Kind) :
    (∀ v, (∃ typed, encode v kind = .ok typed) ↔ kind.Takes v) ∧
    (∀ v typed, encode v kind = .ok typed → IsKept kind typed typed.decoded) ∧
    (∀ e frozen frozen' members others,
      encode (.set frozen members) (.set e) = encode (.set frozen' others) (.set e) ↔
        (members.map (coerce e)).Perm (others.map (coerce e))) ∧
    ∀ frozen frozen' members others, members.Perm others →
      encode (.set frozen members) kind = encode (.set frozen' others) kind := by
  refine ⟨?_, ?_, ?_, ?_⟩
  · exact fun v => exists_encode_iff v kind
  · intro v typed done
    obtain ⟨wellTyped, rfl⟩ := wellTyped_of_encode done
    exact isKept_of_wellTyped wellTyped
  · exact encode_set_eq_iff
  · exact fun frozen frozen' _ _ perm => encode_set_of_perm kind frozen frozen' perm

/-- A text, a number that is brought to the same text, and bytes, which come first: in either order
of the members the set is encoded alike, and seen as a list that is encoded to it again. -/
theorem encode_stable_mixed :
    encode (.set false [.text "1", .bytes .view [98], .int 1]) (.set .binary) =
        .ok (.set .binary [.bytes .plain [98], .text "1", .text "1"]) ∧
      IsKept (.set .binary) (.set .binary [.bytes .plain [98], .text "1", .text "1"])
        (.list [.bytes .plain [98], .text "1", .text "1"]) ∧
      encode (.set false [.text "1", .bytes .view [98], .int 1]) (.set .binary) =
        encode (.set true [.int 1, .text "1", .bytes .view [98]]) (.set .binary) := by
  have lined : elementsOf .binary (.set false [.bytes .view [98], .text "1", .int 1]) =
      [.bytes .plain [98], .text "1", .text "1"] := List.mergeSort_of_pairwise (by decide)
  have encoded : encode (.set false [.text "1", .bytes .view [98], .int 1]) (.set .binary) =
      .ok (.set .binary [.bytes .plain [98], .text "1", .text "1"]) :=
    calc encode (.set false [.text "1", .bytes .view [98], .int 1]) (.set .binary)
      _ = encode (.set false [.bytes .view [98], .text "1", .int 1]) (.set .binary) :=
        encode_set_of_perm _ _ _ (List.Perm.swap _ _ _)
      _ = .ok (.set .binary [.bytes .plain [98], .text "1", .text "1"]) :=
        congrArg (fun elements => Except.ok (Attribute.set .binary elements)) lined
  have perm : [Value.text "1", .bytes .view [98], .int 1].Perm
      [.int 1, .text "1", .bytes .view [98]] :=
    @List.perm_append_comm Value [.text "1", .bytes .view [98]] [.int 1]
  exact ⟨encoded, (encode_stable (.set .binary)).2.1 _ _ encoded,
    (encode_stable (.set .binary)).2.2.2 _ _ _ _ perm⟩

end TokenTable.Attribute
