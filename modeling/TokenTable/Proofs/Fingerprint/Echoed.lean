import TokenTable.Proofs.Canonical
import TokenTable.Proofs.Fingerprint.Agreement

/-! # The fingerprints of echoes

A number is found again in its plain spelling. So an echo has the fingerprint of what was sent and
is echoed as itself (`echo_keeps_fingerprint`), also within the requests that put an item or delete
one.
-/

namespace TokenTable

open Value

theorem numberMark_of_normalOf? {s : String} {d : Decimal} (found : Decimal.normalOf? s = some d) :
    numberMark (.text s) = .ok (.text d.toText) := by
  apply numberMark_of_respelled
  · rw [found]
    rfl
  · rw [Decimal.respelled, found]
    rfl

/-- The mark of a number does not tell its spelling, whatever spells it. -/
theorem numberMark_eq_of_plainNumber {v echo : Value} (done : plainNumber v = .ok echo) :
    numberMark echo = numberMark v := by
  obtain ⟨d, number, done⟩ := (bind_eq_ok_iff _ _ _).mp done
  cases normal : d.normal with
  | ok normalized =>
      rw [normal] at done
      cases done
      have again := Decimal.normalOf?_toPlain_of_isNormal (Decimal.isNormal_of_normal normal)
      rw [numberMark_of_normalOf? again]
      simp only [numberMark, number, normal]
  | error cause =>
      rw [normal] at done
      cases cause <;> cases done

theorem Value.EchoedAs.numberMark_eq {v w : Value} (echoed : v.EchoedAs w) :
    numberMark v = numberMark w := by
  obtain ⟨s, d, rfl, found, rfl⟩ := echoed
  have done := (plainNumber_text_eq_ok_iff s _).mpr ⟨s, d, rfl, found, rfl⟩
  exact (numberMark_eq_of_plainNumber done).symm

/-- Entries with the same marks under the same names have the same marks. -/
theorem entryMarks_eq_of_forall₂ {entries others : Value.Entries}
    (alike : List.Forall₂ (fun entry other => other.1 = entry.1 ∧
      markOf entry.1 entry.2 = markOf entry.1 other.2) entries others) :
    entryMarks entries = entryMarks others := by
  induction alike with
  | nil => rfl
  | cons single _ ih => rw [entryMarks, entryMarks, single.1, single.2, ih]

/-- Fields with the same marks under the same names make maps with the same mark. -/
theorem markOf_record_eq {fields others : List (String × Value)} (name : Value)
    (alike : List.Forall₂ (fun field other => other.1 = field.1 ∧
      markOf (.text field.1) field.2 = markOf (.text field.1) other.2) fields others) :
    markOf name (.record fields) = markOf name (.record others) := by
  have several : entryMarks (fields.map entryOfField) = entryMarks (others.map entryOfField) := by
    apply entryMarks_eq_of_forall₂
    rw [List.forall₂_map_left_iff, List.forall₂_map_right_iff]
    exact alike.imp fun field other single => ⟨congrArg Value.text single.1, single.2⟩
  exact congrArg (· >>= sortMarks) several

/-- The fingerprint of a map is its mark, if that may be a key. -/
theorem fingerprint_map (entries : Value.Entries) :
    fingerprint (.map entries) = (do
      let mark ← markOf .null (.map entries)
      if mark.isKey then return mark else throw .wrongShape) := by
  rw [fingerprint, markOf, bind_assoc]

/-- The mark of an attribute does not tell the spelling of its numbers. -/
theorem Attribute.EchoedAs.markOf_eq {typed other : Attribute} (echoed : typed.EchoedAs other)
    (name : Value) :
    markOf name typed.toNative = markOf name other.toNative := by
  cases typed with
  | scalar e v =>
      cases e with
      | number =>
          obtain ⟨w, respelled, rfl⟩ := echoed
          have marks := respelled.numberMark_eq
          obtain ⟨s, d, rfl, _, rfl⟩ := respelled
          exact markOf_record_eq name (.cons ⟨rfl, marks⟩ .nil)
      | _ =>
          cases echoed
          rfl
  | set e vs =>
      cases e with
      | number =>
          obtain ⟨ws, respelled, rfl⟩ := echoed
          have marks := mapM_eq_of_forall₂ (respelled.imp fun _ _ => Value.EchoedAs.numberMark_eq)
          exact markOf_record_eq name (.cons ⟨rfl, congrArg (· >>= _) marks⟩ .nil)
      | _ =>
          cases echoed
          rfl

theorem NativeItem.EchoedAs.markOf_eq {item other : NativeItem} (echoed : item.EchoedAs other)
    (name : Value) :
    markOf name item.toValue = markOf name other.toValue := by
  apply markOf_record_eq
  rw [List.forall₂_map_left_iff, List.forall₂_map_right_iff]
  exact echoed.imp fun field echo single => ⟨single.1, single.2.markOf_eq _⟩

/-- Maps with the same marks have the same fingerprints, also within requests. -/
theorem fingerprint_enclosed_eq (mode? : Option Batch.Mode) {inner other : Value.Entries}
    (alike : ∀ name, markOf name (.map inner) = markOf name (.map other)) :
    fingerprint (Batch.enclosed mode? (.map inner)) =
      fingerprint (Batch.enclosed mode? (.map other)) := by
  have wrapped : ∀ outer name : String,
      fingerprint (.record [(outer, .record [(name, .map inner)])]) =
        fingerprint (.record [(outer, .record [(name, .map other)])]) := by
    intro outer name
    have within : markOf (.text outer) (.record [(name, .map inner)]) =
        markOf (.text outer) (.record [(name, .map other)]) :=
      markOf_record_eq (.text outer) (.cons ⟨rfl, alike (.text name)⟩ .nil)
    have whole : markOf .null (.record [(outer, .record [(name, .map inner)])]) =
        markOf .null (.record [(outer, .record [(name, .map other)])]) :=
      markOf_record_eq .null (.cons ⟨rfl, within⟩ .nil)
    refine (fingerprint_map _).trans (Eq.trans ?_ (fingerprint_map _).symm)
    exact congrArg (· >>= _) whole
  cases mode? with
  | none =>
      rw [Batch.enclosed, Option.elim_none, Batch.enclosed, Option.elim_none, fingerprint_map,
        fingerprint_map, alike]
  | some mode =>
      cases mode with
      | put => exact wrapped "PutRequest" "Item"
      | delete => exact wrapped "DeleteRequest" "Key"

/-- **Echoes keep fingerprints.** The echo of what was made of an item, or of a request around it,
has the same fingerprint and is echoed as itself. It differs from what was sent in nothing but the
spellings of numbers. -/
theorem echo_keeps_fingerprint {v native echo : Value} (mode? : Option Batch.Mode)
    (made : Item.toNative v = .ok native)
    (done : canonical (Batch.enclosed mode? native) = .ok echo) :
    fingerprint echo = fingerprint (Batch.enclosed mode? native) ∧ canonical echo = .ok echo ∧
      ∃ item other : NativeItem, native = item.toValue ∧ item.EchoedAs other ∧
        echo = Batch.enclosed mode? other.toValue := by
  obtain ⟨item, encoded, made⟩ := (bind_eq_ok_iff _ _ _).mp made
  cases made
  have wellTyped := (Item.wellFormed_of_encode encoded).typed
  obtain ⟨inner, single, rfl⟩ := (canonical_enclosed_eq_ok_iff mode? _ echo).mp done
  obtain ⟨other, echoed, rfl⟩ := (NativeItem.canonical_toValue_eq_ok_iff wellTyped inner).mp single
  refine ⟨(fingerprint_enclosed_eq mode? echoed.markOf_eq).symm, ?_, item, other, rfl, echoed, rfl⟩
  refine (canonical_enclosed_eq_ok_iff mode? _ _).mpr ⟨other.toValue, ?_, rfl⟩
  exact (NativeItem.canonical_toValue_eq_ok_iff (echoed.wellTyped wellTyped) _).mpr
    ⟨other, echoed.again, rfl⟩

/-- An item whose attributes have the names of tags. -/
def tagged : Value :=
  .map [(.text "N::N", .text "1.50"), (.text "NS::NS", .list [.text "-0.0", .text "1E2"]),
    (.text "S", .text "1.0")]

/-- The native form of that item. -/
def taggedItem : NativeItem :=
  [("N", .scalar .number (.text "1.50")), ("NS", .set .number [.text "-0.0", .text "1E2"]),
    ("S", .scalar .text (.text "1.0"))]

/-- The echo of that item. -/
def taggedEcho : NativeItem :=
  [("N", .scalar .number (.text "1.5")), ("NS", .set .number [.text "-0", .text "100"]),
    ("S", .scalar .text (.text "1.0"))]

theorem taggedItem_echoedAs : taggedItem.EchoedAs taggedEcho := by
  have spelled : ∀ entry ∈ [("1.50", "1.5"), ("-0.0", "-0"), ("1E2", "100")],
      (Decimal.normalOf? entry.1).map Decimal.toPlain = some entry.2 := by decide +kernel
  have echoed : ∀ entry ∈ [("1.50", "1.5"), ("-0.0", "-0"), ("1E2", "100")],
      (text entry.1).EchoedAs (.text entry.2) := by
    intro entry member
    obtain ⟨d, found, same⟩ := Option.map_eq_some_iff.mp (spelled entry member)
    exact ⟨entry.1, d, rfl, found, by rw [same]⟩
  simp only [List.forall_mem_cons, List.not_mem_nil, false_imp_iff, implies_true, and_true]
    at echoed
  obtain ⟨price, nought, hundred⟩ := echoed
  exact .cons ⟨rfl, _, price, rfl⟩ (.cons ⟨rfl, _, .cons nought (.cons hundred .nil), rfl⟩
    (.cons ⟨rfl, rfl⟩ .nil))

/-- The request that puts the item is echoed with three numbers respelled. -/
theorem echo_keeps_fingerprint_tagged :
    Item.toNative tagged = .ok taggedItem.toValue ∧
      canonical (Batch.enclosed (some .put) taggedItem.toValue) =
        .ok (Batch.enclosed (some .put) taggedEcho.toValue) ∧
      fingerprint (Batch.enclosed (some .put) taggedEcho.toValue) =
        fingerprint (Batch.enclosed (some .put) taggedItem.toValue) ∧
      canonical (Batch.enclosed (some .put) taggedEcho.toValue) =
        .ok (Batch.enclosed (some .put) taggedEcho.toValue) := by
  have encoded : Item.encode tagged = .ok taggedItem := rfl
  have made : Item.toNative tagged = .ok taggedItem.toValue := rfl
  have wellTyped := (Item.wellFormed_of_encode encoded).typed
  have done : canonical (Batch.enclosed (some .put) taggedItem.toValue) =
      .ok (Batch.enclosed (some .put) taggedEcho.toValue) :=
    (canonical_enclosed_eq_ok_iff (some .put) _ _).mpr ⟨_,
      (NativeItem.canonical_toValue_eq_ok_iff wellTyped _).mpr ⟨_, taggedItem_echoedAs, rfl⟩, rfl⟩
  obtain ⟨same, again, _⟩ := echo_keeps_fingerprint (some .put) made done
  exact ⟨made, done, same, again⟩

end TokenTable
