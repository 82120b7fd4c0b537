import TokenTable.Canonical
import TokenTable.Proofs.Fingerprint.Comparable
import TokenTable.Proofs.Number.Spelling

/-! # What a store echoes

A store echoes the numbers of a native map in plain normal spelling and everything else as it was
sent. A native item is echoed exactly when each of its numbers has a normal form
(`NativeItem.canonical_toValue_eq_ok_iff`), and so is a request around it. Tags are known by their
places: an attribute may have the name of a tag.
-/

namespace TokenTable

open Value

/-- Whether the second payload is the plain normal spelling of the number that the first spells. -/
def Value.EchoedAs (v w : Value) : Prop :=
  ∃ s d, v = .text s ∧ Decimal.normalOf? s = some d ∧ w = .text d.toPlain

/-- How a typed value is echoed: its numbers are respelled one by one, and what is not of a number
kind stays. -/
def Attribute.EchoedAs : Attribute → Attribute → Prop
  | .scalar .number v, other => ∃ w, v.EchoedAs w ∧ other = .scalar .number w
  | .set .number vs, other => ∃ ws, List.Forall₂ Value.EchoedAs vs ws ∧ other = .set .number ws
  | typed, other => other = typed

/-- How a native item is echoed: attribute by attribute, each under its name. -/
def NativeItem.EchoedAs (item other : NativeItem) : Prop :=
  List.Forall₂ (fun field echo => echo.1 = field.1 ∧ field.2.EchoedAs echo.2) item other

namespace Value

/-- A plain spelling is echoed as itself. -/
theorem EchoedAs.again {v w : Value} (echoed : v.EchoedAs w) : w.EchoedAs w := by
  obtain ⟨s, d, rfl, found, rfl⟩ := echoed
  exact ⟨d.toPlain, d, rfl, Decimal.normalOf?_toPlain found, rfl⟩

/-- A number text is echoed if it has a normal form, and only then. -/
theorem plainNumber_text_eq_ok_iff (s : String) (echo : Value) :
    plainNumber (.text s) = .ok echo ↔ (text s).EchoedAs echo := by
  have spelled : (text s).toDecimal = ((Decimal.read? s).map .ok).getD (.error .notNumeric) := rfl
  have found : (text s).EchoedAs echo ↔
      ∃ d, Decimal.normalOf? s = some d ∧ echo = .text d.toPlain := by
    simp [EchoedAs]
  rw [found, plainNumber, spelled, Decimal.normalOf?]
  cases read : Decimal.read? s with
  | none => simp [bind, Except.bind]
  | some d =>
      simp only [Option.map_some, Option.getD_some, Option.bind_some, bind, Except.bind]
      cases normal : d.normal with
      | ok normalized => simp [Except.toOption, pure, Except.pure, eq_comm]
      | error cause => cases cause <;> simp [Except.toOption, throw, throwThe, MonadExceptOf.throw]

/-- Number texts are echoed if each of them is, and only then. -/
theorem mapM_plainNumber_eq_ok_iff {vs : List Value} (texts : ∀ v ∈ vs, ∃ s, v = .text s)
    (echoes : List Value) :
    vs.mapM plainNumber = .ok echoes ↔ List.Forall₂ EchoedAs vs echoes := by
  obtain ⟨ss, rfl⟩ := exists_map_of_forall .text texts
  have each : (ss.map text).mapM plainNumber = .ok echoes ↔
      List.Forall₂ (fun v echo => plainNumber v = .ok echo) (ss.map text) echoes :=
    ⟨forall₂_of_mapM, mapM_of_forall₂⟩
  rw [each, List.forall₂_map_left_iff, List.forall₂_map_left_iff]
  simp only [plainNumber_text_eq_ok_iff]

theorem IsAtom.canonical_eq {v : Value} (atom : v.IsAtom) : canonical v = .ok v := by
  rcases atom with ⟨s, rfl⟩ | ⟨content, rfl⟩
  · rfl
  · rfl

theorem canonicalList_eq_mapM (vs : List Value) : canonicalList vs = vs.mapM canonical := by
  induction vs with
  | nil => rfl
  | cons v rest ih => rw [canonicalList, ih, List.mapM_cons]

/-- A list of values that are echoed as themselves is echoed as itself. -/
theorem canonicalList_of_kept {vs : List Value} (kept : ∀ v ∈ vs, canonical v = .ok v) :
    canonicalList vs = .ok vs := by
  rw [canonicalList_eq_mapM]
  exact mapM_of_forall₂ (List.forall₂_same.mpr kept)

end Value

/-- What is echoed under a name: a number under the number tag and the numbers under the number set
tag are respelled. -/
def canonicalUnder (name v : Value) : Except Fault Value :=
  match name, v with
  | .text "N", .text s => plainNumber (.text s)
  | .text "NS", .list items => return .list (← items.mapM plainNumber)
  | _, v => canonical v

theorem canonicalEntries_cons (name v : Value) (rest : Value.Entries) :
    canonicalEntries ((name, v) :: rest) = do
      let value ← canonicalUnder name v
      return (name, value) :: (← canonicalEntries rest) := by
  unfold canonicalUnder
  split
  · rfl
  · rw [canonicalEntries, bind_assoc]
    rfl
  · rw [canonicalEntries]
    · assumption
    · assumption

/-- A map is no payload, so it is echoed by its own entries also under the name of a tag. -/
theorem canonicalUnder_map (name : Value) (inner : Value.Entries) :
    canonicalUnder name (.map inner) = canonical (.map inner) := by
  unfold canonicalUnder
  -- neither of the two tags has a map under it
  split
  · contradiction
  · contradiction
  · rfl

/-- A map is echoed entry by entry, each under its name. -/
theorem canonicalEntries_eq_ok_iff (entries others : Value.Entries) :
    canonicalEntries entries = .ok others ↔
      List.Forall₂ (fun entry other => other.1 = entry.1 ∧
        canonicalUnder entry.1 entry.2 = .ok other.2) entries others := by
  induction entries generalizing others with
  | nil => cases others <;> simp [canonicalEntries]
  | cons entry rest ih =>
      obtain ⟨name, v⟩ := entry
      rw [canonicalEntries_cons, List.forall₂_cons_left_iff, bind_eq_ok_iff]
      simp only [bind_eq_ok_iff, pure_eq_ok_iff, ih]
      constructor
      · rintro ⟨value, single, rest, several, rfl⟩
        exact ⟨(name, value), rest, ⟨rfl, single⟩, several, rfl⟩
      · rintro ⟨⟨_, value⟩, rest, ⟨rfl, single⟩, several, rfl⟩
        exact ⟨value, single, rest, several, rfl⟩

theorem canonical_map_eq_ok_iff (entries : Value.Entries) (echo : Value) :
    canonical (.map entries) = .ok echo ↔
      ∃ others, List.Forall₂ (fun entry other => other.1 = entry.1 ∧
        canonicalUnder entry.1 entry.2 = .ok other.2) entries others ∧ echo = .map others := by
  rw [canonical, bind_eq_ok_iff]
  simp only [pure_eq_ok_iff, canonicalEntries_eq_ok_iff, eq_comm (b := echo)]

section Records

variable {fields : List (String × Value)}

theorem canonicalEntries_cons_map (key : Value) (inner rest : Value.Entries) :
    canonicalEntries ((key, .map inner) :: rest) = do
      let value ← canonical (.map inner)
      return (key, value) :: (← canonicalEntries rest) := by
  rw [canonicalEntries_cons, canonicalUnder_map]

/-- Maps in the fields of a record are echoed field by field, whatever the names. -/
theorem canonical_record_eq_ok_iff (nested : ∀ field ∈ fields, ∃ inner, field.2 = .map inner)
    (echo : Value) :
    canonical (.record fields) = .ok echo ↔
      ∃ others, List.Forall₂ (fun field other => other.1 = field.1 ∧
        canonical field.2 = .ok other.2) fields others ∧ echo = .record others := by
  have under : ∀ field ∈ fields, canonicalUnder (.text field.1) field.2 = canonical field.2 := by
    intro field member
    obtain ⟨inner, same⟩ := nested field member
    rw [same, canonicalUnder_map]
  rw [Value.record, canonical_map_eq_ok_iff]
  constructor
  · rintro ⟨entries, each, rfl⟩
    have both := (List.forall₂_and_left _ _).mpr ⟨under, List.forall₂_map_left_iff.mp each⟩
    have read : List.Forall₂ (fun field entry => ∃ other : String × Value,
        (other.1 = field.1 ∧ canonical field.2 = .ok other.2) ∧ entryOfField other = entry)
        fields entries :=
      both.imp fun field entry single =>
        ⟨(field.1, entry.2), ⟨rfl, single.1.symm.trans single.2.2⟩, Prod.ext single.2.1.symm rfl⟩
    obtain ⟨others, echoed, rfl⟩ := (forall₂_read_iff entryOfField _ _).mp read
    exact ⟨others, echoed, rfl⟩
  · rintro ⟨others, each, rfl⟩
    have both := (List.forall₂_and_left _ _).mpr ⟨under, each⟩
    refine ⟨_, List.forall₂_map_left_iff.mpr (List.forall₂_map_right_iff.mpr ?_), rfl⟩
    exact both.imp fun field other single =>
      ⟨congrArg Value.text single.2.1, single.1.trans single.2.2⟩

/-- A payload is echoed by one step under its tag. -/
theorem canonical_tagged_eq_ok_iff {α : Type} {tag : String} {payload : Value}
    {step : Except Fault α} {result : α → Value}
    (single : canonicalEntries [(.text tag, payload)] = do
      let a ← step
      return (.text tag, result a) :: (← canonicalEntries [])) (echo : Value) :
    canonical (.record [(tag, payload)]) = .ok echo ↔
      ∃ a, step = .ok a ∧ echo = .record [(tag, result a)] := by
  have whole : canonical (.record [(tag, payload)]) = do
      return .map (← canonicalEntries [(.text tag, payload)]) := rfl
  rw [whole, single]
  cases step with
  | error fault => simp [bind, Except.bind]
  | ok a => simp [bind, Except.bind, pure, Except.pure, canonicalEntries, record, eq_comm]

end Records

namespace Attribute

variable {typed other : Attribute}

/-- The kind of the payload, or of the elements of a set. -/
def element : Attribute → ScalarKind
  | .scalar e _ => e
  | .set e _ => e

/-- An echoed value is echoed as itself. -/
theorem EchoedAs.again (echoed : typed.EchoedAs other) : other.EchoedAs other := by
  cases typed with
  | scalar e v =>
      cases e with
      | number =>
          obtain ⟨w, respelled, rfl⟩ := echoed
          exact ⟨w, respelled.again, rfl⟩
      | _ =>
          cases echoed
          rfl
  | set e vs =>
      cases e with
      | number =>
          obtain ⟨ws, respelled, rfl⟩ := echoed
          refine ⟨ws, List.forall₂_same.mpr fun w member => ?_, rfl⟩
          obtain ⟨v, _, single⟩ := exists_of_mem_forall₂ respelled w member
          exact single.again
      | _ =>
          cases echoed
          rfl

theorem EchoedAs.wellTyped (echoed : typed.EchoedAs other) (wellTyped : typed.WellTyped) :
    other.WellTyped := by
  cases typed with
  | scalar e v =>
      cases e with
      | number =>
          obtain ⟨w, ⟨s, d, _, _, rfl⟩, rfl⟩ := echoed
          exact ⟨d.toPlain, rfl⟩
      | _ =>
          cases echoed
          exact wellTyped
  | set e vs =>
      cases e with
      | number =>
          obtain ⟨ws, respelled, rfl⟩ := echoed
          intro w member
          obtain ⟨v, _, s, d, _, _, same⟩ := exists_of_mem_forall₂ respelled w member
          exact ⟨d.toPlain, same⟩
      | _ =>
          cases echoed
          exact wellTyped

theorem toNative_number {v w : Value} (respelled : v.EchoedAs w) :
    (scalar .number w).toNative = .record [("N", w)] := by
  obtain ⟨_, _, _, _, rfl⟩ := respelled
  rfl

/-- What is not of a number kind is echoed as it is. -/
theorem canonical_toNative_of_encoded (encoded : typed.Encoded) (other : typed.element ≠ .number) :
    canonical typed.toNative = .ok typed.toNative := by
  cases typed with
  | scalar e v =>
      rcases encoded with ⟨s, rfl⟩ | ⟨content, rfl⟩
      · cases e with
        | number => exact absurd rfl other
        | _ => rfl
      · cases e with
        | number => exact absurd rfl other
        | _ => rfl
  | set e vs =>
      have kept : canonical (.list vs) = .ok (.list vs) := by
        rw [canonical, canonicalList_of_kept fun v member => (encoded v member).canonical_eq]
        rfl
      cases e with
      | number => exact absurd rfl other
      | text => exact (canonical_tagged_eq_ok_iff rfl _).mpr ⟨_, kept, rfl⟩
      | binary => exact (canonical_tagged_eq_ok_iff rfl _).mpr ⟨_, kept, rfl⟩

/-- A typed value is echoed if each of its numbers is, and only then. -/
theorem canonical_toNative_eq_ok_iff (wellTyped : typed.WellTyped) (echo : Value) :
    canonical typed.toNative = .ok echo ↔
      ∃ other, typed.EchoedAs other ∧ echo = other.toNative := by
  have encoded := encoded_of_wellTyped wellTyped
  have kept : typed.element ≠ .number → (canonical typed.toNative = .ok echo ↔
      ∃ other, other = typed ∧ echo = other.toNative) := by
    intro other
    rw [canonical_toNative_of_encoded encoded other, exists_eq_left, Except.ok.injEq, eq_comm]
  cases typed with
  | scalar e v =>
      cases e with
      | number =>
          obtain ⟨s, rfl⟩ := wellTyped
          refine (canonical_tagged_eq_ok_iff rfl echo).trans ?_
          simp only [plainNumber_text_eq_ok_iff]
          constructor
          · rintro ⟨w, respelled, rfl⟩
            exact ⟨_, ⟨w, respelled, rfl⟩, (toNative_number respelled).symm⟩
          · rintro ⟨other, ⟨w, respelled, rfl⟩, rfl⟩
            exact ⟨w, respelled, toNative_number respelled⟩
      | _ => exact kept nofun
  | set e vs =>
      cases e with
      | number =>
          refine (canonical_tagged_eq_ok_iff rfl echo).trans ?_
          simp only [mapM_plainNumber_eq_ok_iff wellTyped]
          constructor
          · rintro ⟨ws, respelled, rfl⟩
            exact ⟨_, ⟨ws, respelled, rfl⟩, rfl⟩
          · rintro ⟨other, ⟨ws, respelled, rfl⟩, rfl⟩
            exact ⟨ws, respelled, rfl⟩
      | _ => exact kept nofun

end Attribute

namespace NativeItem

variable {item other : NativeItem}

theorem EchoedAs.again (echoed : item.EchoedAs other) : other.EchoedAs other := by
  refine List.forall₂_same.mpr fun echo member => ⟨rfl, ?_⟩
  obtain ⟨field, _, _, single⟩ := exists_of_mem_forall₂ echoed echo member
  exact single.again

theorem EchoedAs.wellTyped (echoed : item.EchoedAs other)
    (wellTyped : ∀ field ∈ item, field.2.WellTyped) : ∀ echo ∈ other, echo.2.WellTyped := by
  intro echo member
  obtain ⟨field, inside, _, single⟩ := exists_of_mem_forall₂ echoed echo member
  exact single.wellTyped (wellTyped field inside)

/-- The typed values of an item are echoed one by one. -/
theorem forall₂_canonical_iff (wellTyped : ∀ field ∈ item, field.2.WellTyped)
    (echoes : List (String × Value)) :
    List.Forall₂ (fun field echo => echo.1 = field.1 ∧ canonical field.2.toNative = .ok echo.2)
        item echoes ↔
      ∃ other : NativeItem, item.EchoedAs other ∧
        echoes = other.map fun field => (field.1, field.2.toNative) := by
  constructor
  · intro each
    induction each with
    | nil => exact ⟨[], .nil, rfl⟩
    | @cons field echo _ _ single _ ih =>
        rw [List.forall_mem_cons] at wellTyped
        obtain ⟨typed, echoed, native⟩ :=
          (Attribute.canonical_toNative_eq_ok_iff wellTyped.1 _).mp single.2
        obtain ⟨other, several, rfl⟩ := ih wellTyped.2
        refine ⟨(field.1, typed) :: other, .cons ⟨rfl, echoed⟩ several, ?_⟩
        rw [List.map_cons, ← native, ← single.1]
  · rintro ⟨other, echoed, rfl⟩
    rw [List.forall₂_map_right_iff]
    induction echoed with
    | nil => exact .nil
    | cons single _ ih =>
        rw [List.forall_mem_cons] at wellTyped
        refine .cons ⟨single.1, ?_⟩ (ih wellTyped.2)
        exact (Attribute.canonical_toNative_eq_ok_iff wellTyped.1 _).mpr ⟨_, single.2, rfl⟩

/-- **What is echoed.** A native item is echoed exactly when each of its numbers has a normal form,
and then as an item with the same names and kinds, in the same order, and with the same payloads but
for the spellings of the numbers. -/
theorem canonical_toValue_eq_ok_iff (wellTyped : ∀ field ∈ item, field.2.WellTyped)
    (echo : Value) :
    canonical item.toValue = .ok echo ↔ ∃ other, item.EchoedAs other ∧ echo = other.toValue := by
  have nested : ∀ field ∈ item.map (fun field => (field.1, field.2.toNative)),
      ∃ inner, field.2 = .map inner := by
    intro field member
    obtain ⟨_, _, rfl⟩ := List.mem_map.mp member
    exact ⟨_, rfl⟩
  rw [toValue, canonical_record_eq_ok_iff nested]
  simp only [List.forall₂_map_left_iff, forall₂_canonical_iff wellTyped]
  constructor
  · rintro ⟨_, ⟨other, echoed, rfl⟩, rfl⟩
    exact ⟨other, echoed, rfl⟩
  · rintro ⟨other, echoed, rfl⟩
    exact ⟨_, ⟨other, echoed, rfl⟩, rfl⟩

end NativeItem

/-- A native map as it is sent: by itself, or in the request of a mode. -/
def Batch.enclosed (mode? : Option Mode) (native : Value) : Value :=
  mode?.elim native fun mode => mode.request native

/-- A request is echoed with the map in it. -/
theorem canonical_enclosed_eq_ok_iff (mode? : Option Batch.Mode) (inner : Value.Entries)
    (echo : Value) :
    canonical (Batch.enclosed mode? (.map inner)) = .ok echo ↔
      ∃ other, canonical (.map inner) = .ok other ∧ echo = Batch.enclosed mode? other := by
  have wrapped : ∀ outer name : String,
      canonical (.record [(outer, .record [(name, .map inner)])]) = .ok echo ↔
        ∃ other, canonical (.map inner) = .ok other ∧
          echo = .record [(outer, .record [(name, other)])] := by
    intro outer name
    have once := canonical_tagged_eq_ok_iff
      (canonicalEntries_cons_map (.text name) inner [])
    have twice := canonical_tagged_eq_ok_iff
      (canonicalEntries_cons_map (.text outer) [(.text name, .map inner)] [])
    refine (twice echo).trans ?_
    constructor
    · rintro ⟨middle, done, rfl⟩
      obtain ⟨other, single, rfl⟩ := (once middle).mp done
      exact ⟨other, single, rfl⟩
    · rintro ⟨other, single, rfl⟩
      exact ⟨_, (once _).mpr ⟨other, single, rfl⟩, rfl⟩
  cases mode? with
  | none => simp [Batch.enclosed]
  | some mode =>
      cases mode with
      | put => exact wrapped "PutRequest" "Item"
      | delete => exact wrapped "DeleteRequest" "Key"

end TokenTable
