import Mathlib.Data.List.Nodup
import TokenTable.Item
import TokenTable.Proofs.Fallible
import TokenTable.Proofs.Token

/-! # What encoding makes

Encoding brings every value to its kind (`Attribute.wellTyped_of_encode`) and leaves a value alone
that is of its kind already (`Attribute.encode_decoded`). An item is encoded attribute by attribute,
each under the name of its own token and no two under one name (`Item.encode_eq_ok_iff`); so its
names fit their kinds (`Item.fits_of_encode`).
-/

namespace TokenTable

/-- Whether a payload or an element may stand under a kind: texts may, and byte strings may under
the binary kind. -/
def ScalarKind.Admits : ScalarKind → Value → Prop
  | .binary, v => (∃ s, v = .text s) ∨ ∃ content, v = .bytes .plain content
  | _, v => ∃ s, v = .text s

theorem Value.isNull_iff (v : Value) : v.isNull = true ↔ v = .null := by
  cases v <;> simp [isNull]

/-- Whether a value can be encoded under a kind: it is not null, and no collection if the kind is
that of a single value. -/
structure Kind.Takes (kind : Kind) (v : Value) : Prop where
  given : v ≠ .null
  single : ∀ e, kind = .scalar e → v.isCollection = false

namespace Attribute

/-- A typed value whose payload, or each of whose elements, is of its kind. -/
def WellTyped : Attribute → Prop
  | .scalar e payload => e.Admits payload
  | .set e elements => ∀ element ∈ elements, e.Admits element

theorem admits_coerce (e : ScalarKind) (v : Value) : e.Admits (coerce e v) := by
  cases e with
  | binary =>
      cases v with
      | bytes form content => exact Or.inr ⟨content, rfl⟩
      | _ => exact Or.inl ⟨_, rfl⟩
  | _ => exact ⟨_, rfl⟩

theorem coerce_of_admits {e : ScalarKind} {v : Value} (admits : e.Admits v) : coerce e v = v := by
  cases e with
  | binary =>
      rcases admits with ⟨s, rfl⟩ | ⟨content, rfl⟩
      · rfl
      · rfl
  | _ =>
      obtain ⟨s, rfl⟩ := admits
      rfl

/-- What a kind admits is a single value. -/
theorem single_of_admits {e : ScalarKind} {v : Value} (admits : e.Admits v) :
    v.isNull = false ∧ v.isCollection = false := by
  rw [← coerce_of_admits admits]
  cases e with
  | binary =>
      rcases admits with ⟨s, rfl⟩ | ⟨content, rfl⟩
      · exact ⟨rfl, rfl⟩
      · exact ⟨rfl, rfl⟩
  | _ => exact ⟨rfl, rfl⟩

theorem decoded_scalar {e : ScalarKind} {v : Value} (admits : e.Admits v) :
    (scalar e v).decoded = v := by
  have single := (single_of_admits admits).2
  cases v with
  | tuple items => cases single
  | _ => rfl

/-- Every element that a value contributes to a set is brought to the kind of the set. -/
theorem exists_of_mem_elementsOf {e : ScalarKind} {v element : Value}
    (member : element ∈ elementsOf e v) : ∃ w, element = coerce e w := by
  unfold elementsOf at member
  split at member
  · rw [List.mem_mergeSort] at member
    obtain ⟨w, _, same⟩ := List.mem_map.mp member
    exact ⟨w, same.symm⟩
  · obtain ⟨w, _, same⟩ := List.mem_map.mp member
    exact ⟨w, same.symm⟩
  · obtain ⟨w, _, same⟩ := List.mem_map.mp member
    exact ⟨w, same.symm⟩
  · exact ⟨v, List.mem_singleton.mp member⟩

/-- Encoding under a kind makes a value of that kind. -/
theorem wellTyped_of_encode {v : Value} {kind : Kind} {typed : Attribute}
    (done : encode v kind = .ok typed) : typed.WellTyped ∧ typed.kind = kind := by
  unfold encode at done
  split at done
  · cases done
  · cases kind with
    | set e =>
        cases done
        refine ⟨fun element member => ?_, rfl⟩
        obtain ⟨w, rfl⟩ := exists_of_mem_elementsOf member
        exact admits_coerce e w
    | scalar e =>
        simp only at done
        split at done
        · cases done
        · cases done
          exact ⟨admits_coerce e v, rfl⟩

/-- A value is encoded under a kind exactly when the kind takes it. -/
theorem exists_encode_iff (v : Value) (kind : Kind) :
    (∃ typed, encode v kind = .ok typed) ↔ kind.Takes v := by
  constructor
  · rintro ⟨typed, done⟩
    constructor
    · rintro rfl
      cases done
    · rintro e rfl
      unfold encode at done
      split at done
      · cases done
      · by_contra several
        rw [Bool.not_eq_false] at several
        simp only [several, ↓reduceIte] at done
        cases done
  · intro takes
    have given : v.isNull = false :=
      Bool.eq_false_iff.mpr (mt (Value.isNull_iff v).mp takes.given)
    unfold encode
    cases kind with
    | set e => exact ⟨_, by rw [given]; rfl⟩
    | scalar e => exact ⟨_, by rw [given, takes.single e rfl]; rfl⟩

theorem failsOnly_encode (v : Value) (kind : Kind) :
    FailsOnly (fun fault => fault.category = .invalidOperand) (encode v kind) := by
  unfold encode
  refine .ite (.error rfl) ?_
  cases kind with
  | set e => exact .ok _
  | scalar e => exact .ite (.error rfl) (.ok _)

/-- What is of its kind is encoded as it is. -/
theorem encode_decoded {typed : Attribute} (wellTyped : typed.WellTyped) :
    encode typed.decoded typed.kind = .ok typed := by
  cases typed with
  | scalar e payload =>
      have admits : e.Admits payload := wellTyped
      have single := single_of_admits admits
      rw [decoded_scalar admits]
      unfold encode
      simp only [kind, single, Bool.false_eq_true, ↓reduceIte, coerce_of_admits admits]
  | set e elements =>
      have kept : elementsOf e (.list elements) = elements.map id :=
        List.map_congr_left fun element member => coerce_of_admits (wellTyped element member)
      rw [List.map_id] at kept
      unfold encode
      simp only [kind, decoded, payload, Value.isNull, Bool.false_eq_true, ↓reduceIte, kept]

/-- The native form of a value that is of its kind is read as that value. -/
theorem ofNative_toNative {typed : Attribute} (wellTyped : typed.WellTyped) :
    ofNative typed.toNative = .ok typed := by
  cases typed with
  | scalar e payload =>
      rw [toNative, decoded_scalar wellTyped]
      cases e <;> rfl
  | set e elements => exact ofNative_toNative_set e elements

end Attribute

/-- A native item as encoding makes it: no two attributes have one name, and every value is of its
kind. -/
structure NativeItem.WellFormed (item : NativeItem) : Prop where
  distinct : (item.map Prod.fst).Nodup
  typed : ∀ field ∈ item, field.2.WellTyped

namespace Item

/-- An entry of an item adds one attribute to those before it, under a name that is new. -/
theorem encodeEntry_eq_ok_iff (done next : NativeItem) (entry : Value × Value) :
    encodeEntry done entry = .ok next ↔
      ∃ token typed, Token.parse false entry.1 = .ok token ∧
        Attribute.encode entry.2 token.kind = .ok typed ∧ token.name ∉ done.map Prod.fst ∧
        next = done ++ [(token.name, typed)] := by
  have repeated (name : String) : (done.any (·.1 == name)) = true ↔ name ∈ done.map Prod.fst := by
    simp
  constructor
  · intro step
    obtain ⟨token, parsed, step⟩ := (bind_eq_ok_iff _ _ _).mp step
    by_cases null : entry.2.isNull = true
    · simp only [null, ↓reduceIte] at step
      cases step
    by_cases known : token.name ∈ done.map Prod.fst
    · simp only [null, (repeated _).mpr known, ↓reduceIte] at step
      cases step
    simp only [null, mt (repeated _).mp known] at step
    obtain ⟨typed, encoded, step⟩ := (bind_eq_ok_iff _ _ _).mp step
    cases step
    exact ⟨token, typed, parsed, encoded, known, rfl⟩
  · rintro ⟨token, typed, parsed, encoded, new, rfl⟩
    have given : entry.2.isNull = false := by
      cases v : entry.2 with
      | null =>
          rw [v] at encoded
          cases encoded
      | _ => rfl
    refine (bind_eq_ok_iff _ _ _).mpr ⟨token, parsed, ?_⟩
    simp only [given, mt (repeated _).mp new, Bool.false_eq_true, ↓reduceIte]
    exact (bind_eq_ok_iff _ _ _).mpr ⟨typed, encoded, rfl⟩

/-- An entry of an item makes an attribute: its token names it, and its value is encoded. -/
def Makes (entry : Value × Value) (field : String × Attribute) : Prop :=
  ∃ token, Token.parse false entry.1 = .ok token ∧ token.name = field.1 ∧
    Attribute.encode entry.2 token.kind = .ok field.2

theorem foldlM_encodeEntry_eq_ok_iff (entries : Value.Entries) (start native : NativeItem) :
    entries.foldlM encodeEntry start = .ok native ↔
      ∃ added, native = start ++ added ∧ List.Forall₂ Makes entries added ∧
        (added.map Prod.fst).Nodup ∧ ∀ name ∈ added.map Prod.fst, name ∉ start.map Prod.fst := by
  induction entries generalizing start with
  | nil =>
      rw [List.foldlM_nil, pure_eq_ok_iff]
      constructor
      · rintro rfl
        exact ⟨[], (List.append_nil _).symm, .nil, List.nodup_nil, fun _ member => by cases member⟩
      · rintro ⟨added, rfl, each, _⟩
        cases each
        exact (List.append_nil _).symm
  | cons entry rest ih =>
      rw [List.foldlM_cons, bind_eq_ok_iff]
      constructor
      · rintro ⟨next, step, folded⟩
        obtain ⟨token, typed, parsed, encoded, new, rfl⟩ :=
          (encodeEntry_eq_ok_iff _ _ _).mp step
        obtain ⟨added, rfl, each, apart, fresh⟩ := (ih _).mp folded
        refine ⟨(token.name, typed) :: added, by simp, .cons ⟨token, parsed, rfl, encoded⟩ each,
          ?_, ?_⟩
        · rw [List.map_cons, List.nodup_cons]
          refine ⟨fun again => fresh _ again ?_, apart⟩
          simp
        · intro name member old
          rcases List.mem_cons.mp member with rfl | later
          · exact new old
          · refine fresh name later ?_
            rw [List.map_append]
            exact List.mem_append_left _ old
      · rintro ⟨added, rfl, each, apart, fresh⟩
        cases each with
        | @cons _ field _ others makes each =>
            obtain ⟨token, parsed, named, encoded⟩ := makes
            rw [List.map_cons, List.nodup_cons] at apart
            refine ⟨start ++ [field], ?_, (ih _).mpr ⟨others, by simp, each, apart.2, ?_⟩⟩
            · refine (encodeEntry_eq_ok_iff _ _ _).mpr
                ⟨token, field.2, parsed, encoded, ?_, by rw [named]⟩
              rw [named]
              exact fresh _ List.mem_cons_self
            · intro name member old
              rw [List.map_append, List.mem_append] at old
              rcases old with old | same
              · exact fresh name (List.mem_cons_of_mem _ member) old
              · rw [List.map_singleton, List.mem_singleton] at same
                subst same
                exact apart.1 member

/-- An item is encoded entry by entry, and no two entries name one attribute. -/
theorem encode_eq_ok_iff (item : Value) (native : NativeItem) :
    encode item = .ok native ↔
      ∃ entries, item = .map entries ∧ List.Forall₂ Makes entries native ∧
        (native.map Prod.fst).Nodup := by
  cases item with
  | map entries =>
      rw [encode, foldlM_encodeEntry_eq_ok_iff]
      constructor
      · rintro ⟨added, rfl, each, apart, _⟩
        exact ⟨entries, rfl, each, apart⟩
      · rintro ⟨_, same, each, apart⟩
        cases same
        exact ⟨native, rfl, each, apart, fun _ _ old => by cases old⟩
  | _ => simp [encode]

theorem exists_makes_of_mem {item : Value} {native : NativeItem} (done : encode item = .ok native)
    {field : String × Attribute} (member : field ∈ native) : ∃ entry, Makes entry field := by
  obtain ⟨entries, _, each, _⟩ := (encode_eq_ok_iff item native).mp done
  obtain ⟨entry, _, makes⟩ := exists_of_mem_forall₂ each field member
  exact ⟨entry, makes⟩

theorem wellFormed_of_encode {item : Value} {native : NativeItem}
    (done : encode item = .ok native) : native.WellFormed := by
  constructor
  · obtain ⟨_, _, _, distinct⟩ := (encode_eq_ok_iff item native).mp done
    exact distinct
  · intro field member
    obtain ⟨entry, token, _, _, encoded⟩ := exists_makes_of_mem done member
    exact (Attribute.wellTyped_of_encode encoded).1

/-- Every name of an encoded item fits the kind of its value. -/
theorem fits_of_encode {item : Value} {native : NativeItem} (done : encode item = .ok native) :
    ∀ field ∈ native, Token.Fits ⟨field.1, field.2.kind⟩ := by
  intro field member
  obtain ⟨entry, token, parsed, named, encoded⟩ := exists_makes_of_mem done member
  have fits := Token.fits_of_parse parsed
  rw [← named, (Attribute.wellTyped_of_encode encoded).2]
  exact fits

end Item

end TokenTable
