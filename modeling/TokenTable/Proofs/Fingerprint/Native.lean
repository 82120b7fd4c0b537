import TokenTable.Proofs.Fingerprint.Echoed
import TokenTable.Proofs.Value.Equivalence

/-! # The fingerprints of all echoes

A store may echo any native map: one of a client's items, a request around it, or a map that no item
was translated to. Whatever it holds, the echo has the fingerprint of the map (`frozen_eq_of_echo`),
if no map stands in a list of it. No kind of attribute has such a list. The numbers in one would be
respelled but not looked into by a fingerprint, which could not be the key of a map then: whatever
has a fingerprint to compare by is native (`isNative_of_fingerprint`).
-/

namespace TokenTable

open Value

namespace Value

/-- Whether the value is of a shape that echoes and fingerprints go into. -/
def isNest : Value → Bool
  | .list _ | .map _ => true
  | _ => false

/-- A value that is no map and in whose lists there is none. -/
inductive IsMapless : Value → Prop
  | list {items : List Value} (each : ∀ v ∈ items, IsMapless v) : IsMapless (.list items)
  | other {v : Value} (flat : v.isNest = false) : IsMapless v

/-- A native map, or what stands under one of its names: maps within maps, down to payloads that
hold none. A payload is of any other shape, and so are the elements of a list. -/
inductive IsNative : Value → Prop
  | map {entries : Entries} (each : ∀ entry ∈ entries, IsNative entry.2) : IsNative (.map entries)
  | payload {v : Value} (mapless : v.IsMapless) : IsNative v

theorem isMapless_of_isKey {v : Value} (key : v.isKey = true) : v.IsMapless := by
  cases v with
  | list items => cases key
  | map entries => cases key
  | _ => exact .other rfl

/-- What has no map in it is echoed as itself. -/
theorem IsMapless.canonical_eq {v : Value} (mapless : v.IsMapless) : canonical v = .ok v := by
  induction mapless with
  | list _ ih =>
      rw [canonical, canonicalList_of_kept ih]
      rfl
  | @other v flat =>
      cases v with
      | list items => cases flat
      | map entries => cases flat
      | _ => rfl

end Value

/-- The marks of a map's entries in the order of their names. This is the fingerprint of the map if
it may be a key (`fingerprint_eq_frozen`). -/
def frozen : Value → Except Fault Value
  | .map entries => do sortMarks (← entryMarks entries)
  | _ => .error .noSuchMember

theorem fingerprint_eq_frozen (native : Value) :
    fingerprint native = (do
      let mark ← frozen native
      if mark.isKey then return mark else throw .wrongShape) := by
  cases native with
  | map entries => rw [fingerprint, frozen, bind_assoc]
  | _ => rfl

theorem markOf_number (s : String) : markOf (.text "N") (.text s) = numberMark (.text s) := rfl

theorem markOf_numbers (items : List Value) :
    markOf (.text "NS") (.list items) = do
      return .tuple (← Value.sorted (← items.mapM numberMark)) := rfl

theorem canonicalUnder_null (v : Value) : canonicalUnder .null v = canonical v := rfl

/-- The mark under a name does not tell the spelling of numbers. -/
theorem markOf_eq_of_echo {v : Value} (native : v.IsNative) {name echo : Value}
    (done : canonicalUnder name v = .ok echo) : markOf name echo = markOf name v := by
  induction native generalizing name echo with
  | map _ ih =>
      rw [canonicalUnder_map, canonical_map_eq_ok_iff] at done
      obtain ⟨others, echoed, rfl⟩ := done
      have both := (List.forall₂_and_left _ _).mpr ⟨ih, echoed⟩
      rw [markOf, markOf, entryMarks_eq_of_forall₂ (both.imp fun entry other single =>
        ⟨single.2.1, (single.1 single.2.2).symm⟩)]
  | payload mapless =>
      unfold canonicalUnder at done
      split at done
      · obtain ⟨_, _, _, _, rfl⟩ := (plainNumber_text_eq_ok_iff _ _).mp done
        rw [markOf_number, markOf_number, numberMark_eq_of_plainNumber done]
      · obtain ⟨numbers, several, done⟩ := (bind_eq_ok_iff _ _ _).mp done
        cases done
        have marks := mapM_eq_of_forall₂ <|
          (forall₂_of_mapM several).imp fun _ _ single => (numberMark_eq_of_plainNumber single).symm
        rw [markOf_numbers, markOf_numbers, marks]
      · rw [mapless.canonical_eq] at done
        cases done
        rfl

/-- **The echo of a native map has its fingerprint**, also where that may not be a key. -/
theorem frozen_eq_of_echo {v echo : Value} (native : v.IsNative) (done : canonical v = .ok echo) :
    frozen echo = frozen v := by
  cases native with
  | map each =>
      have marks := markOf_eq_of_echo (.map each) ((canonicalUnder_null _).trans done)
      obtain ⟨others, _, rfl⟩ := (canonical_map_eq_ok_iff _ _).mp done
      rwa [markOf, markOf] at marks
  | payload mapless =>
      rw [mapless.canonical_eq] at done
      cases done
      rfl

section Keys

/-! What has a fingerprint that may be a key is a native map. -/

variable {name v mark : Value}

theorem isKey_of_mem_of_isKey_tuple {items : List Value} (key : (tuple items).isKey = true) :
    ∀ item ∈ items, item.isKey = true := by
  induction items with
  | nil =>
      intro item member
      cases member
  | cons item rest ih =>
      obtain ⟨first, others⟩ : item.isKey = true ∧ (tuple rest).isKey = true := by
        simpa [isKey, allKeys] using key
      exact List.forall_mem_cons.mpr ⟨first, ih others⟩

theorem isMapless_of_decimalPart {n : Int} (done : v.decimalPart = .ok n) : v.IsMapless := by
  cases v with
  | list items => cases done
  | map entries => cases done
  | _ => exact .other rfl

theorem isMapless_of_digitParts {digits : List Nat} (done : v.digitParts = .ok digits) :
    v.IsMapless := by
  cases v with
  | map entries => cases done
  | list items =>
      refine .list fun item member => ?_
      have several : items.mapM digitPart = .ok digits := done
      obtain ⟨digit, _, single⟩ := exists_result_of_mem several member
      obtain ⟨n, part, _⟩ := (bind_eq_ok_iff _ _ _).mp single
      exact isMapless_of_decimalPart part
  | _ => exact .other rfl

theorem isMapless_of_scalePart {scale : Scale} (done : v.scalePart = .ok scale) :
    v.IsMapless := by
  cases v with
  | list items => cases done
  | map entries => cases done
  | _ => exact .other rfl

/-- What stands for a number holds no map: of a list, each part has a shape of its own. -/
theorem isMapless_of_toDecimal {d : Decimal} (done : v.toDecimal = .ok d) : v.IsMapless := by
  cases v with
  | map entries => cases done
  | list parts =>
      change decimalOfParts parts = .ok d at done
      unfold decimalOfParts at done
      split at done
      · obtain ⟨negative, sign, done⟩ := (bind_eq_ok_iff _ _ _).mp done
        obtain ⟨scale, exponent, done⟩ := (bind_eq_ok_iff _ _ _).mp done
        obtain ⟨digits, coefficient, _⟩ := (bind_eq_ok_iff _ _ _).mp done
        obtain ⟨n, sign, _⟩ := (bind_eq_ok_iff _ _ _).mp sign
        refine .list ?_
        rw [List.forall_mem_cons, List.forall_mem_cons, List.forall_mem_singleton]
        exact ⟨isMapless_of_decimalPart sign, isMapless_of_digitParts coefficient,
          isMapless_of_scalePart exponent⟩
      · cases done
  | _ => exact .other rfl

theorem isMapless_of_numberMark (done : numberMark v = .ok mark) (key : mark.isKey = true) :
    v.IsMapless := by
  unfold numberMark at done
  split at done
  · cases done
  · cases done
    exact isMapless_of_isKey key
  · rename_i number
    exact isMapless_of_toDecimal number

theorem isMapless_of_payloadMark (done : payloadMark name v = .ok mark) (key : mark.isKey = true) :
    v.IsMapless := by
  -- a sorted tuple that may be a key has members that may be keys
  have sorted : ∀ {marks : List Value},
      (do return .tuple (← Value.sorted marks) : Except Fault Value) = .ok mark →
        ∀ item ∈ marks, item.isKey = true := by
    intro marks done item member
    obtain ⟨ordered, sorted, done⟩ := (bind_eq_ok_iff _ _ _).mp done
    cases done
    refine isKey_of_mem_of_isKey_tuple key item ?_
    exact (Value.sortOn_perm id marks ordered sorted).mem_iff.mpr member
  unfold payloadMark at done
  split at done
  · exact isMapless_of_numberMark done key
  · obtain ⟨marks, numbers, done⟩ := (bind_eq_ok_iff _ _ _).mp done
    refine .list fun item member => ?_
    obtain ⟨mark, inside, single⟩ := exists_result_of_mem numbers member
    exact isMapless_of_numberMark single (sorted done mark inside)
  · exact .list fun item member => isMapless_of_isKey (sorted done item member)
  · exact .list fun item member => isMapless_of_isKey (sorted done item member)
  · cases done
    exact .list fun item member => isMapless_of_isKey (isKey_of_mem_of_isKey_tuple key item member)
  · cases done
    exact isMapless_of_isKey key

/-- The marks under the names of a map may be keys if the mark of the map may. -/
theorem isKey_of_sortMarks {marks : List (Value × Value)} (done : sortMarks marks = .ok mark)
    (key : mark.isKey = true) : ∀ entry ∈ marks, entry.2.isKey = true := by
  obtain ⟨ordered, sorted, done⟩ := (bind_eq_ok_iff _ _ _).mp done
  cases done
  intro entry member
  have present := (Value.sortOn_perm _ marks ordered sorted).mem_iff.mpr member
  have pair := isKey_of_mem_of_isKey_tuple key _ (List.mem_map_of_mem present)
  exact isKey_of_mem_of_isKey_tuple pair _ (List.mem_pair.mpr (Or.inr rfl))

theorem exists_mem_of_entryMarks {entries marks : List (Value × Value)}
    (done : entryMarks entries = .ok marks) :
    ∀ entry ∈ entries, ∃ mark, markOf entry.1 entry.2 = .ok mark ∧ (entry.1, mark) ∈ marks := by
  induction entries generalizing marks with
  | nil =>
      intro entry member
      cases member
  | cons entry rest ih =>
      obtain ⟨mark, single, done⟩ := (bind_eq_ok_iff _ _ _).mp done
      obtain ⟨others, several, done⟩ := (bind_eq_ok_iff _ _ _).mp done
      cases done
      rw [List.forall_mem_cons]
      refine ⟨⟨mark, single, List.mem_cons_self⟩, fun other member => ?_⟩
      obtain ⟨found, same, present⟩ := ih several other member
      exact ⟨found, same, List.mem_cons_of_mem _ present⟩

theorem isNative_of_markOf (done : markOf name v = .ok mark) (key : mark.isKey = true) :
    v.IsNative := by
  induction v using induction_parts generalizing name mark with
  | step v ih =>
      cases v with
      | map entries =>
          rw [markOf] at done
          obtain ⟨marks, several, done⟩ := (bind_eq_ok_iff _ _ _).mp done
          refine .map fun entry member => ?_
          obtain ⟨found, single, present⟩ := exists_mem_of_entryMarks several entry member
          have allowed := isKey_of_sortMarks done key _ present
          exact ih _ (mem_parts_map member).2 single allowed
      | _ => exact .payload (isMapless_of_payloadMark done key)

/-- What has a fingerprint is a native map. -/
theorem isNative_of_fingerprint (done : fingerprint v = .ok mark) : v.IsNative := by
  rw [fingerprint_eq_frozen] at done
  obtain ⟨found, marked, done⟩ := (bind_eq_ok_iff _ _ _).mp done
  by_cases key : found.isKey = true
  · cases v with
    | map entries =>
        have single : markOf .null (.map entries) = .ok found := by
          rw [markOf]
          exact marked
        exact isNative_of_markOf single key
    | _ => cases marked
  · rw [if_neg key] at done
    cases done

end Keys

section Origins

/-! Echoes of other values are no native maps. -/

variable {name v echo : Value}

theorem isMapless_of_plainNumber (done : plainNumber v = .ok echo) : v.IsMapless := by
  obtain ⟨d, number, _⟩ := (bind_eq_ok_iff _ _ _).mp done
  exact isMapless_of_toDecimal number

theorem isMapless_of_echo (done : canonical v = .ok echo) (mapless : echo.IsMapless) :
    v.IsMapless := by
  induction v using induction_parts generalizing echo with
  | step v ih =>
      cases v with
      | map entries =>
          obtain ⟨others, _, rfl⟩ := (canonical_map_eq_ok_iff entries echo).mp done
          cases mapless with
          | other flat => cases flat
      | list items =>
          rw [canonical, canonicalList_eq_mapM] at done
          obtain ⟨echoes, several, done⟩ := (bind_eq_ok_iff _ _ _).mp done
          cases done
          cases mapless with
          | other flat => cases flat
          | list each =>
              refine .list fun item member => ?_
              obtain ⟨other, inside, single⟩ := exists_result_of_mem several member
              exact ih item member single (each other inside)
      | _ => exact .other rfl

theorem isMapless_of_echo_under (done : canonicalUnder name v = .ok echo)
    (mapless : echo.IsMapless) : v.IsMapless := by
  unfold canonicalUnder at done
  split at done
  · exact .other rfl
  · obtain ⟨numbers, several, _⟩ := (bind_eq_ok_iff _ _ _).mp done
    refine .list fun item member => ?_
    obtain ⟨number, _, single⟩ := exists_result_of_mem several member
    exact isMapless_of_plainNumber single
  · exact isMapless_of_echo done mapless

/-- Only a map is echoed as a map. -/
theorem exists_map_of_echo_under {others : Value.Entries}
    (done : canonicalUnder name v = .ok (.map others)) : ∃ entries, v = .map entries := by
  unfold canonicalUnder at done
  split at done
  · obtain ⟨_, _, _, _, same⟩ := (plainNumber_text_eq_ok_iff _ _).mp done
    cases same
  · obtain ⟨_, _, same⟩ := (bind_eq_ok_iff _ _ _).mp done
    cases same
  · cases v with
    | map entries => exact ⟨entries, rfl⟩
    | list items =>
        obtain ⟨_, _, same⟩ := (bind_eq_ok_iff _ _ _).mp done
        cases same
    | _ => cases done

/-- Only a native map is echoed as one. -/
theorem isNative_of_echo_under (done : canonicalUnder name v = .ok echo) (native : echo.IsNative) :
    v.IsNative := by
  induction native generalizing name v with
  | payload mapless => exact .payload (isMapless_of_echo_under done mapless)
  | map _ ih =>
      obtain ⟨entries, rfl⟩ := exists_map_of_echo_under done
      rw [canonicalUnder_map, canonical_map_eq_ok_iff] at done
      obtain ⟨others, echoed, same⟩ := done
      cases same
      refine .map fun entry member => ?_
      obtain ⟨other, inside, _, single⟩ := exists_of_mem_forall₂ echoed.flip entry member
      exact ih other inside single

/-- A value has a fingerprint exactly when its echo has, and then the same. -/
theorem fingerprint_toOption_eq_of_echo (done : canonical v = .ok echo) :
    (fingerprint echo).toOption = (fingerprint v).toOption := by
  by_cases native : v.IsNative
  · rw [fingerprint_eq_frozen, fingerprint_eq_frozen, frozen_eq_of_echo native done]
  · have unnatural : ¬ echo.IsNative :=
      mt (isNative_of_echo_under ((canonicalUnder_null v).trans done)) native
    have none : ∀ w : Value, ¬ w.IsNative → (fingerprint w).toOption = none := by
      intro w other
      cases found : fingerprint w with
      | error fault => rfl
      | ok mark => exact absurd (isNative_of_fingerprint found) other
    rw [none v native, none echo unnatural]

end Origins

end TokenTable
