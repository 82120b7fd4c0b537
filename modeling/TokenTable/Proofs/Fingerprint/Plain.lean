import TokenTable.Batch.Write
import TokenTable.Proofs.Item.Encoding

/-! # Plain fingerprints

The fingerprint of a native map is compared with others by what it stands for, and byte strings of
every form stand for their content. A plain value holds texts, byte strings of the plain form, and
tuples of these; the fingerprints of encoded items are plain (`isPlain_fingerprint_request`). What
stands for the same thing as a plain value is that value once its byte strings are brought to the
plain form (`same_iff_plain_eq`).
-/

namespace TokenTable

namespace Value

mutual

/-- The value with its byte strings, also those within tuples, in the plain form. -/
def plain : Value → Value
  | .bytes _ content => .bytes .plain content
  | .tuple items => .tuple (plainList items)
  | v => v
termination_by structural v => v

/-- Several values with their byte strings in the plain form. -/
def plainList : List Value → List Value
  | [] => []
  | v :: rest => plain v :: plainList rest
termination_by structural vs => vs

end

mutual

/-- Whether the value is a text, a plain byte string, or a tuple of such values. -/
def isPlain : Value → Bool
  | .text _ => true
  | .bytes .plain _ => true
  | .tuple items => allPlain items
  | _ => false
termination_by structural v => v

def allPlain : List Value → Bool
  | [] => true
  | v :: rest => isPlain v && allPlain rest
termination_by structural vs => vs

end

theorem allPlain_iff (vs : List Value) : allPlain vs = true ↔ ∀ v ∈ vs, v.isPlain = true := by
  induction vs with
  | nil => simp [allPlain]
  | cons v rest ih => simp [allPlain, ih]

/-- Only byte strings with its content stand for what a byte string stands for. -/
theorem same_bytes_left_iff (content : List UInt8) (w : Value) :
    same (.bytes .plain content) w = true ↔ w.plain = .bytes .plain content := by
  cases w with
  | bytes form other =>
      simp only [same, sameAtom, beq_iff_eq, plain, Value.bytes.injEq, true_and]
      exact eq_comm
  | _ => simp [same, sameAtom, number?, plain]

mutual

/-- What stands for the same thing as a plain value is that value once it is plain. -/
theorem same_iff_plain_eq (v w : Value) (isPlain : v.isPlain = true) :
    v.same w = true ↔ w.plain = v := by
  cases v with
  | text s =>
      rw [same_text_left_iff]
      cases w <;> simp [plain]
  | bytes form content =>
      cases form with
      | plain => exact same_bytes_left_iff content w
      | _ => cases isPlain
  | tuple items =>
      cases w with
      | tuple items' =>
          have members := sameList_iff_plainList_eq items items' isPlain
          simpa only [same, plain, Value.tuple.injEq] using members
      | _ => simp [same, sameAtom, number?, plain]
  | _ => cases isPlain
termination_by structural v

/-- Several values agree with plain ones exactly when they are those once they are plain. -/
theorem sameList_iff_plainList_eq (vs ws : List Value) (arePlain : allPlain vs = true) :
    sameList vs ws = true ↔ plainList ws = vs := by
  cases vs with
  | nil => cases ws <;> simp [sameList, plainList]
  | cons v rest =>
      rw [allPlain, Bool.and_eq_true] at arePlain
      cases ws with
      | nil => simp [sameList, plainList]
      | cons w others =>
          have first := same_iff_plain_eq v w arePlain.1
          have second := sameList_iff_plainList_eq rest others arePlain.2
          rw [sameList, Bool.and_eq_true, first, second, plainList, List.cons.injEq]
termination_by structural vs

end

mutual

theorem plain_of_isPlain (v : Value) (isPlain : v.isPlain = true) : v.plain = v := by
  cases v with
  | bytes form content =>
      cases form with
      | plain => rfl
      | _ => cases isPlain
  | tuple items => rw [plain, plainList_of_allPlain items isPlain]
  | _ => rfl
termination_by structural v

theorem plainList_of_allPlain (vs : List Value) (arePlain : allPlain vs = true) :
    plainList vs = vs := by
  cases vs with
  | nil => rfl
  | cons v rest =>
      rw [allPlain, Bool.and_eq_true] at arePlain
      rw [plainList, plain_of_isPlain v arePlain.1, plainList_of_allPlain rest arePlain.2]
termination_by structural vs

end

end Value

open Value

/-- A value that is no list of anything else: a text or a plain byte string. -/
def Value.IsAtom (v : Value) : Prop := (∃ s, v = .text s) ∨ ∃ content, v = .bytes .plain content

theorem Value.IsAtom.isPlain {v : Value} (atom : v.IsAtom) : v.isPlain = true := by
  rcases atom with ⟨s, rfl⟩ | ⟨content, rfl⟩
  · rfl
  · rfl

/-- A typed value as encoding makes it: its payload or its elements are atoms. -/
def Attribute.Encoded : Attribute → Prop
  | .scalar _ payload => payload.IsAtom
  | .set _ elements => ∀ element ∈ elements, element.IsAtom

theorem Value.isAtom_of_admits {e : ScalarKind} {v : Value} (admits : e.Admits v) : v.IsAtom := by
  cases e with
  | binary => exact admits
  | _ => exact Or.inl admits

theorem Attribute.encoded_of_wellTyped {typed : Attribute} (wellTyped : typed.WellTyped) :
    typed.Encoded := by
  cases typed with
  | scalar e payload => exact Value.isAtom_of_admits wellTyped
  | set e elements => exact fun element member => Value.isAtom_of_admits (wellTyped element member)

/-- Every attribute of an encoded item is encoded. -/
theorem Item.encoded_of_encode (item : Value) (native : NativeItem)
    (done : encode item = .ok native) : ∀ entry ∈ native, entry.2.Encoded :=
  fun entry member =>
    Attribute.encoded_of_wellTyped ((wellFormed_of_encode done).typed entry member)

/-- Whether tuples have a property as soon as their members have it. -/
def Value.KeptByTuples (holds : Value → Prop) : Prop :=
  ∀ items, (∀ item ∈ items, holds item) → holds (.tuple items)

section KeptByTuples

variable {holds : Value → Prop}

theorem Value.KeptByTuples.sorted (kept : KeptByTuples holds) {items : List Value} {mark : Value}
    (each : ∀ item ∈ items, holds item)
    (done : (do return .tuple (← Value.sorted items) : Except Fault Value) = .ok mark) :
    holds mark := by
  obtain ⟨ordered, sorted, done⟩ := (bind_eq_ok_iff _ _ _).mp done
  cases done
  refine kept ordered fun item member => each item ?_
  exact (Value.sortOn_perm id items ordered sorted).mem_iff.mp member

theorem Value.KeptByTuples.sortMarks (kept : KeptByTuples holds) {marks : List (Value × Value)}
    {mark : Value} (each : ∀ entry ∈ marks, holds entry.1 ∧ holds entry.2)
    (done : sortMarks marks = .ok mark) : holds mark := by
  obtain ⟨ordered, sorted, done⟩ := (bind_eq_ok_iff _ _ _).mp done
  cases done
  refine kept _ fun item member => ?_
  obtain ⟨entry, present, rfl⟩ := List.mem_map.mp member
  have parts := each entry ((Value.sortOn_perm _ marks ordered sorted).mem_iff.mp present)
  refine kept _ fun part inside => ?_
  rcases List.mem_pair.mp inside with rfl | rfl
  · exact parts.1
  · exact parts.2

theorem holds_of_entryMarks {entries marks : List (Value × Value)}
    (each : ∀ entry ∈ entries, holds entry.1 ∧
      ∀ mark, markOf entry.1 entry.2 = .ok mark → holds mark)
    (done : entryMarks entries = .ok marks) : ∀ entry ∈ marks, holds entry.1 ∧ holds entry.2 := by
  induction entries generalizing marks with
  | nil =>
      cases done
      intro entry member
      cases member
  | cons entry rest ih =>
      obtain ⟨mark, single, done⟩ := (bind_eq_ok_iff _ _ _).mp done
      obtain ⟨others, several, done⟩ := (bind_eq_ok_iff _ _ _).mp done
      cases done
      rw [List.forall_mem_cons] at each ⊢
      exact ⟨⟨each.1.1, each.1.2 mark single⟩, ih each.2 several⟩

/-- The mark of a map has a property that tuples keep if its names and the marks under them do. -/
theorem Value.KeptByTuples.markOf_map (kept : KeptByTuples holds) {name mark : Value}
    {entries : List (Value × Value)}
    (each : ∀ entry ∈ entries, holds entry.1 ∧
      ∀ mark, markOf entry.1 entry.2 = .ok mark → holds mark)
    (done : markOf name (.map entries) = .ok mark) : holds mark := by
  rw [markOf] at done
  obtain ⟨marks, several, done⟩ := (bind_eq_ok_iff _ _ _).mp done
  exact kept.sortMarks (holds_of_entryMarks each several) done

end KeptByTuples

theorem Value.keptByTuples_isPlain : KeptByTuples fun v => v.isPlain = true :=
  fun items each => (allPlain_iff items).mpr each

theorem isPlain_numberMark (v mark : Value) (atom : v.IsAtom) (done : numberMark v = .ok mark) :
    mark.isPlain = true := by
  unfold numberMark at done
  split at done
  · cases done
  · cases done
    exact atom.isPlain
  · split at done
    · cases done
      rfl
    · cases done
      exact atom.isPlain
    · cases done

theorem isPlain_numberMarks (items marks : List Value) (atoms : ∀ item ∈ items, item.IsAtom)
    (done : items.mapM numberMark = .ok marks) : ∀ mark ∈ marks, mark.isPlain = true := by
  intro mark member
  obtain ⟨item, inside, single⟩ := exists_of_mem_mapM done member
  exact isPlain_numberMark item mark (atoms item inside) single

theorem isPlain_payloadMark (typed : Attribute) (encoded : typed.Encoded) (mark : Value)
    (done : payloadMark (.text typed.kind.tag) typed.decoded = .ok mark) :
    mark.isPlain = true := by
  cases typed with
  | scalar e payload =>
      have atom : payload.IsAtom := encoded
      rcases encoded with ⟨s, rfl⟩ | ⟨content, rfl⟩
      · cases e with
        | number => exact isPlain_numberMark _ mark atom done
        | _ =>
            cases done
            rfl
      · cases e with
        | number => exact isPlain_numberMark _ mark atom done
        | _ =>
            cases done
            rfl
  | set e elements =>
      have plain := fun element member => (encoded element member).isPlain
      cases e with
      | number =>
          obtain ⟨marks, numbers, done⟩ := (bind_eq_ok_iff _ _ _).mp done
          exact keptByTuples_isPlain.sorted (isPlain_numberMarks _ _ encoded numbers) done
      | _ => exact keptByTuples_isPlain.sorted plain done

theorem markOf_of_fingerprint (name mark : Value) (entries : List (Value × Value))
    (done : fingerprint (.map entries) = .ok mark) : markOf name (.map entries) = .ok mark := by
  obtain ⟨marks, several, done⟩ := (bind_eq_ok_iff _ _ _).mp done
  obtain ⟨sorted, single, done⟩ := (bind_eq_ok_iff _ _ _).mp done
  rw [markOf, several]
  by_cases key : sorted.isKey = true
  · rw [if_pos key] at done
    cases done
    exact single
  · rw [if_neg key] at done
    cases done

/-- The mark of an encoded payload is taken by its kind. -/
theorem markOf_decoded {typed : Attribute} (encoded : typed.Encoded) :
    markOf (.text typed.kind.tag) typed.decoded =
      payloadMark (.text typed.kind.tag) typed.decoded := by
  cases typed with
  | scalar e v =>
      rcases encoded with ⟨s, rfl⟩ | ⟨content, rfl⟩
      · rfl
      · rfl
  | set e elements => rfl

theorem isPlain_markOf_toValue (item : NativeItem) (encoded : ∀ entry ∈ item, entry.2.Encoded)
    (name mark : Value) (done : markOf name item.toValue = .ok mark) : mark.isPlain = true := by
  refine keptByTuples_isPlain.markOf_map (fun entry member => ?_) done
  rw [List.mem_map] at member
  obtain ⟨field, present, rfl⟩ := member
  obtain ⟨named, inside, rfl⟩ := List.mem_map.mp present
  refine ⟨rfl, fun mark done => ?_⟩
  refine keptByTuples_isPlain.markOf_map (fun entry member => ?_) done
  rw [List.map_cons, List.map_nil, List.mem_singleton] at member
  subst member
  refine ⟨rfl, fun mark done => ?_⟩
  rw [markOf_decoded (encoded named inside)] at done
  exact isPlain_payloadMark named.2 (encoded named inside) mark done

theorem isPlain_fingerprint_toValue (item : NativeItem)
    (encoded : ∀ entry ∈ item, entry.2.Encoded) (mark : Value)
    (done : fingerprint item.toValue = .ok mark) : mark.isPlain = true :=
  isPlain_markOf_toValue item encoded .null mark (markOf_of_fingerprint .null mark _ done)

theorem isPlain_markOf_request (mode : Batch.Mode) (item : NativeItem)
    (encoded : ∀ entry ∈ item, entry.2.Encoded) (name mark : Value)
    (done : markOf name (mode.request item.toValue) = .ok mark) : mark.isPlain = true := by
  have wrapped : ∀ outer inner : String,
      markOf name (.record [(outer, .record [(inner, item.toValue)])]) = .ok mark →
        mark.isPlain = true := by
    intro outer inner done
    refine keptByTuples_isPlain.markOf_map (fun entry member => ?_) done
    rw [List.map_cons, List.map_nil, List.mem_singleton] at member
    subst member
    refine ⟨rfl, fun mark done => keptByTuples_isPlain.markOf_map (fun entry member => ?_) done⟩
    rw [List.map_cons, List.map_nil, List.mem_singleton] at member
    subst member
    exact ⟨rfl, fun mark done => isPlain_markOf_toValue item encoded _ mark done⟩
  cases mode with
  | put => exact wrapped "PutRequest" "Item" done
  | delete => exact wrapped "DeleteRequest" "Key" done

/-- The fingerprint of a request that writes an encoded item is plain. -/
theorem isPlain_fingerprint_request (mode : Batch.Mode) (item : NativeItem)
    (encoded : ∀ entry ∈ item, entry.2.Encoded) (mark : Value)
    (done : fingerprint (mode.request item.toValue) = .ok mark) : mark.isPlain = true := by
  apply isPlain_markOf_request mode item encoded .null mark
  cases mode with
  | put => exact markOf_of_fingerprint .null mark _ done
  | delete => exact markOf_of_fingerprint .null mark _ done

end TokenTable
