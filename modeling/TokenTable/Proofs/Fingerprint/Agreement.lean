import TokenTable.Proofs.Fingerprint.Elements
import TokenTable.Proofs.Number.Spelling

/-! # What a fingerprint tells

The fingerprint of a native map tells the names of its attributes, the kind under each, and the
payloads: texts and byte strings as they are, sets by their elements and how often each occurs, and
numbers by their normal forms. A short number is told by its exact value; a longer one is rounded,
and the two zeros are told apart. Main statement: `fingerprint_tells`.
-/

namespace TokenTable

open Decimal (SameNormal SameNumber)

/-- Whether two payloads are texts that are related as numbers. -/
def Value.NumbersAgree (numbers : String → String → Prop) (v w : Value) : Prop :=
  ∃ s t, v = .text s ∧ w = .text t ∧ numbers s t

/-- Whether two lists agree member by member once one of them is rearranged. -/
def Rearranged {α : Type} (related : α → α → Prop) (items others : List α) : Prop :=
  ∃ rearranged, List.Forall₂ related items rearranged ∧ rearranged.Perm others

namespace Attribute

/-- Whether two typed values have one kind and payloads that agree, numbers as a relation says. -/
def Agrees (numbers : String → String → Prop) : Attribute → Attribute → Prop
  | .scalar .number v, .scalar .number w => v.NumbersAgree numbers w
  | .set .number vs, .set .number ws => Rearranged (Value.NumbersAgree numbers) vs ws
  | .scalar e v, .scalar e' w => e = e' ∧ v = w
  | .set e vs, .set e' ws => e = e' ∧ vs.Perm ws
  | _, _ => False

/-- Whether a text stands for a number in a typed value. -/
def Spells (s : String) : Attribute → Prop
  | .scalar .number v => v = .text s
  | .set .number vs => .text s ∈ vs
  | _ => False

end Attribute

/-- Whether two native items have the same names, and values that agree under each. -/
def NativeItem.Agrees (numbers : String → String → Prop) (item other : NativeItem) : Prop :=
  ∀ name, Option.Rel (Attribute.Agrees numbers) (item.lookup name) (other.lookup name)

/-- Whether every finite number in a native item is short. -/
def NativeItem.Short (item : NativeItem) : Prop :=
  ∀ field ∈ item, ∀ s, field.2.Spells s → Decimal.ShortText s

/-- A number text has a mark if it is not too great, and then the mark is the text respelled. -/
theorem numberMark_text {s : String} {mark : Value} (done : numberMark (.text s) = .ok mark) :
    mark = .text (Decimal.respelled s) ∧ Decimal.InRange s := by
  have spelled : (Value.text s).toDecimal = ((Decimal.read? s).map .ok).getD (.error .notNumeric) :=
    rfl
  rw [numberMark, spelled] at done
  rw [Decimal.InRange, Decimal.respelled, Decimal.normalOf?]
  cases read : Decimal.read? s with
  | none =>
      rw [read] at done
      cases done
      exact ⟨rfl, fun d other => by cases other⟩
  | some d =>
      rw [read] at done
      simp only [Option.map_some, Option.getD_some] at done
      cases normal : d.normal with
      | ok n =>
          rw [normal] at done
          cases done
          refine ⟨by rw [Option.bind_some, normal]; rfl, fun other same => ?_⟩
          cases same
          rw [normal]
          exact fun wrong => by cases wrong
      | error cause =>
          rw [normal] at done
          cases cause with
          | overflow => cases done
          | invalid =>
              cases done
              refine ⟨by rw [Option.bind_some, normal]; rfl, fun other same => ?_⟩
              cases same
              rw [normal]
              exact fun wrong => by cases wrong

/-- A relation of number texts that is told by their marks. -/
def ToldByMarks (numbers : String → String → Prop) (s t : String) : Prop :=
  Decimal.InRange s → Decimal.InRange t → (SameNormal s t ↔ numbers s t)

section Payloads

variable {numbers : String → String → Prop}

theorem numberMark_eq_iff {s t : String} {mark markOther : Value} (told : ToldByMarks numbers s t)
    (done : numberMark (.text s) = .ok mark) (doneOther : numberMark (.text t) = .ok markOther) :
    mark = markOther ↔ Value.NumbersAgree numbers (.text s) (.text t) := by
  obtain ⟨rfl, inRange⟩ := numberMark_text done
  obtain ⟨rfl, inRangeOther⟩ := numberMark_text doneOther
  rw [Value.text.injEq, Decimal.respelled_eq_iff inRange inRangeOther, told inRange inRangeOther]
  simp [Value.NumbersAgree]

/-- The marks of numbers are the same exactly when the numbers agree one by one. -/
theorem numberMarks_eq_iff {ss ts : List String} {marks marksOther : List Value}
    (told : ∀ s ∈ ss, ∀ t ∈ ts, ToldByMarks numbers s t)
    (done : (ss.map Value.text).mapM numberMark = .ok marks)
    (doneOther : (ts.map Value.text).mapM numberMark = .ok marksOther) :
    marks = marksOther ↔
      List.Forall₂ (Value.NumbersAgree numbers) (ss.map .text) (ts.map .text) := by
  induction ss generalizing ts marks marksOther with
  | nil =>
      rw [List.map_nil, mapM_nil_eq_ok_iff] at done
      subst done
      cases ts with
      | nil =>
          rw [List.map_nil, mapM_nil_eq_ok_iff] at doneOther
          simp [doneOther]
      | cons t ts =>
          obtain ⟨_, _, _, _, rfl⟩ := (mapM_cons_eq_ok_iff _ _ _ _).mp doneOther
          simp
  | cons s ss ih =>
      obtain ⟨mark, others, single, several, rfl⟩ := (mapM_cons_eq_ok_iff _ _ _ _).mp done
      cases ts with
      | nil =>
          rw [List.map_nil, mapM_nil_eq_ok_iff] at doneOther
          simp [doneOther]
      | cons t ts =>
          obtain ⟨markOther, othersOther, singleOther, severalOther, rfl⟩ :=
            (mapM_cons_eq_ok_iff _ _ _ _).mp doneOther
          have first := numberMark_eq_iff (told s List.mem_cons_self t List.mem_cons_self) single
            singleOther
          have rest := ih (fun s inS t inT =>
            told s (List.mem_cons_of_mem _ inS) t (List.mem_cons_of_mem _ inT)) several severalOther
          rw [List.cons.injEq, first, rest, List.map_cons, List.map_cons, List.forall₂_cons]

/-- The marks of numbers are rearrangements of one another exactly when the numbers agree once
rearranged. -/
theorem numberMarks_perm_iff {ss ts : List String} {marks marksOther : List Value}
    (told : ∀ s ∈ ss, ∀ t ∈ ts, ToldByMarks numbers s t)
    (done : (ss.map Value.text).mapM numberMark = .ok marks)
    (doneOther : (ts.map Value.text).mapM numberMark = .ok marksOther) :
    marks.Perm marksOther ↔
      Rearranged (Value.NumbersAgree numbers) (ss.map .text) (ts.map .text) := by
  have injective : Function.Injective Value.text := fun _ _ => Value.text.inj
  constructor
  · intro perm
    obtain ⟨rearranged, each, back⟩ :=
      List.perm_comp_forall₂ perm (forall₂_of_mapM doneOther).flip
    obtain ⟨us, rfl, same⟩ := Value.exists_map_of_perm injective back.symm
    refine ⟨us.map .text, ?_, back⟩
    have toldBy : ∀ s ∈ ss, ∀ u ∈ us, ToldByMarks numbers s u :=
      fun s inS u inU => told s inS u (same.mem_iff.mpr inU)
    exact (numberMarks_eq_iff toldBy done (mapM_of_forall₂ each.flip)).mp rfl
  · rintro ⟨rearranged, each, back⟩
    obtain ⟨us, rfl, same⟩ := Value.exists_map_of_perm injective back.symm
    obtain ⟨marked, doneMarked, moved⟩ := mapM_of_perm back.symm doneOther
    have toldBy : ∀ s ∈ ss, ∀ u ∈ us, ToldByMarks numbers s u :=
      fun s inS u inU => told s inS u (same.mem_iff.mpr inU)
    rw [(numberMarks_eq_iff toldBy done doneMarked).mpr each]
    exact moved

/-- The sorted elements of a set as one mark. -/
theorem sortedMark_eq_iff {items others : List Value} {mark markOther : Value}
    (atoms : ∀ item ∈ items, item.IsAtom)
    (done : (do return .tuple (← Value.sorted items) : Except Fault Value) = .ok mark)
    (doneOther : (do return .tuple (← Value.sorted others) : Except Fault Value) = .ok markOther) :
    mark = markOther ↔ items.Perm others := by
  obtain ⟨ordered, sorted, done⟩ := (bind_eq_ok_iff _ _ _).mp done
  obtain ⟨orderedOther, sortedOther, doneOther⟩ := (bind_eq_ok_iff _ _ _).mp doneOther
  cases done
  cases doneOther
  rw [Value.tuple.injEq]
  exact Value.sorted_eq_iff_perm atoms sorted sortedOther

/-- The marks of two payloads of one kind are the same exactly when the payloads agree. -/
theorem payloadMark_eq_iff {typed other : Attribute} {mark markOther : Value}
    (wellTyped : typed.WellTyped) (wellTypedOther : other.WellTyped)
    (kinds : typed.kind = other.kind)
    (told : ∀ s t, typed.Spells s → other.Spells t → ToldByMarks numbers s t)
    (done : payloadMark (.text typed.kind.tag) typed.decoded = .ok mark)
    (doneOther : payloadMark (.text other.kind.tag) other.decoded = .ok markOther) :
    mark = markOther ↔ typed.Agrees numbers other := by
  cases typed with
  | scalar e v =>
      cases other with
      | set e' ws => cases kinds
      | scalar e' w =>
          cases kinds
          rw [Attribute.decoded_scalar wellTyped] at done
          rw [Attribute.decoded_scalar wellTypedOther] at doneOther
          cases e with
          | number =>
              obtain ⟨s, rfl⟩ := wellTyped
              obtain ⟨t, rfl⟩ := wellTypedOther
              exact numberMark_eq_iff (told s t rfl rfl) done doneOther
          | text =>
              obtain ⟨s, rfl⟩ := wellTyped
              obtain ⟨t, rfl⟩ := wellTypedOther
              cases done
              cases doneOther
              simp [Attribute.Agrees]
          | binary =>
              have kept : ∀ payload mark : Value, ScalarKind.binary.Admits payload →
                  payloadMark (.text "B") payload = .ok mark → mark = payload := by
                rintro _ mark (⟨s, rfl⟩ | ⟨content, rfl⟩) made
                · exact (Except.ok.inj made).symm
                · exact (Except.ok.inj made).symm
              rw [kept v mark wellTyped done, kept w markOther wellTypedOther doneOther]
              simp [Attribute.Agrees]
  | set e vs =>
      cases other with
      | scalar e' w => cases kinds
      | set e' ws =>
          cases kinds
          have atoms : ∀ v ∈ vs, v.IsAtom :=
            fun v member => Value.isAtom_of_admits (wellTyped v member)
          cases e with
          | number =>
              obtain ⟨ss, rfl⟩ := Value.exists_map_of_forall .text wellTyped
              obtain ⟨ts, rfl⟩ := Value.exists_map_of_forall .text wellTypedOther
              obtain ⟨marks, several, done⟩ := (bind_eq_ok_iff _ _ _).mp done
              obtain ⟨marksOther, severalOther, doneOther⟩ := (bind_eq_ok_iff _ _ _).mp doneOther
              have marked : ∀ mark ∈ marks, mark.IsAtom := by
                intro mark member
                obtain ⟨v, inside, single⟩ := exists_of_mem_mapM several member
                obtain ⟨s, _, rfl⟩ := List.mem_map.mp inside
                exact Or.inl ⟨_, (numberMark_text single).1⟩
              rw [sortedMark_eq_iff marked done doneOther]
              exact numberMarks_perm_iff (fun s inS t inT => told s t (List.mem_map_of_mem inS)
                (List.mem_map_of_mem inT)) several severalOther
          | text =>
              rw [sortedMark_eq_iff atoms done doneOther]
              simp [Attribute.Agrees]
          | binary =>
              rw [sortedMark_eq_iff atoms done doneOther]
              simp [Attribute.Agrees]

theorem kind_eq_of_agrees {typed other : Attribute} (agrees : typed.Agrees numbers other) :
    typed.kind = other.kind := by
  unfold Attribute.Agrees at agrees
  split at agrees
  · rfl
  · rfl
  · rw [Attribute.kind, Attribute.kind, agrees.1]
  · rw [Attribute.kind, Attribute.kind, agrees.1]
  · cases agrees

/-- The marks of two native values are the same exactly when the values have one kind and agree. -/
theorem nativeMark_eq_iff {outer : Value} {typed other : Attribute} {mark markOther : Value}
    (wellTyped : typed.WellTyped) (wellTypedOther : other.WellTyped)
    (told : ∀ s t, typed.Spells s → other.Spells t → ToldByMarks numbers s t)
    (done : markOf outer typed.toNative = .ok mark)
    (doneOther : markOf outer other.toNative = .ok markOther) :
    mark = markOther ↔ typed.Agrees numbers other := by
  obtain ⟨inner, single, rfl⟩ := exists_of_markOf_record_singleton done
  obtain ⟨innerOther, singleOther, rfl⟩ := exists_of_markOf_record_singleton doneOther
  rw [markOf_decoded (Attribute.encoded_of_wellTyped wellTyped)] at single
  rw [markOf_decoded (Attribute.encoded_of_wellTyped wellTypedOther)] at singleOther
  have payloads := fun kinds =>
    payloadMark_eq_iff wellTyped wellTypedOther kinds told single singleOther
  simp only [Value.tuple.injEq, List.cons.injEq, Value.text.injEq, and_true]
  constructor
  · rintro ⟨tags, same⟩
    have kinds : typed.kind = other.kind := by
      rw [← Option.some_inj, ← Kind.ofTag?_tag, tags, Kind.ofTag?_tag]
    exact (payloads kinds).mp same
  · intro agrees
    have kinds := kind_eq_of_agrees agrees
    exact ⟨by rw [kinds], (payloads kinds).mpr agrees⟩

end Payloads

/-- Marks of fields make one mark of the record exactly when each name has the same mark. -/
theorem byName_eq_iff {marked markedOther : List (String × Value)}
    (distinct : (marked.map Prod.fst).Nodup) (distinctOther : (markedOther.map Prod.fst).Nodup) :
    (byName marked).map (fun field => Value.tuple [.text field.1, field.2]) =
        (byName markedOther).map (fun field => Value.tuple [.text field.1, field.2]) ↔
      ∀ name, marked.lookup name = markedOther.lookup name := by
  constructor
  · intro same
    exact lookup_eq_of_perm (perm_of_byName_tuples_eq same) distinct
  · intro same
    have perm : marked.Perm markedOther := by
      refine (List.perm_ext_iff_of_nodup distinct.of_map distinctOther.of_map).mpr ?_
      rintro ⟨name, value⟩
      rw [← lookup_eq_some_iff_mem distinct, ← lookup_eq_some_iff_mem distinctOther, same]
    rw [byName_eq_of_perm perm distinct]

/-- A name holds the mark of the value that it held in the item, or nothing as before. -/
theorem lookup_of_itemMarked {item : NativeItem} {marked : List (String × Value)}
    (each : Marked (item.map fun entry => (entry.1, entry.2.toNative)) marked) (name : String) :
    (item.lookup name = none ∧ marked.lookup name = none) ∨
      ∃ typed mark, (name, typed) ∈ item ∧ item.lookup name = some typed ∧
        marked.lookup name = some mark ∧ markOf (.text name) typed.toNative = .ok mark := by
  rcases lookup_of_marked each name with ⟨absent, none⟩ | ⟨v, mark, native, found, taken⟩
  · rw [lookup_mapValues, Option.map_eq_none_iff] at absent
    exact Or.inl ⟨absent, none⟩
  · rw [lookup_mapValues] at native
    obtain ⟨typed, held, rfl⟩ := Option.map_eq_some_iff.mp native
    obtain ⟨before, after, split, _⟩ := List.lookup_eq_some_iff.mp held
    refine Or.inr ⟨typed, mark, ?_, held, found, taken⟩
    rw [split]
    exact List.mem_append_right _ List.mem_cons_self

/-- The marks of two native items are the same exactly when the items agree. -/
theorem itemMark_eq_iff {numbers : String → String → Prop} {outer mark markOther : Value}
    {item other : NativeItem} (wellFormed : item.WellFormed) (wellFormedOther : other.WellFormed)
    (told : ∀ field ∈ item, ∀ fieldOther ∈ other, ∀ s t, field.2.Spells s →
      fieldOther.2.Spells t → ToldByMarks numbers s t)
    (done : markOf outer item.toValue = .ok mark)
    (doneOther : markOf outer other.toValue = .ok markOther) :
    mark = markOther ↔ item.Agrees numbers other := by
  obtain ⟨marked, each, names, rfl⟩ := markOf_record done
  obtain ⟨markedOther, eachOther, namesOther, rfl⟩ := markOf_record doneOther
  have namesOf : ∀ item : NativeItem,
      (item.map fun entry => (entry.1, entry.2.toNative)).map Prod.fst = item.map Prod.fst := by
    intro item
    rw [List.map_map]
    rfl
  rw [namesOf] at names namesOther
  rw [Value.tuple.injEq, byName_eq_iff (by rw [names]; exact wellFormed.distinct)
    (by rw [namesOther]; exact wellFormedOther.distinct)]
  apply forall_congr'
  intro name
  rcases lookup_of_itemMarked each name with
    ⟨absent, none⟩ | ⟨typed, mark, inside, held, found, taken⟩
  · rcases lookup_of_itemMarked eachOther name with
      ⟨absentOther, noneOther⟩ | ⟨typedOther, markOther, _, heldOther, foundOther, _⟩
    · rw [absent, none, absentOther, noneOther]
      exact ⟨fun _ => .none, fun _ => rfl⟩
    · rw [absent, none, heldOther, foundOther]
      exact Iff.intro nofun nofun
  · rcases lookup_of_itemMarked eachOther name with
      ⟨absentOther, noneOther⟩ | ⟨typedOther, markOther, among, heldOther, foundOther, takenOther⟩
    · rw [held, found, absentOther, noneOther]
      exact Iff.intro nofun nofun
    · rw [held, found, heldOther, foundOther, Option.some_inj, Option.rel_some_some]
      exact nativeMark_eq_iff (wellFormed.typed _ inside) (wellFormedOther.typed _ among)
        (told _ inside _ among) taken takenOther

/-- Values that agree also do under a weaker relation of numbers. -/
theorem Attribute.Agrees.mono {numbers weaker : String → String → Prop}
    (implies : ∀ s t, numbers s t → weaker s t) {typed other : Attribute}
    (agrees : typed.Agrees numbers other) : typed.Agrees weaker other := by
  have payloads : ∀ v w : Value, v.NumbersAgree numbers w → v.NumbersAgree weaker w :=
    fun _ _ ⟨s, t, left, right, related⟩ => ⟨s, t, left, right, implies s t related⟩
  cases typed with
  | scalar e v =>
      cases other with
      | set e' ws => cases e <;> cases agrees
      | scalar e' w =>
          cases e with
          | number =>
              cases e' with
              | number => exact payloads v w agrees
              | _ => exact agrees
          | _ => cases e' <;> exact agrees
  | set e vs =>
      cases other with
      | scalar e' w => cases e <;> cases agrees
      | set e' ws =>
          cases e with
          | number =>
              cases e' with
              | number =>
                  obtain ⟨rearranged, each, back⟩ := agrees
                  exact ⟨rearranged, each.imp payloads, back⟩
              | _ => exact agrees
          | _ => cases e' <;> exact agrees

theorem NativeItem.Agrees.mono {numbers weaker : String → String → Prop}
    (implies : ∀ s t, numbers s t → weaker s t) {item other : NativeItem}
    (agrees : item.Agrees numbers other) : item.Agrees weaker other := by
  intro name
  have related := agrees name
  generalize item.lookup name = held, other.lookup name = heldOther at related ⊢
  cases related with
  | some each => exact .some (each.mono implies)
  | none => exact .none

/-- Whether a text spells a positive number of a few digits, zeros included. -/
def Decimal.isBrief (s : String) : Bool :=
  match read? s with
  | some (.finite false c e) =>
    decide (digitCount c ≤ precision) && decide (minPlace ≤ e) && (normalOf? s).isSome
  | _ => false

theorem Decimal.short_of_isBrief {s : String} (brief : isBrief s = true) :
    ShortText s ∧ Value.InRange (.text s) := by
  unfold isBrief at brief
  split at brief
  · rename_i c e read
    simp only [Bool.and_eq_true, decide_eq_true_eq] at brief
    constructor
    · intro n c' e' spelled
      rw [read] at spelled
      cases spelled
      refine ⟨fun _ => rfl, c, 0, by simp, brief.1.1, ?_⟩
      simpa using brief.1.2
    · intro t d same spelled
      cases same
      rw [normalOf?_of_read? spelled] at brief
      intro overflow
      rw [overflow] at brief
      cases brief.2
  · cases brief

/-- Numbers of a few digits are short and have fingerprints. -/
theorem NativeItem.of_isBrief {item : NativeItem}
    (brief : ∀ field ∈ item, (∃ s, field.2 = .scalar .number (.text s) ∧ Decimal.isBrief s) ∨
      ∃ ss : List String, field.2 = .set .number (ss.map .text) ∧ ∀ s ∈ ss, Decimal.isBrief s) :
    item.Short ∧ item.Comparable := by
  refine ⟨fun field member t spells => ?_, fun field member => ?_, fun field member => ?_⟩
  · rcases brief field member with ⟨s, same, single⟩ | ⟨ss, same, several⟩
    · rw [same] at spells
      cases spells
      exact (Decimal.short_of_isBrief single).1
    · rw [same] at spells
      obtain ⟨s, inside, alike⟩ := List.mem_map.mp spells
      rw [← Value.text.inj alike]
      exact (Decimal.short_of_isBrief (several s inside)).1
  · rcases brief field member with ⟨s, same, _⟩ | ⟨ss, same, _⟩
    · rw [same]
      exact ⟨s, rfl⟩
    · rw [same]
      intro element inside
      obtain ⟨s, _, rfl⟩ := List.mem_map.mp inside
      exact ⟨s, rfl⟩
  · rcases brief field member with ⟨s, same, single⟩ | ⟨ss, same, several⟩
    · rw [same]
      exact (Decimal.short_of_isBrief single).2
    · rw [same]
      intro element inside
      obtain ⟨s, listed, rfl⟩ := List.mem_map.mp inside
      exact (Decimal.short_of_isBrief (several s listed)).2

/-- **What a fingerprint tells.** Encoded items have the same fingerprint exactly when they have the
same names with the same kinds, and payloads that agree: numbers by their normal forms, all others
as they are, and sets however they are arranged. If all numbers are short, they agree exactly when
they are equal as exact numbers. -/
theorem fingerprint_tells {v w mark markOther : Value} {item other : NativeItem}
    (encoded : Item.encode v = .ok item) (encodedOther : Item.encode w = .ok other)
    (done : fingerprint item.toValue = .ok mark)
    (doneOther : fingerprint other.toValue = .ok markOther) :
    (mark.same markOther = true ↔ item.Agrees SameNormal other) ∧
      (item.Short → other.Short → (mark.same markOther = true ↔ item.Agrees SameNumber other)) ∧
      (item.Agrees (· = ·) other → mark.same markOther = true) := by
  have wellFormed := Item.wellFormed_of_encode encoded
  have wellFormedOther := Item.wellFormed_of_encode encodedOther
  have isPlain := isPlain_fingerprint_toValue item (Item.encoded_of_encode v item encoded) mark done
  have isPlainOther := isPlain_fingerprint_toValue other
    (Item.encoded_of_encode w other encodedOther) markOther doneOther
  have same : mark.same markOther = true ↔ mark = markOther := by
    rw [Value.same_iff_plain_eq mark markOther isPlain,
      Value.plain_of_isPlain markOther isPlainOther, eq_comm]
  have marked := markOf_of_fingerprint .null mark _ done
  have markedOther := markOf_of_fingerprint .null markOther _ doneOther
  have byNormal : mark.same markOther = true ↔ item.Agrees SameNormal other := by
    refine same.trans (itemMark_eq_iff wellFormed wellFormedOther ?_ marked markedOther)
    exact fun _ _ _ _ _ _ _ _ _ _ => Iff.rfl
  refine ⟨byNormal, fun short shortOther => same.trans
    (itemMark_eq_iff wellFormed wellFormedOther ?_ marked markedOther), fun agrees => ?_⟩
  · intro field member fieldOther memberOther s t spells spellsOther inRange inRangeOther
    exact Decimal.sameNormal_iff_sameNumber inRange inRangeOther (short field member s spells)
      (shortOther fieldOther memberOther t spellsOther)
  · refine byNormal.mpr (agrees.mono fun s t equal => ?_)
    subst equal
    exact ⟨rfl, fun _ => rfl⟩

/-- An identity and some readings. -/
def readings : NativeItem :=
  [("id", .scalar .number (.text "1.0")), ("r", .set .number [.text "2", .text "1E1"])]

/-- The same in another order and with other spellings. -/
def respelledReadings : NativeItem :=
  [("r", .set .number [.text "10", .text "2.0"]), ("id", .scalar .number (.text "1"))]

theorem agrees_readings : readings.Agrees SameNumber respelledReadings := by
  have read : ∀ entry ∈ [("1.0", 10, -1), ("1", 1, 0), ("2", 2, 0), ("2.0", 20, -1), ("1E1", 1, 1),
      ("10", 10, 0)], Decimal.read? entry.1 = some (.finite false entry.2.1 entry.2.2) := by
    decide +kernel
  simp only [List.forall_mem_cons, List.not_mem_nil, false_imp_iff, implies_true, and_true] at read
  obtain ⟨oneTenth, one, two, twoTenth, oneTen, ten⟩ := read
  have id : Value.NumbersAgree SameNumber (.text "1.0") (.text "1") := by
    refine ⟨_, _, rfl, rfl, ?_⟩
    rw [SameNumber, oneTenth, one]
    norm_num [Decimal.exactValue]
  have first : Value.NumbersAgree SameNumber (.text "2") (.text "2.0") := by
    refine ⟨_, _, rfl, rfl, ?_⟩
    rw [SameNumber, two, twoTenth]
    norm_num [Decimal.exactValue]
  have second : Value.NumbersAgree SameNumber (.text "1E1") (.text "10") := by
    refine ⟨_, _, rfl, rfl, ?_⟩
    rw [SameNumber, oneTen, ten]
    norm_num [Decimal.exactValue]
  intro name
  by_cases isId : name = "id"
  · subst isId
    exact .some id
  by_cases isReadings : name = "r"
  · subst isReadings
    exact .some ⟨_, .cons first (.cons second .nil), List.Perm.swap _ _ _⟩
  · have notId : (name == "id") = false := beq_eq_false_iff_ne.mpr isId
    have notReadings : (name == "r") = false := beq_eq_false_iff_ne.mpr isReadings
    simp only [readings, respelledReadings, List.lookup_cons, notId, notReadings, List.lookup_nil]
    exact .none

/-- Spelling and order do not matter. -/
theorem fingerprint_tells_readings :
    Item.encode (.map [(.text "id::N", .text "1.0"),
        (.text "r::NS", .list [.text "2", .text "1E1"])]) = .ok readings ∧
      Item.encode (.map [(.text "r::NS", .list [.text "10", .text "2.0"]),
        (.text "id::N", .text "1")]) = .ok respelledReadings ∧
      ∃ mark markOther, fingerprint readings.toValue = .ok mark ∧
        fingerprint respelledReadings.toValue = .ok markOther ∧ readings.Short ∧
        respelledReadings.Short ∧ mark.same markOther = true := by
  have encoded : Item.encode (.map [(.text "id::N", .text "1.0"),
      (.text "r::NS", .list [.text "2", .text "1E1"])]) = .ok readings := rfl
  have encodedOther : Item.encode (.map [(.text "r::NS", .list [.text "10", .text "2.0"]),
      (.text "id::N", .text "1")]) = .ok respelledReadings := rfl
  refine ⟨encoded, encodedOther, ?_⟩
  have brief : ∀ s ∈ ["1.0", "1", "2", "2.0", "1E1", "10"], Decimal.isBrief s = true := by
    decide +kernel
  simp only [List.forall_mem_cons, List.not_mem_nil, false_imp_iff, implies_true, and_true] at brief
  obtain ⟨oneTenth, one, two, twoTenth, oneTen, ten⟩ := brief
  have parts : readings.Short ∧ readings.Comparable := by
    apply NativeItem.of_isBrief
    simp only [readings, List.forall_mem_cons, List.not_mem_nil, false_imp_iff, implies_true,
      and_true]
    exact ⟨Or.inl ⟨_, rfl, oneTenth⟩, Or.inr ⟨["2", "1E1"], rfl, by simp [two, oneTen]⟩⟩
  have partsOther : respelledReadings.Short ∧ respelledReadings.Comparable := by
    apply NativeItem.of_isBrief
    simp only [respelledReadings, List.forall_mem_cons, List.not_mem_nil, false_imp_iff,
      implies_true, and_true]
    exact ⟨Or.inr ⟨["10", "2.0"], rfl, by simp [ten, twoTenth]⟩, Or.inl ⟨_, rfl, one⟩⟩
  obtain ⟨mark, done⟩ := exists_fingerprint_toValue parts.2
  obtain ⟨markOther, doneOther⟩ := exists_fingerprint_toValue partsOther.2
  refine ⟨mark, markOther, done, doneOther, parts.1, partsOther.1, ?_⟩
  have tells := fingerprint_tells encoded encodedOther done doneOther
  exact (tells.2.1 parts.1 partsOther.1).mpr agrees_readings

/-- The mark of a number text with a normal form is the text respelled. -/
theorem numberMark_of_respelled {s t : String} (inRange : (Decimal.normalOf? s).isSome = true)
    (spelled : Decimal.respelled s = t) : numberMark (.text s) = .ok (.text t) := by
  subst spelled
  obtain ⟨n, found⟩ := Option.isSome_iff_exists.mp inRange
  obtain ⟨d, read, normal⟩ := Option.bind_eq_some_iff.mp found
  have number : (Value.text s).toDecimal = .ok d := by
    simp [Value.toDecimal, Value.number?, read]
  cases done : d.normal with
  | error cause =>
      rw [done] at normal
      cases normal
  | ok n' =>
      rw [done] at normal
      cases normal
      simp only [numberMark, number, done, Decimal.respelled, found, Option.map_some,
        Option.getD_some]

/-- A map with one number. -/
def numbered (s : String) : Value := .map [(.text "id::N", .text s)]

/-- A native item with one number. -/
def numberedItem (s : String) : NativeItem := [("id", .scalar .number (.text s))]

/-- The fingerprint of an item with one number holds the number respelled. -/
theorem fingerprint_numbered {s t : String} (inRange : (Decimal.normalOf? s).isSome = true)
    (spelled : Decimal.respelled s = t) :
    fingerprint (numberedItem s).toValue =
      .ok (.tuple [.tuple [.text "id", .tuple [.tuple [.text "N", .text t]]]]) := by
  have atom : (Attribute.scalar .number (.text s)).Encoded := Or.inl ⟨s, rfl⟩
  have number : payloadMark (.text "N") (.text s) = numberMark (.text s) := by rw [payloadMark]
  have single : markOf (.text "N") (.text s) = .ok (.text t) :=
    (markOf_decoded atom).trans (number.trans (numberMark_of_respelled inRange spelled))
  have done := markOf_record_singleton .null (markOf_record_singleton (.text "id") single)
  exact fingerprint_of_markOf done rfl

theorem agrees_numbered_iff (numbers : String → String → Prop) (s t : String) :
    (numberedItem s).Agrees numbers (numberedItem t) ↔ numbers s t := by
  constructor
  · intro agrees
    cases agrees "id" with
    | some each =>
        obtain ⟨s, t, left, right, related⟩ := each
        cases left
        cases right
        exact related
  · intro related name
    rw [numberedItem, numberedItem, List.lookup_cons, List.lookup_cons]
    cases name == "id" with
    | true => exact .some ⟨s, t, rfl, rfl, related⟩
    | false => exact .none

/-- Numbers of many digits are confused, and the two zeros are not: two numbers that differ in their
twenty-ninth digit have one fingerprint, and minus zero has not that of zero. -/
theorem long_numbers_confused :
    (∀ s, Item.encode (numbered s) = .ok (numberedItem s)) ∧
    (∃ mark, fingerprint (numberedItem "12345678901234567890123456789").toValue = .ok mark ∧
      fingerprint (numberedItem "12345678901234567890123456788").toValue = .ok mark ∧
      mark.same mark = true ∧
      ¬ (numberedItem "12345678901234567890123456789").Agrees SameNumber
        (numberedItem "12345678901234567890123456788")) ∧
    ∃ mark markOther, fingerprint (numberedItem "-0").toValue = .ok mark ∧
      fingerprint (numberedItem "0").toValue = .ok markOther ∧ mark.same markOther = false ∧
      (numberedItem "-0").Agrees SameNumber (numberedItem "0") := by
  simp only [agrees_numbered_iff, SameNumber]
  refine ⟨fun s => rfl, ?_, ?_⟩
  · have rounded : Decimal.respelled "12345678901234567890123456789" =
        "1.234567890123456789012345679E+28" := by decide +kernel
    have roundedOther : Decimal.respelled "12345678901234567890123456788" =
        "1.234567890123456789012345679E+28" := by decide +kernel
    have read : Decimal.read? "12345678901234567890123456789" =
        some (.finite false 12345678901234567890123456789 0) := by decide +kernel
    have readOther : Decimal.read? "12345678901234567890123456788" =
        some (.finite false 12345678901234567890123456788 0) := by decide +kernel
    refine ⟨_, fingerprint_numbered (by decide +kernel) rounded,
      fingerprint_numbered (by decide +kernel) roundedOther, rfl, ?_⟩
    rw [read, readOther]
    norm_num [Decimal.exactValue]
  · have signed : Decimal.respelled "-0" = "-0" := by decide +kernel
    have unsigned : Decimal.respelled "0" = "0" := by decide +kernel
    have read : Decimal.read? "-0" = some (.finite true 0 0) := by decide +kernel
    have readOther : Decimal.read? "0" = some (.finite false 0 0) := by decide +kernel
    refine ⟨_, _, fingerprint_numbered (by decide +kernel) signed,
      fingerprint_numbered (by decide +kernel) unsigned, rfl, ?_⟩
    rw [read, readOther]
    norm_num [Decimal.exactValue]

end TokenTable
