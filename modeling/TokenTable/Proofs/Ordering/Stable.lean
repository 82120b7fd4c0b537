import Mathlib.Data.List.Perm.Basic
import TokenTable.Proofs.Fallible
import TokenTable.Proofs.Ordering.Place

/-! # Items in order

Ordering by an attribute never fails on maps: those that have the attribute are sorted by the place
of its value, and those that lack it follow. Items at one place keep their order in both
directions, so what is in order is left alone (`orderItems_sorts`).
-/

namespace TokenTable

open Classical

/-- What an item has under a name. -/
def Value.under? (name : String) : Value → Option Value
  | .map entries => lookup? entries (.text name)
  | _ => none

/-- Whether an item has an attribute. -/
def Value.has (name : String) (item : Value) : Bool := (item.under? name).isSome

/-- An item stands where its value under a name does; without that attribute it stands nowhere. -/
def Value.StandsUnder (name : String) (item : Value) (p : SortKey.Place) : Prop :=
  ∃ v, item.under? name = some v ∧ v.StandsAt p

namespace SortKey.Place

/-- Whether one place may stand before another in a direction. -/
def MayPrecede (forward : Bool) (p q : Place) : Prop := if forward then p ≤ q else q ≤ p

variable {forward : Bool} {p q r : Place}

theorem MayPrecede.refl (forward : Bool) (p : Place) : MayPrecede forward p p := by
  cases forward <;> exact le_refl p

theorem MayPrecede.total (forward : Bool) (p q : Place) :
    MayPrecede forward p q ∨ MayPrecede forward q p := by
  cases forward with
  | true => exact le_total p q
  | false => exact le_total q p

theorem MayPrecede.trans (early : MayPrecede forward p q) (late : MayPrecede forward q r) :
    MayPrecede forward p r := by
  cases forward with
  | true => exact le_trans early late
  | false => exact le_trans late early

end SortKey.Place

theorem mayPrecede_iff (forward : Bool) (a b : SortKey × Value) :
    mayPrecede forward a b = true ↔ SortKey.Place.MayPrecede forward a.1.place b.1.place := by
  cases forward with
  | true =>
      simp only [mayPrecede, ↓reduceIte, Bool.not_eq_true', ← Bool.not_eq_true,
        SortKey.before_iff_place_lt, not_lt, SortKey.Place.MayPrecede]
  | false =>
      simp only [mayPrecede, Bool.false_eq_true, ↓reduceIte, Bool.not_eq_true', ← Bool.not_eq_true,
        SortKey.before_iff_place_lt, not_lt, SortKey.Place.MayPrecede]

namespace Order

/-- What an option may say of its direction: nothing and null mean forward. -/
inductive Directs : Option Value → Bool → Prop
  | absent : Directs none true
  | null : Directs (some .null) true
  | given (forward : Bool) : Directs (some (.bool forward)) forward

/-- An option with a key and a direction is an order. -/
theorem ofValue_of_directs {option : Value.Entries} {key : String} {forward : Bool}
    (keyed : Value.lookup? option (.text "Key") = some (.text key)) (named : key ≠ "")
    (directed : Directs (Value.lookup? option (.text "Forward")) forward) :
    ofValue (.map option) = .ok (some { key, forward }) := by
  have direct : direction ((Value.lookup? option (.text "Forward")).getD (.bool true)) =
      .ok forward := by
    generalize Value.lookup? option (.text "Forward") = said at directed
    cases directed <;> rfl
  rw [ofValue, keyed]
  simp only [Option.getD_some, named, ↓reduceIte, direct]
  rfl

variable (order : Order) (items : List Value)

/-- An item with its sort key, if it has the attribute. -/
def keyed (item : Value) : SortKey × Value :=
  (SortKey.ofValue ((item.under? order.key).getD .null), item)

/-- The items that have the attribute, as they came. -/
def present : List Value := items.filter fun item => item.has order.key

/-- The items that lack the attribute, as they came. -/
def missing : List Value := items.filter fun item => !item.has order.key

/-- The items that have the attribute, sorted. -/
def sorted : List Value :=
  (((order.present items).map order.keyed).mergeSort (mayPrecede order.forward)).map Prod.snd

/-- Ordering maps never fails. -/
theorem orderBy_maps (maps : ∀ item ∈ items, ∃ entries, item = .map entries) :
    orderBy order items = .ok (order.sorted items ++ order.missing items) := by
  have marked : (items.mapM fun item => do return (← item.holds order.key, item) :
      Except Fault (List (Bool × Value))) =
        .ok (items.map fun item => (item.has order.key, item)) := by
    apply mapM_of_forall₂
    rw [List.forall₂_map_right_iff, List.forall₂_same]
    intro item member
    obtain ⟨entries, rfl⟩ := maps item member
    rfl
  have found : ((order.present items).mapM fun item => do
      return (SortKey.ofValue (← item.index order.key), item) :
        Except Fault (List (SortKey × Value))) =
        .ok ((order.present items).map order.keyed) := by
    apply mapM_of_forall₂
    rw [List.forall₂_map_right_iff, List.forall₂_same]
    intro item member
    obtain ⟨inside, has⟩ := List.mem_filter.mp member
    obtain ⟨entries, rfl⟩ := maps item inside
    obtain ⟨v, held⟩ := Option.isSome_iff_exists.mp has
    rw [keyed, held, Value.index]
    rw [Value.under?] at held
    rw [held]
    rfl
  have first : ((items.map fun item => (item.has order.key, item)).filter (·.1)).map (·.2) =
      order.present items := by
    rw [List.filter_map, List.map_map]
    exact List.map_id _
  have second : ((items.map fun item => (item.has order.key, item)).filter (!·.1)).map (·.2) =
      order.missing items := by
    rw [List.filter_map, List.map_map]
    exact List.map_id _
  refine (bind_eq_ok_iff _ _ _).mpr ⟨_, marked, ?_⟩
  simp only [first, second]
  exact (bind_eq_ok_iff _ _ _).mpr ⟨_, found, rfl⟩

/-- Whether an item may stand before another. -/
def mayStandBefore (item other : Value) : Bool :=
  mayPrecede order.forward (order.keyed item) (order.keyed other)

theorem mayStandBefore_trans (a b c : Value) (early : order.mayStandBefore a b = true)
    (late : order.mayStandBefore b c = true) : order.mayStandBefore a c = true :=
  (mayPrecede_iff _ _ _).mpr
    (((mayPrecede_iff _ _ _).mp early).trans ((mayPrecede_iff _ _ _).mp late))

theorem mayStandBefore_total (a b : Value) :
    (order.mayStandBefore a b || order.mayStandBefore b a) = true := by
  rw [Bool.or_eq_true, mayStandBefore, mayStandBefore, mayPrecede_iff, mayPrecede_iff]
  exact SortKey.Place.MayPrecede.total _ _ _

theorem sorted_eq_mergeSort :
    order.sorted items = (order.present items).mergeSort order.mayStandBefore := by
  have marked : ((order.present items).mergeSort order.mayStandBefore).map order.keyed =
      ((order.present items).map order.keyed).mergeSort (mayPrecede order.forward) :=
    List.map_mergeSort fun _ _ _ _ => rfl
  rw [sorted, ← marked, List.map_map]
  exact List.map_id _

theorem sorted_perm : (order.sorted items).Perm (order.present items) := by
  rw [sorted_eq_mergeSort]
  exact List.mergeSort_perm _ _

theorem pairwise_sorted :
    (order.sorted items).Pairwise fun a b => order.mayStandBefore a b = true := by
  rw [sorted_eq_mergeSort]
  exact List.pairwise_mergeSort order.mayStandBefore_trans order.mayStandBefore_total _

variable {order items}

theorem has_of_mem_sorted {item : Value} (member : item ∈ order.sorted items) :
    item.has order.key = true :=
  (List.mem_filter.mp ((order.sorted_perm items).mem_iff.mp member)).2

theorem place_keyed {item : Value} {p : SortKey.Place}
    (stands : item.StandsUnder order.key p) : (order.keyed item).1.place = p := by
  obtain ⟨v, held, placed⟩ := stands
  rw [keyed, held]
  exact (v.standsAt_iff p).mp placed

theorem has_of_standsUnder {name : String} {item : Value} {p : SortKey.Place}
    (stands : item.StandsUnder name p) : item.has name = true := by
  obtain ⟨v, held, _⟩ := stands
  rw [Value.has, held]
  rfl

theorem not_standsUnder_of_mem_missing {item : Value} (member : item ∈ order.missing items)
    (p : SortKey.Place) : ¬ item.StandsUnder order.key p := by
  intro stands
  have lacks := (List.mem_filter.mp member).2
  rw [has_of_standsUnder stands] at lacks
  cases lacks

variable (order items)

/-- The items at a place, as they came. -/
noncomputable def standing (p : SortKey.Place) : List Value :=
  items.filter fun item => item.StandsUnder order.key p

theorem standing_present (p : SortKey.Place) :
    order.standing (order.present items) p = order.standing items p := by
  rw [standing, present, List.filter_filter]
  apply List.filter_congr
  intro item _
  rw [Bool.and_eq_left_iff_imp, decide_eq_true_eq]
  exact has_of_standsUnder

theorem standing_missing (p : SortKey.Place) : order.standing (order.missing items) p = [] := by
  rw [standing, List.filter_eq_nil_iff]
  intro item member stands
  exact not_standsUnder_of_mem_missing member p (of_decide_eq_true stands)

/-- Items at one place may stand in any order, so sorting leaves them in the order they had. -/
theorem standing_sorted (p : SortKey.Place) :
    order.standing (order.sorted items) p = order.standing items p := by
  have alike : (order.standing items p).Pairwise fun a b => order.mayStandBefore a b = true := by
    apply List.Pairwise.imp_of_mem _ (List.pairwise_of_forall fun _ _ => trivial)
    intro a b first second _
    have here := place_keyed (of_decide_eq_true (List.mem_filter.mp first).2)
    have there := place_keyed (of_decide_eq_true (List.mem_filter.mp second).2)
    rw [mayStandBefore, mayPrecede_iff, here, there]
    exact SortKey.Place.MayPrecede.refl _ _
  have kept : (order.standing items p).Sublist (order.sorted items) := by
    have some : (order.standing items p).Sublist (order.present items) := by
      rw [← standing_present]
      exact List.filter_sublist
    rw [sorted_eq_mergeSort]
    exact List.sublist_mergeSort order.mayStandBefore_trans order.mayStandBefore_total alike some
  have within : (order.standing items p).Sublist (order.standing (order.sorted items) p) := by
    have filtered := kept.filter fun item => item.StandsUnder order.key p
    simpa only [standing, List.filter_filter, Bool.and_self] using filtered
  have count : (order.standing items p).length =
      (order.standing (order.sorted items) p).length := by
    rw [← standing_present]
    exact ((order.sorted_perm items).filter _).length_eq.symm
  exact (within.eq_of_length count).symm

/-- What becomes of items that are put in order: those that lack the attribute come last, as they
came; the others are in the order of their places, and those at one place as they came. -/
structure Sorts (ordered : List Value) : Prop where
  rearranged : ordered.Perm items
  missingLast : ∃ first, (∀ item ∈ first, item.has order.key = true) ∧
    ordered = first ++ order.missing items
  directed : ordered.Pairwise fun a b => ∀ p q, a.StandsUnder order.key p →
    b.StandsUnder order.key q → p.MayPrecede order.forward q
  stable : ∀ p, order.standing ordered p = order.standing items p

theorem sorts_sorted : order.Sorts items (order.sorted items ++ order.missing items) where
  rearranged := ((order.sorted_perm items).append_right _).trans (List.filter_append_perm _ items)
  missingLast := ⟨_, fun _ member => has_of_mem_sorted member, rfl⟩
  directed := by
    rw [List.pairwise_append]
    refine ⟨?_, ?_, ?_⟩
    · apply (order.pairwise_sorted items).imp
      intro a b before p q stands standsOther
      rw [mayStandBefore, mayPrecede_iff, place_keyed stands, place_keyed standsOther] at before
      exact before
    · apply List.Pairwise.imp_of_mem _ (List.pairwise_of_forall fun _ _ => trivial)
      intro a b first _ _ p q stands
      exact absurd stands (not_standsUnder_of_mem_missing first p)
    · intro a _ b second p q _ stands
      exact absurd stands (not_standsUnder_of_mem_missing second q)
  stable := by
    intro p
    rw [standing, List.filter_append, ← standing, ← standing, standing_sorted, standing_missing,
      List.append_nil]

/-- Items that have the attribute and are in order already stay as they are. -/
theorem sorted_append_missing :
    order.sorted (order.sorted items ++ order.missing items) = order.sorted items := by
  have first : order.present (order.sorted items) = order.sorted items :=
    List.filter_eq_self.mpr fun _ member => has_of_mem_sorted member
  have second : order.present (order.missing items) = [] := by
    refine List.filter_eq_nil_iff.mpr fun item member has => ?_
    have lacks := (List.mem_filter.mp member).2
    rw [has] at lacks
    cases lacks
  rw [sorted_eq_mergeSort, present, List.filter_append, ← present, ← present, first, second,
    List.append_nil]
  exact List.mergeSort_of_pairwise (order.pairwise_sorted items)

theorem missing_append_missing :
    order.missing (order.sorted items ++ order.missing items) = order.missing items := by
  have first : order.missing (order.sorted items) = [] := by
    refine List.filter_eq_nil_iff.mpr fun item member lacks => ?_
    rw [has_of_mem_sorted member] at lacks
    cases lacks
  have second : order.missing (order.missing items) = order.missing items :=
    List.filter_eq_self.mpr fun _ member => (List.mem_filter.mp member).2
  rw [missing, List.filter_append, ← missing, ← missing, first, second, List.nil_append]

end Order

/-- **Ordering is a stable sort.** Every value stands at one place, and that is where its sort key
is: texts that spell finite numbers at the exact values, however long they are, then other texts,
byte strings, lists, and the rest. Sort keys are compared by their places, which stand in one line.
Whatever maps are to be ordered, and in either direction, ordering them succeeds and sorts them by
the places of their values; to do so again changes nothing. -/
theorem orderItems_sorts {items : List Value}
    (maps : ∀ item ∈ items, ∃ entries, item = .map entries) {option : Value.Entries}
    {key : String} {forward : Bool}
    (keyed : Value.lookup? option (.text "Key") = some (.text key)) (named : key ≠ "")
    (directed : Order.Directs (Value.lookup? option (.text "Forward")) forward) :
    (∀ (v : Value) (p : SortKey.Place), v.StandsAt p ↔ (SortKey.ofValue v).place = p) ∧
      (∀ n c e, (Decimal.finite n c e).Legible →
        (Value.text (Decimal.finite n c e).toText).StandsAt
          (.ofNumber (Decimal.exactValue n c e))) ∧
      (∀ k k' : SortKey, k.before k' = true ↔ k.place < k'.place) ∧
      ∃ ordered, orderItems items (.map option) = .ok ordered ∧
        Order.Sorts { key, forward } items ordered ∧
        orderItems ordered (.map option) = .ok ordered := by
  let order : Order := { key, forward }
  have valid := Order.ofValue_of_directs keyed named directed
  have done : ∀ {others : List Value}, (∀ item ∈ others, ∃ entries, item = .map entries) →
      orderItems others (.map option) = .ok (order.sorted others ++ order.missing others) :=
    fun theirs => (bind_eq_ok_iff _ _ _).mpr ⟨_, valid, order.orderBy_maps _ theirs⟩
  have sorts := order.sorts_sorted items
  refine ⟨Value.standsAt_iff, fun _ _ _ => Value.standsAt_toText, SortKey.before_iff_place_lt, _,
    done maps, sorts, ?_⟩
  have again := done fun item member => maps item (sorts.rearranged.mem_iff.mp member)
  rw [order.sorted_append_missing, order.missing_append_missing] at again
  exact again

/-- Numbers in three spellings, a byte string, a text, and an item without the attribute. -/
def mixedItems : List Value :=
  [.record [("k", .text "10"), ("n", .text "a")], .record [("k", .text "9")],
    .record [("other", .text "x")], .record [("k", .text "1E1"), ("n", .text "b")],
    .record [("k", .bytes .plain [7])], .record [("k", .text "abc")]]

/-- The option of the greatest first. -/
def backwardByK : Value.Entries := [(.text "Key", .text "k"), (.text "Forward", .bool false)]

/-- Six items, among them two at one place and one without the attribute, are put in order. -/
theorem orderItems_sorts_backward :
    (∀ item ∈ mixedItems, ∃ entries, item = .map entries) ∧
      Value.lookup? backwardByK (.text "Key") = some (.text "k") ∧ "k" ≠ "" ∧
      Order.Directs (Value.lookup? backwardByK (.text "Forward")) false ∧
      (SortKey.ofValue (.text "10")).place = .ofNumber 10 ∧
      (SortKey.ofValue (.text "1E1")).place = .ofNumber 10 ∧
      (SortKey.ofValue (.text "abc")).place = .ofText "abc" ∧
      (∀ k k' : SortKey, k.before k' = true ↔ k.place < k'.place) ∧
      ∃ ordered, orderItems mixedItems (.map backwardByK) = .ok ordered ∧
        Order.Sorts { key := "k", forward := false } mixedItems ordered ∧
        orderItems ordered (.map backwardByK) = .ok ordered := by
  have maps : ∀ item ∈ mixedItems, ∃ entries, item = .map entries := by
    simp [mixedItems, Value.record]
  have named : "k" ≠ "" := by decide
  have keyed : Value.lookup? backwardByK (.text "Key") = some (.text "k") := rfl
  have directed : Order.Directs (Value.lookup? backwardByK (.text "Forward")) false := .given false
  have whole : Decimal.exactValue false 10 0 = 10 := by norm_num [Decimal.exactValue]
  have shifted : Decimal.exactValue false 1 1 = 10 := by norm_num [Decimal.exactValue]
  obtain ⟨places, _, compared, sorted⟩ := orderItems_sorts maps keyed named directed
  refine ⟨maps, keyed, named, directed, ?_, ?_, ?_, compared, sorted⟩
  · rw [← places, ← whole]
    exact .number rfl
  · rw [← places, ← shifted]
    exact .number rfl
  · rw [← places]
    refine .text fun _ _ _ spelled => ?_
    cases spelled

end TokenTable
