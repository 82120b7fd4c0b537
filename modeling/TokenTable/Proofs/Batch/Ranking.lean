import TokenTable.Proofs.Batch.Matching
import TokenTable.Proofs.Fingerprint.Rearranged

/-! # Items in the order of their keys

A table holds items under the fingerprints of their keys. When the items of some keys are gathered
in any order, ranking each by the position of its key and sorting by rank puts them in the order of
the keys (`inKeyOrder_eq_lookup`): the fingerprint of an item's projection leads back to the one
key that the item is held under.
-/

namespace TokenTable.Batch

/-- A table that holds items which can be decoded, under the fingerprints of their keys: the
projection of an item on the names of the key has that fingerprint. -/
structure KeyedTable where
  names : List String
  distinct : names.Nodup
  find : Value → Option Value
  decodes : ∀ value native, find value = some native →
    ∃ item, Item.decode native = .ok (some item)
  keyed : ∀ value native, find value = some native →
    ∃ part, project names native = .ok part ∧ mark part = some value

namespace KeyedTable

/-- The native item that a table holds under a key. -/
def under (table : KeyedTable) (key : NativeItem) : Option Value :=
  (mark key.toValue).bind table.find

/-- The native items that a table holds under some keys, in the order of the keys. -/
def lookup (table : KeyedTable) (keys : List NativeItem) : List Value := keys.filterMap table.under

/-- Keys of a table: they have its names, no two have one fingerprint, and they are encoded. -/
structure Keys (table : KeyedTable) (keys : List NativeItem) : Prop where
  named : ∀ key ∈ keys, (key.map Prod.fst).Perm table.names
  apart : (keys.map fun key => mark key.toValue).Nodup
  encoded : ∀ key ∈ keys, ∀ entry ∈ key, entry.2.Encoded

end KeyedTable

theorem position_eq {marks : List Value} (plain : ∀ value ∈ marks, value.isPlain = true)
    (distinct : marks.Nodup) {n : Nat} (inside : n < marks.length) {value : Value}
    (same : value.plain = marks[n]) : position marks value = n := by
  have agrees : ∀ (m : Nat) (there : m < marks.length),
      marks[m].same value = true ↔ marks[n] = marks[m] := by
    intro m there
    rw [Value.same_iff_plain_eq _ _ (plain _ (List.getElem_mem there)), same]
  unfold position
  rw [List.findIdx_eq inside]
  constructor
  · exact (agrees n inside).mpr rfl
  · intro m earlier
    have other : marks[n] ≠ marks[m] := by
      intro equal
      have place := (List.Nodup.getElem_inj_iff distinct).mp equal
      omega
    rw [← Bool.not_eq_true, agrees m (Nat.lt_trans earlier inside)]
    exact other

namespace KeyedTable

variable {table : KeyedTable}

/-- The fingerprints of a table's keys are plain and apart, and are what its items are held
under. -/
theorem Keys.marks_of_mapM {keys : List NativeItem} (typed : table.Keys keys) {marks : List Value}
    (done : keys.mapM (fun key => fingerprint key.toValue) = .ok marks) :
    (∀ value ∈ marks, value.isPlain = true) ∧ marks.Nodup ∧
      (keys.map fun key => mark key.toValue) = marks.map some := by
  have plain : ∀ key ∈ keys, ∀ value, fingerprint key.toValue = .ok value →
      value.isPlain = true := by
    intro key member value taken
    exact isPlain_fingerprint_toValue key (typed.encoded key member) value taken
  have same : (keys.map fun key => mark key.toValue) = marks.map some := by
    have each := forall₂_of_mapM done
    clear done typed
    induction each with
    | nil => rfl
    | @cons key value rest others single several ih =>
        have here := plain key List.mem_cons_self value single
        have later := ih fun other member => plain other (List.mem_cons_of_mem _ member)
        rw [List.map_cons, List.map_cons, later, mark_of_fingerprint single,
          Value.plain_of_isPlain value here]
  refine ⟨?_, ?_, same⟩
  · intro value member
    obtain ⟨key, inside, taken⟩ := exists_of_mem_mapM done member
    exact plain key inside value taken
  · have apart := typed.apart
    rw [same] at apart
    exact apart.of_map some

theorem Keys.ranked_of_under {first : NativeItem} {rest : List NativeItem}
    (typed : table.Keys (first :: rest)) {marks : List Value}
    (done : (first :: rest).mapM (fun key => fingerprint key.toValue) = .ok marks) {n : Nat}
    (inside : n < (first :: rest).length) {native : Value}
    (held : table.under (first :: rest)[n] = some native) :
    ranked (first.map fun entry => entry.1) marks native = .ok (n, native) := by
  obtain ⟨plain, distinct, same⟩ := typed.marks_of_mapM done
  have count : (first :: rest).length = marks.length := by
    simpa using congrArg List.length same
  have here : n < marks.length := by omega
  have key_mark : mark (first :: rest)[n].toValue = some marks[n] := by
    have taken := congrArg (fun values => values[n]?) same
    simp only [List.getElem?_map, List.getElem?_eq_getElem inside, List.getElem?_eq_getElem here,
      Option.map_some] at taken
    exact Option.some.inj taken
  rw [under, key_mark, Option.bind_some] at held
  obtain ⟨part, projected, part_mark⟩ := table.keyed _ _ held
  obtain ⟨value, taken⟩ : ∃ value, fingerprint part = .ok value := by
    cases result : fingerprint part with
    | error fault =>
        rw [mark, result] at part_mark
        cases part_mark
    | ok value => exact ⟨value, rfl⟩
  rw [mark_of_fingerprint taken] at part_mark
  have named := typed.named first List.mem_cons_self
  obtain ⟨rearranged, projected, taken⟩ :=
    fingerprint_project_of_perm named.symm table.distinct projected taken
  have place := position_eq plain distinct here (Option.some.inj part_mark)
  refine (bind_eq_ok_iff _ _ _).mpr ⟨rearranged, projected, ?_⟩
  refine (bind_eq_ok_iff _ _ _).mpr ⟨value, taken, ?_⟩
  rw [place]
  rfl

/-- The rank of a native, if it has one. -/
def rankOf (names : List String) (marks : List Value) (native : Value) : Nat :=
  match ranked names marks native with
  | .ok pair => pair.1
  | .error _ => 0

theorem rankOf_of_ranked {names : List String} {marks : List Value} {native : Value}
    {pair : Nat × Value} (single : ranked names marks native = .ok pair) :
    pair = (rankOf names marks native, native) := by
  have same := native_of_ranked names marks native pair single
  rw [rankOf, single]
  exact Prod.ext rfl same

theorem snd_mergeSort_ranks {α : Type} (rank : α → Nat) (items : List α) :
    ((items.map fun a => (rank a, a)).mergeSort fun a b => a.1 ≤ b.1).map Prod.snd =
      items.mergeSort fun a b => rank a ≤ rank b := by
  have same : (items.mergeSort fun a b => rank a ≤ rank b).map (fun a => (rank a, a)) =
      (items.map fun a => (rank a, a)).mergeSort fun a b => a.1 ≤ b.1 := by
    apply List.map_mergeSort
    intro a _ b _
    rfl
  rw [← same, List.map_map]
  exact List.map_id _

/-- Putting natives into the order of their keys sorts them by rank. -/
theorem mergeSort_of_inKeyOrder {first : NativeItem} {rest : List NativeItem}
    {gathered ordered : List Value} (sorted : inKeyOrder (first :: rest) gathered = .ok ordered) :
    ∃ marks, (first :: rest).mapM (fun key => fingerprint key.toValue) = .ok marks ∧
      ordered = gathered.mergeSort fun native other =>
        rankOf (first.map fun entry => entry.1) marks native ≤
          rankOf (first.map fun entry => entry.1) marks other := by
  obtain ⟨marks, done, sorted⟩ := (bind_eq_ok_iff _ _ _).mp sorted
  obtain ⟨pairs, ranks, sorted⟩ := (bind_eq_ok_iff _ _ _).mp sorted
  cases sorted
  refine ⟨marks, done, ?_⟩
  have paired : ∀ natives pairs,
      List.Forall₂ (fun native pair =>
        ranked (first.map fun entry => entry.1) marks native = .ok pair) natives pairs →
      pairs = natives.map fun native =>
        (rankOf (first.map fun entry => entry.1) marks native, native) := by
    intro natives pairs each
    induction each with
    | nil => rfl
    | cons single several ih => rw [List.map_cons, ← ih, rankOf_of_ranked single]
  rw [paired gathered pairs (forall₂_of_mapM ranks)]
  exact snd_mergeSort_ranks _ gathered

/-- Sorting by rank gives the one list of the same members whose ranks grow. -/
theorem mergeSort_eq_of_growing {α : Type} (rank : α → Nat) {items expected : List α}
    (growing : expected.Pairwise fun a b => rank a < rank b) (perm : items.Perm expected) :
    (items.mergeSort fun a b => rank a ≤ rank b) = expected := by
  have inOrder : (items.mergeSort fun a b => rank a ≤ rank b).Pairwise
      fun a b => rank a ≤ rank b := by
    have sorted : (items.mergeSort fun a b => rank a ≤ rank b).Pairwise
        fun a b => decide (rank a ≤ rank b) = true := by
      apply List.pairwise_mergeSort
      · intro a b c early late
        simp only [decide_eq_true_eq] at early late ⊢
        exact Nat.le_trans early late
      · intro a b
        simp only [Bool.or_eq_true, decide_eq_true_eq]
        exact Nat.le_total _ _
    exact sorted.imp of_decide_eq_true
  have same := (List.mergeSort_perm items fun a b => rank a ≤ rank b).trans perm
  have apart : (expected.map rank).Nodup := by
    rw [List.Nodup, List.pairwise_map]
    exact growing.imp Nat.ne_of_lt
  apply List.Perm.eq_of_pairwise _ inOrder (growing.imp Nat.le_of_lt) same
  intro a b inside there early late
  exact List.inj_on_of_nodup_map apart (same.mem_iff.mp inside) there (Nat.le_antisymm early late)

/-- The items of a table under its keys have growing ranks. -/
theorem Keys.pairwise_rankOf {first : NativeItem} {rest : List NativeItem}
    (typed : table.Keys (first :: rest)) {marks : List Value}
    (done : (first :: rest).mapM (fun key => fingerprint key.toValue) = .ok marks) :
    (table.lookup (first :: rest)).Pairwise fun native other =>
      rankOf (first.map fun entry => entry.1) marks native <
        rankOf (first.map fun entry => entry.1) marks other := by
  rw [lookup, List.pairwise_filterMap, List.pairwise_iff_getElem]
  intro n m inside there earlier native held other heldOther
  have rank := rankOf_of_ranked (typed.ranked_of_under done inside held)
  have rankOther := rankOf_of_ranked (typed.ranked_of_under done there heldOther)
  have place : n = rankOf (first.map fun entry => entry.1) marks native := congrArg Prod.fst rank
  have placeOther : m = rankOf (first.map fun entry => entry.1) marks other :=
    congrArg Prod.fst rankOther
  rw [← place, ← placeOther]
  exact earlier

/-- **Gathered items come back in the order of their keys.** Whatever the order in which the items
of some of the keys arrive, they are put into the order in which the keys were given. -/
theorem Keys.inKeyOrder_eq_lookup {keys answered : List NativeItem} (typed : table.Keys keys)
    (part : answered.Sublist keys) {gathered ordered : List Value}
    (perm : gathered.Perm (table.lookup answered))
    (sorted : inKeyOrder keys gathered = .ok ordered) : ordered = table.lookup answered := by
  cases keys with
  | nil =>
      rw [List.sublist_nil.mp part] at perm ⊢
      cases sorted
      exact List.perm_nil.mp perm
  | cons first rest =>
      obtain ⟨marks, done, same⟩ := mergeSort_of_inKeyOrder sorted
      have growing := (typed.pairwise_rankOf done).sublist (part.filterMap table.under)
      rw [same]
      exact mergeSort_eq_of_growing _ growing perm

end KeyedTable

end TokenTable.Batch
