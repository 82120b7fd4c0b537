import Mathlib.Data.List.Sort
import TokenTable.Proofs.Fingerprint.Comparable
import TokenTable.Proofs.Ordering.Place
import TokenTable.Proofs.Sorting.Uniform

/-! # The elements of a set in order

Texts can be sorted, and so can byte strings, but not both in one list, since a sort compares
members of both kinds. So the sorted elements of a set tell the elements and how often each occurs,
and nothing else (`sorted_eq_iff_perm`).
-/

namespace TokenTable

/-- Lists have one sorted form exactly when they are rearrangements of one another. -/
theorem mergeSort_eq_iff_perm {α β : Type} [LinearOrder β] {key : α → β} {le : α → α → Bool}
    (injective : Function.Injective key) (by_key : ∀ a b, le a b = true ↔ key a ≤ key b)
    (items others : List α) : items.mergeSort le = others.mergeSort le ↔ items.Perm others := by
  have ordered : ∀ items : List α, (items.mergeSort le).Pairwise fun a b => key a ≤ key b := by
    intro items
    refine (List.pairwise_mergeSort ?_ ?_ items).imp fun {a b} => (by_key a b).mp
    · intro a b c
      rw [by_key, by_key, by_key]
      exact le_trans
    · intro a b
      rw [Bool.or_eq_true, by_key, by_key]
      exact le_total (key a) (key b)
  constructor
  · intro same
    have first := List.mergeSort_perm items le
    rw [same] at first
    exact first.symm.trans (List.mergeSort_perm others le)
  · intro perm
    refine List.Perm.eq_of_pairwise ?_ (ordered items) (ordered others) ?_
    · exact fun a b _ _ first second => injective (le_antisymm first second)
    · exact ((List.mergeSort_perm items le).trans perm).trans (List.mergeSort_perm others le).symm

namespace Value

/-- The values that are compared with one another: texts, byte strings, and others. -/
inductive Family where
  | text
  | bytes
  | other

def family : Value → Family
  | .text _ => .text
  | .bytes .. => .bytes
  | _ => .other

/-- Only values of one family can be compared. -/
theorem comparesWithin_family : Sorting.ComparesWithin family before := by
  intro v w first compared
  cases v <;> cases w <;> first | rfl | cases compared

/-- Texts and plain byte strings that can be sorted are all texts or all byte strings. -/
theorem texts_or_bytes_of_uniform {items : List Value} (atoms : ∀ item ∈ items, item.IsAtom)
    (uniform : Sorting.Uniform family items) :
    (∃ ss : List String, items = ss.map .text) ∨
      ∃ contents : List (List UInt8), items = contents.map (.bytes .plain) := by
  cases items with
  | nil => exact Or.inl ⟨[], rfl⟩
  | cons first rest =>
      have alike := fun item member => uniform item member first List.mem_cons_self
      rcases atoms first List.mem_cons_self with ⟨s, rfl⟩ | ⟨content, rfl⟩
      · refine Or.inl (exists_map_of_forall .text fun item member => ?_)
        rcases atoms item member with text | ⟨other, rfl⟩
        · exact text
        · cases alike _ member
      · refine Or.inr (exists_map_of_forall (.bytes .plain) fun item member => ?_)
        rcases atoms item member with ⟨t, rfl⟩ | bytes
        · cases alike _ member
        · exact bytes

theorem uniform_of_isLine {items : List Value} (line : isLine items = true) :
    Sorting.Uniform family items := by
  induction items with
  | nil => exact fun v member => by cases member
  | cons v rest ih =>
      rw [isLine, Bool.and_eq_true, List.all_eq_true] at line
      have alike : ∀ w ∈ rest, v.family = w.family := by
        intro w member
        have compared := line.1 w member
        unfold inLine at compared
        split at compared
        · rename_i first _
          exact comparesWithin_family v w _ first
        · cases compared
      have all : ∀ w ∈ v :: rest, w.family = v.family :=
        List.forall_mem_cons.mpr ⟨rfl, fun w member => (alike w member).symm⟩
      exact fun w inside w' inside' => (all w inside).trans (all w' inside').symm

/-- Texts and plain byte strings are sorted only if they are all texts or all byte strings. -/
theorem texts_or_bytes_of_sorted {items ordered : List Value}
    (atoms : ∀ item ∈ items, item.IsAtom) (done : sorted items = .ok ordered) :
    (∃ ss : List String, items = ss.map .text) ∨
      ∃ contents : List (List UInt8), items = contents.map (.bytes .plain) := by
  apply texts_or_bytes_of_uniform atoms
  unfold sorted sortOn at done
  split at done
  · rename_i line
    rw [List.map_id] at line
    exact uniform_of_isLine line
  · exact Sorting.uniform_of_sort comparesWithin_family done

theorem sorted_texts (ss : List String) :
    sorted (ss.map .text) = .ok ((ss.mergeSort fun a b => !decide (b < a)).map .text) := by
  rw [sorted, sortOn, List.map_id, if_pos (isLine_text ss), List.map_mergeSort]
  intro s _ t _
  simp only [notAfter, before_text, id]

theorem sorted_bytes (contents : List (List UInt8)) :
    sorted (contents.map (.bytes .plain)) =
      .ok ((contents.mergeSort fun a b => !decide (b < a)).map (.bytes .plain)) := by
  rw [sorted, sortOn, List.map_id, if_pos (isLine_map _ inLine_bytes contents),
    List.map_mergeSort]
  intro content _ other _
  simp only [notAfter, before, comparableForms, id, ↓reduceIte]

/-- What is a rearrangement of images is made of images of a rearrangement. -/
theorem exists_map_of_perm {α : Type} {f : α → Value} (injective : Function.Injective f)
    {origins : List α} {others : List Value} (perm : (origins.map f).Perm others) :
    ∃ rearranged, others = rearranged.map f ∧ origins.Perm rearranged := by
  obtain ⟨rearranged, rfl⟩ := exists_map_of_forall f fun other member => by
    obtain ⟨a, _, same⟩ := List.mem_map.mp (perm.mem_iff.mpr member)
    exact ⟨a, same.symm⟩
  exact ⟨rearranged, rfl, (List.map_perm_map_iff injective).mp perm⟩

theorem sorted_eq_of_perm {items others ordered : List Value}
    (atoms : ∀ item ∈ items, item.IsAtom) (done : sorted items = .ok ordered)
    (perm : items.Perm others) : sorted others = .ok ordered := by
  rcases texts_or_bytes_of_sorted atoms done with ⟨ss, rfl⟩ | ⟨contents, rfl⟩
  · obtain ⟨ts, rfl, same⟩ := exists_map_of_perm (fun _ _ => Value.text.inj) perm
    have by_key : ∀ a b : String, (!decide (b < a)) = true ↔ id a ≤ id b := by
      intro a b
      rw [Bool.not_eq_true', decide_eq_false_iff_not, not_lt, id, id]
    rw [sorted_texts] at done ⊢
    rwa [(mergeSort_eq_iff_perm Function.injective_id by_key ts ss).mpr same.symm]
  · obtain ⟨others, rfl, same⟩ :=
      exists_map_of_perm (fun _ _ alike => (Value.bytes.inj alike).2) perm
    have injective : Function.Injective (List.map UInt8.toNat) :=
      List.map_injective_iff.mpr fun _ _ => UInt8.toNat_inj.mp
    have by_key : ∀ a b : List UInt8, (!decide (b < a)) = true ↔
        a.map UInt8.toNat ≤ b.map UInt8.toNat := by
      simp [SortKey.bytes_lt_iff]
    rw [sorted_bytes] at done ⊢
    rwa [(mergeSort_eq_iff_perm injective by_key others contents).mpr same.symm]

/-- The sorted elements of two sets are the same exactly when the sets have the same elements, each
as often. -/
theorem sorted_eq_iff_perm {items others ordered orderedOthers : List Value}
    (atoms : ∀ item ∈ items, item.IsAtom) (done : sorted items = .ok ordered)
    (doneOthers : sorted others = .ok orderedOthers) :
    ordered = orderedOthers ↔ items.Perm others := by
  constructor
  · rintro rfl
    exact (sortOn_perm id items ordered done).symm.trans (sortOn_perm id others ordered doneOthers)
  · intro perm
    have again := sorted_eq_of_perm atoms done perm
    rw [doneOthers] at again
    exact (Except.ok.inj again).symm

end Value

end TokenTable
