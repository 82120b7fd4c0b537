import Mathlib.Data.Multiset.AddSub
import TokenTable.Proofs.Fingerprint.Plain

/-! # Matching what came back

Natives are counted by their fingerprints. When every native that a store hands back has the
fingerprint of an entry of the page, and none comes back more often than it was sent, the entries
that are left are entries of the page, each used at most once, and have the fingerprints that came
back (`remainder_of_le`). Which entries are used does not depend on how the store spells them.
-/

namespace TokenTable

/-- The fingerprint of a native as it is compared with others, if it has one. -/
def mark (native : Value) : Option Value := (fingerprint native).toOption.map Value.plain

/-- The fingerprints of some natives, each as often as it occurs. -/
def marks (natives : List Value) : Multiset (Option Value) := Multiset.ofList (natives.map mark)

@[simp] theorem marks_nil : marks [] = 0 := rfl

@[simp] theorem marks_append (first second : List Value) :
    marks (first ++ second) = marks first + marks second := by
  unfold marks
  rw [List.map_append, Multiset.coe_add]

theorem marks_eq_of_perm {first second : List Value} (perm : first.Perm second) :
    marks first = marks second :=
  Multiset.coe_eq_coe.mpr (perm.map mark)

theorem mark_of_fingerprint {native value : Value} (done : fingerprint native = .ok value) :
    mark native = some value.plain := by
  rw [mark, done]
  rfl

namespace Batch

/-- The fingerprint of an entry holds texts and plain byte strings only. -/
def Entry.HasPlainMark (entry : Entry) : Prop :=
  ∀ value, fingerprint entry.native = .ok value → value.isPlain = true

/-- The fingerprints of some entries, each as often as it occurs. -/
def marksOf (entries : List Entry) : Multiset (Option Value) := marks (entries.map Entry.native)

@[simp] theorem marksOf_append (first second : List Entry) :
    marksOf (first ++ second) = marksOf first + marksOf second := by
  unfold marksOf
  rw [List.map_append, marks_append]

/-- What a store hands back of a page. -/
def Reply.returned (reply : Reply) : List Value :=
  match reply.unprocessed.elements with
  | .ok natives => natives
  | .error _ => []

theorem Reply.returned_of_elements {reply : Reply} {natives : List Value}
    (members : reply.unprocessed.elements = .ok natives) : reply.returned = natives := by
  rw [returned, members]

/-- What does not count as given has no members. -/
theorem Reply.returned_of_not_given (reply : Reply) (absent : reply.unprocessed.isGiven = false) :
    reply.returned = [] := by
  unfold returned
  cases shape : reply.unprocessed with
  | text s =>
      rw [shape] at absent
      have empty : s = "" := by simpa [Value.isGiven] using absent
      subst empty
      rfl
  | bytes form content =>
      rw [shape] at absent
      have empty : content = [] := by simpa [Value.isGiven] using absent
      subst empty
      rfl
  | list items =>
      rw [shape] at absent
      simpa [Value.isGiven, Value.elements] using absent
  | tuple items =>
      rw [shape] at absent
      simpa [Value.isGiven, Value.elements] using absent
  | set frozen members =>
      rw [shape] at absent
      simpa [Value.isGiven, Value.elements] using absent
  | map entries =>
      rw [shape] at absent
      simpa [Value.isGiven, Value.elements] using absent
  | _ => rfl

/-- What counts as given and can be gone through has members. -/
theorem ne_nil_of_isGiven (v : Value) (members : List Value) (given : v.isGiven = true)
    (listed : v.elements = .ok members) : members ≠ [] := by
  rintro rfl
  cases v with
  | text s =>
      have empty : s = "" := by simpa [Value.elements] using listed
      subst empty
      cases given
  | bytes form content =>
      have empty : content = [] := by simpa [Value.elements] using listed
      subst empty
      cases given
  | list items | tuple items | set frozen items =>
      cases listed
      cases given
  | map entries =>
      have empty : entries = [] := by simpa [Value.elements] using listed
      subst empty
      cases given
  | _ => cases listed

/-- The first pair with a mark is taken out from between the others. -/
theorem takeMatch?_map {α : Type} (f : α → Value × Entry) (mark : Value) (items : List α) :
    (∃ before item after, items = before ++ item :: after ∧
      (∀ other ∈ before, (f other).1.same mark = false) ∧ (f item).1.same mark = true ∧
      takeMatch? mark (items.map f) = some ((f item).2, (before ++ after).map f)) ∨
    ((∀ item ∈ items, (f item).1.same mark = false) ∧ takeMatch? mark (items.map f) = none) := by
  induction items with
  | nil => exact Or.inr ⟨fun _ member => (List.not_mem_nil member).elim, rfl⟩
  | cons item rest ih =>
      rw [List.map_cons, takeMatch?]
      cases here : (f item).1.same mark with
      | true =>
          refine Or.inl ⟨[], item, rest, rfl, ?_, here, ?_⟩
          · exact fun _ member => (List.not_mem_nil member).elim
          · rfl
      | false =>
          rw [if_neg Bool.false_ne_true]
          rcases ih with ⟨before, found, after, rfl, differ, agree, took⟩ | ⟨differ, took⟩
          · refine Or.inl ⟨item :: before, found, after, rfl, ?_, agree, ?_⟩
            · exact List.forall_mem_cons.mpr ⟨here, differ⟩
            · rw [took]
              rfl
          · refine Or.inr ⟨List.forall_mem_cons.mpr ⟨here, differ⟩, ?_⟩
            rw [took]
            rfl

/-- An entry is taken out if one of the marks is the one looked for, and else none is. -/
theorem takeMatch?_cases (value : Value) (marked : List (Value × Entry)) :
    (∃ before mark entry after, marked = before ++ (mark, entry) :: after ∧
      mark.same value = true ∧ takeMatch? value marked = some (entry, before ++ after)) ∨
    ((∀ pair ∈ marked, pair.1.same value = false) ∧ takeMatch? value marked = none) := by
  have cases := takeMatch?_map id value marked
  simp only [List.map_id, id] at cases
  rcases cases with ⟨before, ⟨mark, entry⟩, after, split, _, here, took⟩ | none
  · exact Or.inl ⟨before, mark, entry, after, split, here, took⟩
  · exact Or.inr none

/-- Taking out an entry takes one of the marked entries, whose mark is the one looked for. -/
theorem agrees_of_takeMatch? {value : Value} {marked left : List (Value × Entry)} {entry : Entry}
    (taken : takeMatch? value marked = some (entry, left)) :
    ∃ mark, mark.same value = true ∧ ((mark, entry) :: left).Perm marked := by
  rcases takeMatch?_cases value marked with
    ⟨before, mark, found, after, rfl, here, took⟩ | ⟨_, none⟩
  · rw [took] at taken
    cases taken
    exact ⟨mark, here, List.perm_middle.symm⟩
  · rw [none] at taken
    cases taken

/-- An entry is taken out from among plain marks if one of them is the mark looked for, and it is
one with that mark. -/
theorem takeMatch?_of_mem (value : Value) (marked : List (Value × Entry))
    (plain : ∀ pair ∈ marked, pair.1.isPlain = true)
    (present : value.plain ∈ marked.map Prod.fst) :
    ∃ entry left, takeMatch? value marked = some (entry, left) ∧
      ((value.plain, entry) :: left).Perm marked := by
  have agrees := fun pair member => Value.same_iff_plain_eq pair.1 value (plain pair member)
  rcases takeMatch?_cases value marked with
    ⟨before, mark, entry, after, rfl, here, took⟩ | ⟨differ, _⟩
  · have equal : value.plain = mark :=
      (agrees (mark, entry) (List.mem_append_right _ List.mem_cons_self)).mp here
    rw [equal]
    exact ⟨entry, before ++ after, took, List.perm_middle.symm⟩
  · obtain ⟨pair, member, same⟩ := List.mem_map.mp present
    have here := (agrees pair member).mpr same.symm
    rw [differ pair member] at here
    cases here

/-- Natives whose fingerprints are among the marks are matched with marked entries, each of which is
used at most once. -/
theorem matchNatives_of_le (restore : Value → Except Fault Value) (marked : List (Value × Entry))
    (natives : List Value) (left : List Entry) (plain : ∀ pair ∈ marked, pair.1.isPlain = true)
    (within : marks natives ≤ Multiset.ofList (marked.map fun pair => some pair.1))
    (matched : matchNatives restore marked natives = .ok left) :
    ∃ used : List (Value × Entry), used.Subperm marked ∧ left = used.map Prod.snd ∧
      natives.map mark = used.map fun pair => some pair.1 := by
  induction natives generalizing marked left with
  | nil =>
      cases matched
      exact ⟨[], List.nil_subperm, rfl, rfl⟩
  | cons native rest ih =>
      obtain ⟨value, single, matched⟩ := (bind_eq_ok_iff _ _ _).mp matched
      have head := mark_of_fingerprint single
      have split : marks (native :: rest) = some value.plain ::ₘ marks rest := by
        rw [marks, List.map_cons, head, ← Multiset.cons_coe]
        rfl
      rw [split] at within
      have present : value.plain ∈ marked.map Prod.fst := by
        have member := Multiset.mem_of_le within (Multiset.mem_cons_self _ _)
        obtain ⟨pair, inside, same⟩ := List.mem_map.mp (Multiset.mem_coe.mp member)
        rw [← Option.some.inj same]
        exact List.mem_map_of_mem inside
      obtain ⟨entry, others, taken, perm⟩ := takeMatch?_of_mem value marked plain present
      rw [taken] at matched
      obtain ⟨later, several, matched⟩ := (bind_eq_ok_iff _ _ _).mp matched
      cases matched
      have smaller : marks rest ≤ Multiset.ofList (others.map fun pair => some pair.1) := by
        have same := Multiset.coe_eq_coe.mpr (perm.map fun pair => some pair.1)
        rw [← same, List.map_cons, ← Multiset.cons_coe] at within
        exact (Multiset.cons_le_cons_iff _).mp within
      have kept : ∀ pair ∈ others, pair.1.isPlain = true := fun pair member =>
        plain pair (perm.mem_iff.mp (List.mem_cons_of_mem _ member))
      obtain ⟨used, part, rfl, same⟩ := ih others later kept smaller several
      refine ⟨(value.plain, entry) :: used, ?_, rfl, ?_⟩
      · exact ((List.subperm_cons _).mpr part).trans perm.subperm
      · rw [List.map_cons, List.map_cons, head, same]

theorem marked_of_mapM (entries : List Entry) (marked : List (Value × Entry))
    (done : (entries.mapM fun entry => do return (← fingerprint entry.native, entry)) =
      .ok marked) :
    marked.map Prod.snd = entries ∧ ∀ pair ∈ marked, fingerprint pair.2.native = .ok pair.1 := by
  constructor
  · refine map_eq_of_mapM (fun entry pair single => ?_) done
    obtain ⟨value, _, single⟩ := (bind_eq_ok_iff _ _ _).mp single
    cases single
    rfl
  · intro pair member
    obtain ⟨entry, _, single⟩ := exists_of_mem_mapM done member
    obtain ⟨value, taken, single⟩ := (bind_eq_ok_iff _ _ _).mp single
    cases single
    exact taken

/-- **What is left of a page.** If what a store hands back has, by fingerprint, nothing that the
page does not have as often, then what is left are entries of the page, no place of which is used
twice, and they have the fingerprints of what came back, in its order. -/
theorem remainder_of_le (restore : Value → Except Fault Value) (entries left : List Entry)
    (reply : Reply) (plain : ∀ entry ∈ entries, entry.HasPlainMark)
    (within : marks reply.returned ≤ marksOf entries)
    (matched : remainder restore entries reply.unprocessed = .ok left) :
    left.Subperm entries ∧ reply.returned.map mark = left.map fun entry => mark entry.native := by
  obtain ⟨marked, marking, matched⟩ := (bind_eq_ok_iff _ _ _).mp matched
  obtain ⟨natives, listed, matched⟩ := (bind_eq_ok_iff _ _ _).mp matched
  rw [Reply.returned_of_elements listed] at within ⊢
  obtain ⟨kept, each⟩ := marked_of_mapM entries marked marking
  have arePlain : ∀ pair ∈ marked, pair.1.isPlain = true := by
    intro pair member
    have inside : pair.2 ∈ entries := by
      rw [← kept]
      exact List.mem_map_of_mem member
    exact plain pair.2 inside pair.1 (each pair member)
  have markOf : ∀ pair ∈ marked, mark pair.2.native = some pair.1 := by
    intro pair member
    rw [mark_of_fingerprint (each pair member), Value.plain_of_isPlain _ (arePlain pair member)]
  have same : marksOf entries = Multiset.ofList (marked.map fun pair => some pair.1) := by
    rw [marksOf, marks, ← kept, List.map_map, List.map_map]
    exact congrArg Multiset.ofList (List.map_congr_left markOf)
  rw [same] at within
  obtain ⟨used, part, rfl, agree⟩ :=
    matchNatives_of_le restore marked natives left arePlain within matched
  constructor
  · obtain ⟨chosen, perm, sub⟩ := part
    rw [← kept]
    exact ⟨chosen.map Prod.snd, perm.map Prod.snd, sub.map Prod.snd⟩
  · rw [agree, List.map_map]
    exact List.map_congr_left fun pair member => (markOf pair (part.subset member)).symm

theorem ne_nil_of_remainder {restore : Value → Except Fault Value} {entries left : List Entry}
    {unprocessed : Value} (given : unprocessed.isGiven = true)
    (matched : remainder restore entries unprocessed = .ok left) : left ≠ [] := by
  obtain ⟨marked, _, matched⟩ := (bind_eq_ok_iff _ _ _).mp matched
  obtain ⟨natives, listed, matched⟩ := (bind_eq_ok_iff _ _ _).mp matched
  have some := ne_nil_of_isGiven unprocessed natives given listed
  have count := length_matchNatives restore marked natives left matched
  intro none
  rw [none, List.length_nil] at count
  exact some (List.length_eq_zero_iff.mp count.symm)

theorem marksOf_remainder {restore : Value → Except Fault Value} {entries left : List Entry}
    {reply : Reply} (plain : ∀ entry ∈ entries, entry.HasPlainMark)
    (within : marks reply.returned ≤ marksOf entries)
    (matched : remainder restore entries reply.unprocessed = .ok left) :
    marksOf left = marks reply.returned := by
  have same := (remainder_of_le restore entries left reply plain within matched).2
  unfold marksOf marks
  rw [same, List.map_map]
  rfl

end Batch

end TokenTable
