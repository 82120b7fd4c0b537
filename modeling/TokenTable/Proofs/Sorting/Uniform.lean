import TokenTable.Sorting.Basic

/-! # A sort compares members of all kinds

Where members of different kinds cannot be compared, a sort of members of several kinds fails: it
merges all runs in the end, and runs are merged, as they are made, only after a comparison of their
members. Main statement: `uniform_of_sort`.
-/

namespace TokenTable.Sorting

variable {ε α κ : Type}

/-- Whether all members of a list are of one kind. -/
def Uniform (kind : α → κ) (items : List α) : Prop := ∀ a ∈ items, ∀ b ∈ items, kind a = kind b

/-- Whether only members of one kind can be compared. -/
def ComparesWithin (kind : α → κ) (less : α → α → Except ε Bool) : Prop :=
  ∀ a b first, less a b = .ok first → kind a = kind b

theorem Uniform.of_perm {kind : α → κ} {items others : List α} (uniform : Uniform kind items)
    (perm : others.Perm items) : Uniform kind others :=
  fun a inA b inB => uniform a (perm.mem_iff.mp inA) b (perm.mem_iff.mp inB)

theorem Uniform.singleton (kind : α → κ) (a : α) : Uniform kind [a] := by
  intro b inB c inC
  rw [List.mem_singleton.mp inB, List.mem_singleton.mp inC]

/-- Members of one kind on both sides, and two of them alike. -/
theorem Uniform.append {kind : α → κ} {items others : List α} {a b : α}
    (uniform : Uniform kind items) (uniformOthers : Uniform kind others) (inItems : a ∈ items)
    (inOthers : b ∈ others) (alike : kind a = kind b) : Uniform kind (items ++ others) := by
  have all : ∀ c ∈ items ++ others, kind c = kind a := by
    intro c member
    rcases List.mem_append.mp member with early | late
    · exact uniform c early a inItems
    · exact (uniformOthers c late b inOthers).trans alike.symm
  intro c inC d inD
  exact (all c inC).trans (all d inD).symm

/-- A run to be merged: it has members, and all of them are of one kind. -/
structure Solid (kind : α → κ) (run : List α) : Prop where
  given : run ≠ []
  uniform : Uniform kind run

theorem Solid.of_perm {kind : α → κ} {run other : List α} (solid : Solid kind run)
    (perm : other.Perm run) : Solid kind other where
  given none := solid.given (List.perm_nil.mp (none ▸ perm.symm))
  uniform := solid.uniform.of_perm perm

variable {kind : α → κ} {less : α → α → Except ε Bool}

theorem kind_eq_of_stretch {goesOn : α → α → Except ε Bool}
    (within : ComparesWithin kind goesOn) {last : α} {items : List α} {more : Nat}
    (done : stretch goesOn last items = .ok more) : ∀ a ∈ items.take more, kind a = kind last := by
  induction items generalizing last more with
  | nil =>
      intro a member
      rw [List.take_nil] at member
      cases member
  | cons b rest ih =>
      obtain ⟨goes, compared, done⟩ := (bind_eq_ok_iff _ _ _).mp done
      cases goes with
      | false =>
          cases done
          intro a member
          cases member
      | true =>
          obtain ⟨others, later, done⟩ := (bind_eq_ok_iff _ _ _).mp done
          cases done
          have alike := within last b true compared
          intro a member
          rcases List.mem_cons.mp member with rfl | member
          · exact alike.symm
          · exact (ih later a member).trans alike.symm

/-- The run that a list starts with is of one kind. -/
theorem kind_eq_of_leadingRun (within : ComparesWithin kind less) {a : α} {items : List α}
    {more : Nat} {descends : Bool} (done : leadingRun less a items = .ok (more, descends)) :
    ∀ b ∈ items.take more, kind b = kind a := by
  cases items with
  | nil =>
      intro b member
      rw [List.take_nil] at member
      cases member
  | cons b rest =>
      obtain ⟨_, compared, done⟩ := (bind_eq_ok_iff _ _ _).mp done
      obtain ⟨others, later, done⟩ := (bind_eq_ok_iff _ _ _).mp done
      cases done
      have alike := within b a _ compared
      have backwards : ComparesWithin kind fun last next =>
          return (← less next last) == descends := by
        intro last next goes compared
        obtain ⟨first, compared, _⟩ := (bind_eq_ok_iff _ _ _).mp compared
        exact (within next last first compared).symm
      intro c member
      rcases List.mem_cons.mp member with rfl | member
      · exact alike
      · exact (kind_eq_of_stretch backwards later c member).trans alike

/-- A member is compared with one of the run that it is inserted into. -/
theorem exists_kind_eq_of_insert (within : ComparesWithin kind less) {a : α} {run sorted : List α}
    (given : run ≠ []) (done : insert less a run = .ok sorted) : ∃ b ∈ run, kind a = kind b := by
  have count := List.length_pos_iff.mpr given
  have whole := List.take_append_drop (run.length / 2) run
  have behind := List.length_drop (i := run.length / 2) (l := run)
  unfold insert at done
  split at done
  · rename_i front parts
    rw [List.splitAt_eq, Prod.mk.injEq] at parts
    rw [parts.2, List.length_nil] at behind
    omega
  · rename_i front pivot after parts
    rw [List.splitAt_eq, Prod.mk.injEq] at parts
    obtain ⟨first, compared, _⟩ := (bind_eq_ok_iff _ _ _).mp done
    refine ⟨pivot, ?_, within a pivot first compared⟩
    rw [← whole, parts.2]
    exact List.mem_append_right _ List.mem_cons_self

theorem solid_of_insertAll (within : ComparesWithin kind less) {run members sorted : List α}
    (solid : Solid kind run) (done : insertAll less run members = .ok sorted) :
    Solid kind sorted := by
  induction members generalizing run with
  | nil =>
      cases done
      exact solid
  | cons a rest ih =>
      obtain ⟨inserted, once, done⟩ := (bind_eq_ok_iff _ _ _).mp done
      obtain ⟨b, member, alike⟩ := exists_kind_eq_of_insert within solid.given once
      have added : Solid kind ([a] ++ run) :=
        ⟨List.cons_ne_nil _ _, (Uniform.singleton kind a).append solid.uniform
          (List.mem_singleton.mpr rfl) member alike⟩
      exact ih (added.of_perm (perm_of_insert less a run inserted once)) done

/-- A search from the front asks about the first member. -/
theorem exists_holds_of_boundary {holds : α → Except ε Bool} {a : α} {rest : List α} {place : Nat}
    (done : boundary .front holds (a :: rest) = .ok place) : ∃ held, holds a = .ok held := by
  obtain ⟨held, asked, _⟩ := (bind_eq_ok_iff _ _ _).mp done
  exact ⟨held, asked⟩

/-- Two runs are merged only after a comparison of their members. -/
theorem solid_of_mergeRuns (within : ComparesWithin kind less) {limit learned : Nat}
    {a b merged : List α} (solid : Solid kind a) (solidOther : Solid kind b)
    (done : mergeRuns less limit a b = .ok (merged, learned)) : Solid kind merged := by
  refine Solid.of_perm ?_ (perm_of_mergeRuns less limit learned a b merged done)
  obtain ⟨x, first, rfl⟩ := List.exists_cons_of_ne_nil solid.given
  obtain ⟨y, second, rfl⟩ := List.exists_cons_of_ne_nil solidOther.given
  obtain ⟨kept, searched, _⟩ := (bind_eq_ok_iff _ _ _).mp done
  obtain ⟨held, asked⟩ := exists_holds_of_boundary searched
  obtain ⟨less, compared, _⟩ := (bind_eq_ok_iff _ _ _).mp asked
  have alike := within y x less compared
  exact ⟨List.cons_ne_nil _ _, solid.uniform.append solidOther.uniform List.mem_cons_self
    List.mem_cons_self alike.symm⟩

/-- Whether all runs that are not merged yet are solid. -/
def AllSolid (kind : α → κ) (pending : List (Pending α)) : Prop :=
  ∀ below ∈ pending, Solid kind below.run

theorem solid_of_collapse (within : ComparesWithin kind less) {power limit learned : Nat}
    {top run : List α} {pending rest : List (Pending α)} (solid : Solid kind top)
    (allSolid : AllSolid kind pending)
    (done : collapse less power limit top pending = .ok ((run, rest), learned)) :
    Solid kind run ∧ AllSolid kind rest := by
  induction pending generalizing top limit with
  | nil =>
      cases done
      exact ⟨solid, allSolid⟩
  | cons below pending ih =>
      have both := List.forall_mem_cons.mp allSolid
      unfold collapse at done
      split at done
      · obtain ⟨⟨merged, _⟩, once, done⟩ := (bind_eq_ok_iff _ _ _).mp done
        exact ih (solid_of_mergeRuns within both.1 solid once) both.2 done
      · cases done
        exact ⟨solid, allSolid⟩

theorem uniform_of_mergeAll (within : ComparesWithin kind less) {limit : Nat}
    {top sorted : List α} {pending : List (Pending α)} (solid : Solid kind top)
    (allSolid : AllSolid kind pending) (done : mergeAll less limit top pending = .ok sorted) :
    Uniform kind sorted := by
  induction size : pending.length using Nat.strongRecOn generalizing limit top pending with
  | _ size ih =>
    subst size
    unfold mergeAll at done
    split at done
    · cases done
      exact solid.uniform
    · rename_i below
      obtain ⟨⟨merged, _⟩, once, done⟩ := (bind_eq_ok_iff _ _ _).mp done
      cases done
      have lower := allSolid below List.mem_cons_self
      exact (solid_of_mergeRuns within lower solid once).uniform
    · rename_i below lowest rest
      have each := List.forall_mem_cons.mp allSolid
      have others := List.forall_mem_cons.mp each.2
      split at done
      · obtain ⟨⟨merged, _⟩, once, done⟩ := (bind_eq_ok_iff _ _ _).mp done
        refine ih _ (by simp) solid ?_ done rfl
        have joined := solid_of_mergeRuns within others.1 each.1 once
        exact List.forall_mem_cons.mpr ⟨joined, others.2⟩
      · obtain ⟨⟨merged, _⟩, once, done⟩ := (bind_eq_ok_iff _ _ _).mp done
        exact ih _ (by simp) (solid_of_mergeRuns within each.1 solid once) each.2 done rfl

theorem allSolid_of_settle (within : ComparesWithin kind less) {length start added limit : Nat}
    {learned : Nat} {pending before : List (Pending α)} (allSolid : AllSolid kind pending)
    (done : settle less length start added limit pending = .ok (before, learned)) :
    AllSolid kind before := by
  cases pending with
  | nil =>
      cases done
      exact allSolid
  | cons top below =>
      obtain ⟨⟨⟨merged, rest⟩, _⟩, once, done⟩ := (bind_eq_ok_iff _ _ _).mp done
      cases done
      have each := List.forall_mem_cons.mp allSolid
      have both := solid_of_collapse within each.1 each.2 once
      exact List.forall_mem_cons.mpr both

theorem uniform_of_sortFrom (within : ComparesWithin kind less) {length least start limit : Nat}
    {pending : List (Pending α)} {items sorted : List α} (allSolid : AllSolid kind pending)
    (done : sortFrom less length least start limit pending items = .ok sorted) :
    Uniform kind sorted := by
  induction size : items.length using Nat.strongRecOn
    generalizing start limit pending items with
  | _ size ih =>
    subst size
    unfold sortFrom at done
    split at done
    · split at done
      · cases done
        exact fun a member => by cases member
      · have each := List.forall_mem_cons.mp allSolid
        exact uniform_of_mergeAll within each.1 each.2 done
    · rename_i a rest
      obtain ⟨⟨more, descends⟩, led, done⟩ := (bind_eq_ok_iff _ _ _).mp done
      obtain ⟨run, filled, done⟩ := (bind_eq_ok_iff _ _ _).mp done
      obtain ⟨⟨before, _⟩, merged, done⟩ := (bind_eq_ok_iff _ _ _).mp done
      have follow := kind_eq_of_leadingRun within led
      have first : Solid kind (a :: rest.take more) := by
        refine ⟨List.cons_ne_nil _ _, ?_⟩
        have all : ∀ b ∈ a :: rest.take more, kind b = kind a :=
          List.forall_mem_cons.mpr ⟨rfl, follow⟩
        exact fun b inB c inC => (all b inB).trans (all c inC).symm
      have led := first.of_perm (perm_of_leading descends a (rest.take more))
      have solid := solid_of_insertAll within led filled
      have settled := allSolid_of_settle within allSolid merged
      refine ih _ ?_ (List.forall_mem_cons.mpr ⟨solid, settled⟩) done rfl
      simp only [List.length_cons, List.length_drop]
      omega

/-- **A sort compares across kinds.** If members of different kinds cannot be compared, a list can
only be sorted if its members are all of one kind. -/
theorem uniform_of_sort (within : ComparesWithin kind less) {items sorted : List α}
    (done : sort less items = .ok sorted) : Uniform kind items := by
  have uniform := uniform_of_sortFrom within (fun _ member => by cases member) done
  exact uniform.of_perm (perm_of_sort less items sorted done).symm

end TokenTable.Sorting
