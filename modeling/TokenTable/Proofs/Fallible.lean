import Mathlib.Data.List.Forall2
import TokenTable.Fallible

/-! # Steps that may fail

A step fails only with certain faults if each of the steps that it is made of does; the laws of
`FailsOnly` follow the ways of putting steps together. A step taken for every member of a list gives
one result for each (`forall₂_of_mapM`).
-/

namespace TokenTable

variable {ε α β γ : Type}

/-- A step that fails does so with one of the allowed faults. -/
def FailsOnly (allowed : ε → Prop) (step : Except ε α) : Prop :=
  ∀ fault, step = .error fault → allowed fault

namespace FailsOnly

variable {allowed : ε → Prop}

theorem ok (a : α) : FailsOnly allowed (.ok a) := by
  intro fault failed
  cases failed

theorem pure (a : α) : FailsOnly allowed (Pure.pure a) := ok a

theorem error {fault : ε} (is_allowed : allowed fault) :
    FailsOnly allowed (.error fault : Except ε α) := by
  intro other failed
  cases failed
  exact is_allowed

theorem throw {fault : ε} (is_allowed : allowed fault) :
    FailsOnly allowed (MonadExcept.throw fault : Except ε α) := error is_allowed

theorem bind {first : Except ε α} {next : α → Except ε β} (early : FailsOnly allowed first)
    (late : ∀ a, FailsOnly allowed (next a)) : FailsOnly allowed (first >>= next) := by
  intro fault failed
  cases first with
  | error other =>
      cases failed
      exact early fault rfl
  | ok a => exact late a fault failed

theorem mono {wider : ε → Prop} {step : Except ε α} (fails : FailsOnly allowed step)
    (within : ∀ fault, allowed fault → wider fault) : FailsOnly wider step :=
  fun fault failed => within fault (fails fault failed)

theorem negate {first : Except ε Bool} (early : FailsOnly allowed first) :
    FailsOnly allowed (do return !(← first)) := early.bind fun _ => pure _

theorem map {first : Except ε α} (f : α → β) (early : FailsOnly allowed first) :
    FailsOnly allowed (first.map f) := by
  intro fault failed
  cases first with
  | error other =>
      cases failed
      exact early fault rfl
  | ok a => cases failed

theorem mapM {step : α → Except ε β} {items : List α}
    (each : ∀ a ∈ items, FailsOnly allowed (step a)) : FailsOnly allowed (items.mapM step) := by
  induction items with
  | nil =>
      rw [List.mapM_nil]
      exact pure []
  | cons a rest ih =>
      rw [List.mapM_cons]
      apply (each a List.mem_cons_self).bind
      intro b
      apply (ih fun other member => each other (List.mem_cons_of_mem a member)).bind
      intro bs
      exact pure _

theorem foldlM {step : β → α → Except ε β} (each : ∀ b a, FailsOnly allowed (step b a))
    (start : β) (items : List α) : FailsOnly allowed (items.foldlM step start) := by
  induction items generalizing start with
  | nil => exact pure start
  | cons a rest ih =>
      rw [List.foldlM_cons]
      exact (each start a).bind ih

theorem ite {condition : Prop} [Decidable condition] {first second : Except ε α}
    (early : FailsOnly allowed first) (late : FailsOnly allowed second) :
    FailsOnly allowed (if condition then first else second) := by
  by_cases holds : condition
  · rwa [if_pos holds]
  · rwa [if_neg holds]

end FailsOnly

/-- A step that succeeds for all members of a list has one result for each, in order. -/
theorem forall₂_of_mapM {step : α → Except ε β} {items : List α} {results : List β}
    (done : items.mapM step = .ok results) :
    List.Forall₂ (fun a b => step a = .ok b) items results := by
  induction items generalizing results with
  | nil =>
      rw [(mapM_nil_eq_ok_iff _ _).mp done]
      exact .nil
  | cons a rest ih =>
      obtain ⟨b, others, single, several, same⟩ := (mapM_cons_eq_ok_iff _ _ _ _).mp done
      subst same
      exact .cons single (ih several)

theorem mapM_of_forall₂ {step : α → Except ε β} {items : List α} {results : List β}
    (each : List.Forall₂ (fun a b => step a = .ok b) items results) :
    items.mapM step = .ok results := by
  induction each with
  | nil => rfl
  | cons single _ ih => exact (mapM_cons_eq_ok_iff _ _ _ _).mpr ⟨_, _, single, ih, rfl⟩

/-- A step that succeeds for a list succeeds for a part of it, and for the list turned round. -/
theorem mapM_take {step : α → Except ε β} {items : List α} {results : List β}
    (done : items.mapM step = .ok results) (n : Nat) :
    (items.take n).mapM step = .ok (results.take n) :=
  mapM_of_forall₂ (List.forall₂_take n (forall₂_of_mapM done))

theorem mapM_drop {step : α → Except ε β} {items : List α} {results : List β}
    (done : items.mapM step = .ok results) (n : Nat) :
    (items.drop n).mapM step = .ok (results.drop n) :=
  mapM_of_forall₂ (List.forall₂_drop n (forall₂_of_mapM done))

theorem mapM_reverse {step : α → Except ε β} {items : List α} {results : List β}
    (done : items.mapM step = .ok results) : items.reverse.mapM step = .ok results.reverse :=
  mapM_of_forall₂ (List.forall₂_reverse_iff.mpr (forall₂_of_mapM done))

/-- Steps that do the same with the members of two lists, one by one, do the same with the lists. -/
theorem mapM_eq_of_forall₂ {step : α → Except ε γ} {other : β → Except ε γ} {items : List α}
    {others : List β} (each : List.Forall₂ (fun a b => step a = other b) items others) :
    items.mapM step = others.mapM other := by
  induction each with
  | nil => rfl
  | cons single _ ih => rw [List.mapM_cons, List.mapM_cons, single, ih]

theorem foldlM_eq_of_forall₂ {step : γ → α → Except ε γ} {other : γ → β → Except ε γ}
    {items : List α} {others : List β}
    (each : List.Forall₂ (fun a b => ∀ done, step done a = other done b) items others)
    (start : γ) : items.foldlM step start = others.foldlM other start := by
  induction each generalizing start with
  | nil => rfl
  | cons single _ ih =>
      rw [List.foldlM_cons, List.foldlM_cons, single]
      exact congrArg _ (funext ih)

theorem exists_bind {first : Except ε α} {next : α → Except ε β} {a : α} (early : first = .ok a)
    (late : ∃ b, next a = .ok b) : ∃ b, (first >>= next) = .ok b := by
  obtain ⟨b, late⟩ := late
  exact ⟨b, (bind_eq_ok_iff _ _ _).mpr ⟨a, early, late⟩⟩

/-- A step that succeeds for each member of a list succeeds for the list. -/
theorem exists_mapM {step : α → Except ε β} {items : List α}
    (each : ∀ a ∈ items, ∃ b, step a = .ok b) : ∃ results, items.mapM step = .ok results := by
  induction items with
  | nil => exact ⟨[], rfl⟩
  | cons a rest ih =>
      rw [List.forall_mem_cons] at each
      obtain ⟨b, single⟩ := each.1
      obtain ⟨others, several⟩ := ih each.2
      exact ⟨b :: others, (mapM_cons_eq_ok_iff _ _ _ _).mpr ⟨b, others, single, several, rfl⟩⟩

theorem exists_of_isOk {step : Except ε α} (succeeds : step.isOk = true) : ∃ a, step = .ok a := by
  cases step with
  | error fault => cases succeeds
  | ok a => exact ⟨a, rfl⟩

theorem exists_error_of_not_ok {step : Except ε α} (never : ∀ a, step ≠ .ok a) :
    ∃ fault, step = .error fault := by
  cases step with
  | error fault => exact ⟨fault, rfl⟩
  | ok a => exact absurd rfl (never a)

/-- Results that tell what they were made of make up the list. -/
theorem map_eq_of_mapM {step : α → Except ε β} {items : List α} {results : List β} {origin : β → α}
    (back : ∀ a b, step a = .ok b → origin b = a) (done : items.mapM step = .ok results) :
    results.map origin = items := by
  induction forall₂_of_mapM done with
  | nil => rfl
  | cons single several ih =>
      rw [List.map_cons, back _ _ single, ih (mapM_of_forall₂ several)]

/-- Every member of the second of two lists that are related member by member is related to one of
the first. -/
theorem exists_of_mem_forall₂ {related : α → β → Prop} {items : List α} {results : List β}
    (each : List.Forall₂ related items results) (b : β) (member : b ∈ results) :
    ∃ a ∈ items, related a b := by
  induction each with
  | nil => cases member
  | cons single _ ih =>
      rcases List.mem_cons.mp member with rfl | later
      · exact ⟨_, List.mem_cons_self, single⟩
      · obtain ⟨a, inside, found⟩ := ih later
        exact ⟨a, List.mem_cons_of_mem _ inside, found⟩

theorem exists_of_mem_mapM {step : α → Except ε β} {items : List α} {results : List β} {b : β}
    (done : items.mapM step = .ok results) (member : b ∈ results) :
    ∃ a ∈ items, step a = .ok b := by
  have each := forall₂_of_mapM done
  exact exists_of_mem_forall₂ each b member

theorem exists_result_of_mem {step : α → Except ε β} {items : List α} {results : List β} {a : α}
    (done : items.mapM step = .ok results) (member : a ∈ items) :
    ∃ b ∈ results, step a = .ok b :=
  exists_of_mem_forall₂ (forall₂_of_mapM done).flip a member

/-- What every member of a list is related to makes up a list. -/
theorem exists_forall₂ {related : α → β → Prop} {items : List α}
    (each : ∀ a ∈ items, ∃ b, related a b) : ∃ results, List.Forall₂ related items results := by
  induction items with
  | nil => exact ⟨[], .nil⟩
  | cons a rest ih =>
      rw [List.forall_mem_cons] at each
      obtain ⟨b, single⟩ := each.1
      obtain ⟨others, several⟩ := ih each.2
      exact ⟨b :: others, .cons single several⟩

/-- Results that are read off what each member is related to are read off a list of that. -/
theorem forall₂_read_iff {related : α → β → Prop} (read : β → γ) (items : List α)
    (results : List γ) :
    List.Forall₂ (fun a c => ∃ b, related a b ∧ read b = c) items results ↔
      ∃ between, List.Forall₂ related items between ∧ between.map read = results := by
  constructor
  · intro each
    induction each with
    | nil => exact ⟨[], .nil, rfl⟩
    | cons single _ ih =>
        obtain ⟨b, first, rfl⟩ := single
        obtain ⟨between, others, rfl⟩ := ih
        exact ⟨b :: between, .cons first others, rfl⟩
  · rintro ⟨between, each, rfl⟩
    rw [List.forall₂_map_right_iff]
    exact each.imp fun a b first => ⟨b, first, rfl⟩

/-- A step succeeds as it did where its faults are told in another way. -/
theorem mapError_eq_ok_iff {δ : Type} (tell : ε → δ) (step : Except ε α) (result : α) :
    step.mapError tell = .ok result ↔ step = .ok result := by
  cases step <;> simp [Except.mapError]

/-- Two steps fail exactly when the first does, or the second after the first. -/
theorem bind_eq_error_iff (first : Except ε α) (next : α → Except ε β) (fault : ε) :
    (first >>= next) = .error fault ↔
      first = .error fault ∨ ∃ a, first = .ok a ∧ next a = .error fault := by
  cases first with
  | error other => simp [bind, Except.bind]
  | ok a => simp [bind, Except.bind]

theorem mapM_cons_eq_error_iff (step : α → Except ε β) (a : α) (rest : List α) (fault : ε) :
    (a :: rest).mapM step = .error fault ↔
      step a = .error fault ∨ ∃ b, step a = .ok b ∧ rest.mapM step = .error fault := by
  simp [List.mapM_cons, bind_eq_error_iff, pure, Except.pure]

/-- A step that fails where another does, and as it does, fails so for a list. -/
theorem mapM_eq_error_iff_of {step : α → Except ε β} {other : α → Except ε γ}
    (alike : ∀ a fault, step a = .error fault ↔ other a = .error fault) (items : List α)
    (fault : ε) : items.mapM step = .error fault ↔ items.mapM other = .error fault := by
  have succeeds : ∀ a, (∃ b, step a = .ok b) ↔ ∃ c, other a = .ok c := by
    intro a
    have same := alike a
    cases first : step a with
    | error fault => simp [(same fault).mp first]
    | ok b =>
        cases second : other a with
        | error fault => simp [first, second] at same
        | ok c => simp
  induction items with
  | nil => simp [pure, Except.pure]
  | cons a rest ih =>
      simp only [mapM_cons_eq_error_iff, exists_and_right]
      exact or_congr (alike a fault) (and_congr (succeeds a) ih)

/-- A step succeeds for two lists put together exactly when it does for each of them. -/
theorem mapM_append_eq_ok_iff (step : α → Except ε β) (items more : List α) (results : List β) :
    (items ++ more).mapM step = .ok results ↔
      ∃ first second, items.mapM step = .ok first ∧ more.mapM step = .ok second ∧
        first ++ second = results := by
  simp only [List.mapM_append, bind_eq_ok_iff, pure_eq_ok_iff, exists_and_left]

/-- A step fails for two lists put together exactly when it does for the first, or for the second
after the first. -/
theorem mapM_append_eq_error_iff (step : α → Except ε β) (items more : List α) (fault : ε) :
    (items ++ more).mapM step = .error fault ↔
      items.mapM step = .error fault ∨
        ∃ first, items.mapM step = .ok first ∧ more.mapM step = .error fault := by
  simp [List.mapM_append, bind_eq_error_iff, pure, Except.pure]

end TokenTable
