import TokenTable.Proofs.Fallible
import TokenTable.Run

/-! # Verdicts on parts

What an operation is given consists of parts that are checked one after another. The verdict is the
fault of the first part that fails (`verdict_eq_error_iff`). A translation rests on its parts if it
succeeds or fails as they do (`RestsOn`), and an operation is refused by its parts if it does
nothing but fail where one of them does (`RefusedBy`); the laws of both follow the ways of putting
steps together.
-/

namespace TokenTable

variable {ω α β : Type}

/-- The verdict on parts that are checked one after another. -/
def verdict : List (Except Fault Unit) → Except Fault Unit
  | [] => .ok ()
  | part :: rest => do
    part
    verdict rest

/-- What a step tells of its argument: whether it is well formed. -/
def check (result : Except Fault α) : Except Fault Unit := result.map fun _ => ()

/-- A part that is well formed exactly when a condition holds. -/
def demand (holds : Bool) (fault : Fault) : Except Fault Unit :=
  if holds then .ok () else .error fault

/-- A part that is well formed exactly when something that is asked of it does not hold. -/
def refuse (found : Except Fault Bool) (fault : Fault) : Except Fault Unit := do
  if ← found then throw fault

theorem verdict_append (parts others : List (Except Fault Unit)) :
    verdict (parts ++ others) = (verdict parts >>= fun _ => verdict others) := by
  induction parts with
  | nil => rfl
  | cons part rest ih =>
      cases part with
      | error fault => rfl
      | ok => exact ih

/-- The verdict is the fault of the first part that fails. -/
theorem verdict_eq_error_iff (parts : List (Except Fault Unit)) (fault : Fault) :
    verdict parts = .error fault ↔
      ∃ before after, parts = before ++ .error fault :: after ∧ ∀ part ∈ before, part = .ok () := by
  induction parts with
  | nil => simp [verdict]
  | cons part rest ih =>
      cases part with
      | error other =>
          constructor
          · rintro ⟨⟩
            exact ⟨[], rest, rfl, fun _ member => by cases member⟩
          · rintro ⟨before, after, same, valid⟩
            cases before with
            | nil =>
                cases same
                rfl
            | cons first before =>
                cases same
                cases valid _ List.mem_cons_self
      | ok =>
          refine Iff.trans ih ⟨?_, ?_⟩
          · rintro ⟨before, after, rfl, valid⟩
            exact ⟨.ok () :: before, after, rfl, List.forall_mem_cons.mpr ⟨rfl, valid⟩⟩
          · rintro ⟨before, after, same, valid⟩
            cases before with
            | nil => cases same
            | cons first before =>
                cases same
                exact ⟨before, after, rfl, (List.forall_mem_cons.mp valid).2⟩

/-- Where some part fails, the verdict is a fault. -/
theorem exists_verdict_of_mem {parts : List (Except Fault Unit)}
    (malformed : ∃ part ∈ parts, part ≠ .ok ()) : ∃ fault, verdict parts = .error fault := by
  induction parts with
  | nil =>
      obtain ⟨_, member, _⟩ := malformed
      cases member
  | cons part rest ih =>
      cases part with
      | error fault => exact ⟨fault, rfl⟩
      | ok =>
          obtain ⟨other, member, differs⟩ := malformed
          rcases List.mem_cons.mp member with rfl | later
          · exact absurd rfl differs
          · exact ih ⟨other, later, differs⟩

/-- A result that is there exactly when all parts are well formed, and that is otherwise the fault
of the first part that is not. -/
def RestsOn (parts : List (Except Fault Unit)) (result : Except Fault α) : Prop :=
  check result = verdict parts

namespace RestsOn

theorem ok (a : α) : RestsOn [] (.ok a) := rfl

theorem pure (a : α) : RestsOn [] (Pure.pure a : Except Fault α) := ok a

theorem single (result : Except Fault α) : RestsOn [check result] result := by
  cases result <;> rfl

theorem bind {parts others : List (Except Fault Unit)} {first : Except Fault α}
    {next : α → Except Fault β} (early : RestsOn parts first)
    (late : ∀ a, RestsOn others (next a)) : RestsOn (parts ++ others) (first >>= next) := by
  rw [RestsOn, verdict_append, ← early]
  cases first with
  | error fault => rfl
  | ok a => exact late a

/-- A result that is only changed further rests on the same parts. -/
theorem map {parts : List (Except Fault Unit)} {first : Except Fault α}
    (early : RestsOn parts first) (further : α → β) :
    RestsOn parts (first >>= fun a => Pure.pure (further a)) := by
  have collected := early.bind fun a => pure (further a)
  rwa [List.append_nil] at collected

/-- What follows a demand is reached only where it is met. -/
theorem demand {holds : Bool} {fault : Fault} {parts : List (Except Fault Unit)}
    {next : Except Fault α} (rest : RestsOn parts next) :
    RestsOn (TokenTable.demand holds fault :: parts) (if !holds then throw fault else next) := by
  cases holds with
  | false => rfl
  | true => exact rest

/-- What follows is reached only where what is asked does not hold. -/
theorem refuse {found : Except Fault Bool} {fault : Fault} {parts : List (Except Fault Unit)}
    {next : Except Fault α} (rest : RestsOn parts next) :
    RestsOn (TokenTable.refuse found fault :: parts)
      (found >>= fun holds => if holds then throw fault else next) := by
  cases found with
  | error other => rfl
  | ok holds =>
      cases holds with
      | false => exact rest
      | true => rfl

theorem mapM {step : α → Except Fault β} {parts : α → List (Except Fault Unit)}
    (each : ∀ a, RestsOn (parts a) (step a)) (items : List α) :
    RestsOn (items.flatMap parts) (items.mapM step) := by
  induction items with
  | nil => exact pure []
  | cons a rest ih =>
      rw [List.flatMap_cons, List.mapM_cons]
      apply (each a).bind
      intro b
      exact ih.map (b :: ·)

theorem foldlM {step : β → α → Except Fault β} {parts : α → List (Except Fault Unit)}
    (each : ∀ b a, RestsOn (parts a) (step b a)) (start : β) (items : List α) :
    RestsOn (items.flatMap parts) (items.foldlM step start) := by
  induction items generalizing start with
  | nil => exact pure start
  | cons a rest ih =>
      rw [List.flatMap_cons, List.foldlM_cons]
      exact (each start a).bind ih

end RestsOn

/-- An operation that only fails, with the first fault, if some part is not well formed. -/
def RefusedBy (parts : List (Except Fault Unit)) (action : Run ω α) : Prop :=
  ∀ fault, verdict parts = .error fault → action = throw fault

namespace RefusedBy

theorem nil (action : Run ω α) : RefusedBy [] action := by
  intro fault failed
  cases failed

theorem lift_bind {parts others : List (Except Fault Unit)} {result : Except Fault α}
    {next : α → Run ω β} (early : RestsOn parts result)
    (late : ∀ a, result = .ok a → RefusedBy others (next a)) :
    RefusedBy (parts ++ others) (liftM result >>= next) := by
  intro fault failed
  rw [verdict_append, ← early] at failed
  cases result with
  | error other =>
      cases failed
      rfl
  | ok a => exact late a rfl fault failed

/-- An operation that begins with a translation is refused by the parts of that. -/
theorem lift_first {parts : List (Except Fault Unit)} {result : Except Fault α}
    (early : RestsOn parts result) (next : α → Run ω β) :
    RefusedBy parts (liftM result >>= next) := by
  have refused := lift_bind early fun a _ => nil (next a)
  rwa [List.append_nil] at refused

theorem demand {holds : Bool} {fault : Fault} {parts : List (Except Fault Unit)}
    {next : Run ω α} (rest : RefusedBy parts next) :
    RefusedBy (TokenTable.demand holds fault :: parts) (if !holds then throw fault else next) := by
  cases holds with
  | false =>
      intro other failed
      cases failed
      rfl
  | true => exact rest

/-- What comes after an operation does not matter to what it is refused by. -/
theorem bind {parts : List (Except Fault Unit)} {first : Run ω α} (early : RefusedBy parts first)
    (next : α → Run ω β) : RefusedBy parts (first >>= next) := by
  intro fault failed
  rw [early fault failed, Run.throw_bind]

end RefusedBy

end TokenTable
