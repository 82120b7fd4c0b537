/-! # Steps that may fail

Laws of sequences of steps each of which may fail. A sequence succeeds exactly when each of its
steps does. Main statements: `bind_eq_ok_iff` and `mapM_cons_eq_ok_iff`. -/

namespace TokenTable

variable {ε α β : Type}

/-- Two steps succeed exactly when the first does and then the second. -/
theorem bind_eq_ok_iff (first : Except ε α) (next : α → Except ε β) (result : β) :
    (first >>= next) = .ok result ↔ ∃ a, first = .ok a ∧ next a = .ok result := by
  cases first with
  | error fault => simp [bind, Except.bind]
  | ok a => simp [bind, Except.bind]

theorem pure_eq_ok_iff (a b : α) : (pure a : Except ε α) = .ok b ↔ a = b := by
  simp [pure, Except.pure]

theorem mapM_cons_eq_ok_iff (step : α → Except ε β) (a : α) (rest : List α) (results : List β) :
    (a :: rest).mapM step = .ok results ↔
      ∃ b others, step a = .ok b ∧ rest.mapM step = .ok others ∧ b :: others = results := by
  simp only [List.mapM_cons, bind_eq_ok_iff, pure_eq_ok_iff]
  constructor
  · rintro ⟨b, first, others, later, same⟩
    exact ⟨b, others, first, later, same⟩
  · rintro ⟨b, others, first, later, same⟩
    exact ⟨b, first, others, later, same⟩

theorem mapM_nil_eq_ok_iff (step : α → Except ε β) (results : List β) :
    [].mapM step = .ok results ↔ results = [] := by
  rw [List.mapM_nil, pure_eq_ok_iff, eq_comm]

end TokenTable
