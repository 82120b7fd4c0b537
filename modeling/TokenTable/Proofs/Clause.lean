import TokenTable.Clause
import TokenTable.Proofs.Fallible

/-! # What clauses mean

A bare value means the default word with that value, and a tuple of a text and an optional value
means the text as a word, without blanks around it and in upper case, with the value or with null.
Every other tuple is malformed. Main statement: `split_eq_ok_iff`.
-/

namespace TokenTable

/-- Things are found by their names, if the first that is found under the name of each is itself. -/
theorem find?_name_eq_some_iff {α : Type} {all : List α} {name : α → String}
    (itself : ∀ a, all.find? (name · == name a) = some a) (word : String) (a : α) :
    all.find? (name · == word) = some a ↔ word = name a := by
  constructor
  · intro found
    have same := List.find?_some found
    exact (beq_iff_eq.mp same).symm
  · rintro rfl
    exact itself a

namespace Clause

/-- Whether a clause means a word with a value. -/
inductive Means (defaultWord : String) : Value → String → Value → Prop
  | bare {v : Value} (single : ∀ members, v ≠ .tuple members) : Means defaultWord v defaultWord v
  | alone (s : String) :
      Means defaultWord (.tuple [.text s]) (Text.upper (Text.trim s)) .null
  | pair (s : String) (v : Value) :
      Means defaultWord (.tuple [.text s, v]) (Text.upper (Text.trim s)) v

theorem readWord_eq_ok_iff (v : Value) (word : String) :
    readWord v = .ok word ↔ ∃ s, v = .text s ∧ word = Text.upper (Text.trim s) := by
  cases v with
  | text s => simp [readWord, eq_comm]
  | _ => simp [readWord]

theorem split_of_means {defaultWord word : String} {v value : Value}
    (means : Means defaultWord v word value) : split defaultWord v = .ok ⟨word, value⟩ := by
  induction means with
  | bare single => exact split_of_not_tuple _ _ single
  | alone s =>
      rw [split, readWord]
      rfl
  | pair s v =>
      rw [split, readWord]
      rfl

/-- A clause is split into the word and the value that it means. -/
theorem split_eq_ok_iff (defaultWord : String) (v : Value) (clause : Clause) :
    split defaultWord v = .ok clause ↔ Means defaultWord v clause.word clause.value := by
  refine ⟨fun done => ?_, split_of_means⟩
  unfold split at done
  split at done
  · obtain ⟨word, read, same⟩ := (bind_eq_ok_iff _ _ _).mp done
    obtain ⟨s, rfl, spelled⟩ := (readWord_eq_ok_iff _ _).mp read
    rw [pure_eq_ok_iff, spelled] at same
    rw [← same]
    exact .alone s
  · obtain ⟨word, read, same⟩ := (bind_eq_ok_iff _ _ _).mp done
    obtain ⟨s, rfl, spelled⟩ := (readWord_eq_ok_iff _ _).mp read
    rw [pure_eq_ok_iff, spelled] at same
    rw [← same]
    exact .pair s _
  · cases done
  · rename_i single
    cases done
    exact .bare single

end Clause

end TokenTable
