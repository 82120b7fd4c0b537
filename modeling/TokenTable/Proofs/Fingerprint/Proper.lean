import TokenTable.Proofs.Fingerprint.Plain
import TokenTable.Proofs.Value.Equivalence

/-! # Natives with the same fingerprint

The fingerprint of a proper native is proper (`isProper_fingerprint`): it is made of the names and
payloads of the native. So to have the same fingerprint is a symmetric and transitive relation of
proper natives (`sameMark_symm`, `sameMark_trans`).
-/

namespace TokenTable

open Value

theorem Value.keptByTuples_isProper : KeptByTuples fun v => v.isProper = true :=
  fun items each => (allProper_iff items).mpr each

theorem isProper_numberMark {v mark : Value} (proper : v.isProper = true)
    (done : numberMark v = .ok mark) : mark.isProper = true := by
  unfold numberMark at done
  split at done
  · cases done
  · cases done
    exact proper
  · split at done
    · cases done
      rfl
    · cases done
      exact proper
    · cases done

theorem isProper_payloadMark {name v mark : Value} (proper : v.isProper = true)
    (done : payloadMark name v = .ok mark) : mark.isProper = true := by
  unfold payloadMark at done
  split at done
  · exact isProper_numberMark proper done
  · rename_i items
    obtain ⟨marks, numbers, done⟩ := (bind_eq_ok_iff _ _ _).mp done
    refine keptByTuples_isProper.sorted (fun mark member => ?_) done
    obtain ⟨item, inside, single⟩ := exists_of_mem_mapM numbers member
    exact isProper_numberMark ((allProper_iff items).mp proper item inside) single
  · exact keptByTuples_isProper.sorted ((allProper_iff _).mp proper) done
  · exact keptByTuples_isProper.sorted ((allProper_iff _).mp proper) done
  · cases done
    exact proper
  · cases done
    exact proper

theorem isProper_markOf {name v mark : Value} (proper : v.isProper = true)
    (done : markOf name v = .ok mark) : mark.isProper = true := by
  induction v using induction_parts generalizing name mark with
  | step v ih =>
      cases v with
      | map entries =>
          rw [isProper, Bool.and_eq_true, entriesProper_iff] at proper
          refine keptByTuples_isProper.markOf_map (fun entry member => ?_) done
          have each := proper.1 entry member
          exact ⟨each.1, fun mark => ih _ (mem_parts_map member).2 each.2⟩
      | _ => exact isProper_payloadMark proper done

theorem isProper_fingerprint {native mark : Value} (proper : native.isProper = true)
    (done : fingerprint native = .ok mark) : mark.isProper = true := by
  cases native with
  | map entries => exact isProper_markOf proper (markOf_of_fingerprint .null mark entries done)
  | _ => cases done

/-- Whether both natives have a fingerprint and the fingerprints stand for the same thing. -/
def sameMark (native other : Value) : Bool :=
  match fingerprint native, fingerprint other with
  | .ok mark, .ok markOther => mark.same markOther
  | _, _ => false

theorem sameMark_of_fingerprint {native other mark markOther : Value}
    (done : fingerprint native = .ok mark) (doneOther : fingerprint other = .ok markOther) :
    sameMark native other = mark.same markOther := by
  rw [sameMark, done, doneOther]

theorem sameMark_iff (native other : Value) :
    sameMark native other = true ↔ ∃ mark markOther, fingerprint native = .ok mark ∧
      fingerprint other = .ok markOther ∧ mark.same markOther = true := by
  constructor
  · intro agree
    unfold sameMark at agree
    split at agree
    · rename_i mark markOther done doneOther
      exact ⟨mark, markOther, done, doneOther, agree⟩
    · cases agree
  · rintro ⟨mark, markOther, done, doneOther, agree⟩
    rw [sameMark_of_fingerprint done doneOther, agree]

theorem sameMark_symm {native other : Value} (proper : native.isProper = true)
    (agree : sameMark native other = true) : sameMark other native = true := by
  rw [sameMark_iff] at agree ⊢
  obtain ⟨mark, markOther, done, doneOther, agree⟩ := agree
  exact ⟨markOther, mark, doneOther, done, same_symm (isProper_fingerprint proper done) agree⟩

theorem sameMark_trans {native other last : Value} (first : sameMark native other = true)
    (second : sameMark other last = true) : sameMark native last = true := by
  rw [sameMark_iff] at first second ⊢
  obtain ⟨mark, middle, done, doneMiddle, agree⟩ := first
  obtain ⟨middle', markLast, doneMiddle', doneLast, agreeLast⟩ := second
  rw [doneMiddle] at doneMiddle'
  cases doneMiddle'
  exact ⟨mark, markLast, done, doneLast, same_trans agree agreeLast⟩

end TokenTable
