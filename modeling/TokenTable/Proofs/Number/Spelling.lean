import TokenTable.Proofs.Number.Normal
import TokenTable.Proofs.Number.Readback

/-! # Number texts in normal spelling

A text that spells a number is respelled by the number's normal form; other texts are kept. The
normal form can be read back, so two texts are respelled alike exactly when their numbers have one
normal form (`respelled_eq_iff`), and for short numbers exactly when they are equal numbers
(`sameNormal_iff_sameNumber`). The plain text of a normal form spells it too
(`normalOf?_toPlain`).
-/

namespace TokenTable.Decimal

/-- A normal form may be written and read again. -/
theorem legible_of_isNormal {d : Decimal} (isNormal : d.IsNormal) : d.Legible := by
  cases d with
  | finite n c e =>
      rcases isNormal with ⟨rfl, rfl⟩ | ⟨_, _, place, lead⟩
      · exact ⟨by decide, by decide⟩
      · exact ⟨Int.le_trans lead (by decide), Int.le_trans (by decide) place⟩
  | infinite n => trivial
  | nan n signaling payload => exact isNormal.1

/-- The normal form of the number that a text spells, if there is one. -/
def normalOf? (s : String) : Option Decimal := (read? s).bind fun d => d.normal.toOption

/-- A text in normal spelling; what spells no number is kept. -/
def respelled (s : String) : String := ((normalOf? s).map toText).getD s

/-- Whether a text does not spell a number that is too great for a normal form. -/
def InRange (s : String) : Prop := ∀ d, read? s = some d → d.normal ≠ .error .overflow

/-- Whether two texts spell numbers with one normal form, or are one text without a number. -/
def SameNormal (s t : String) : Prop :=
  normalOf? s = normalOf? t ∧ (normalOf? s = none → s = t)

/-- Whether two texts spell one number: finite ones are compared by their exact values. -/
def SameNumber (s t : String) : Prop :=
  match read? s, read? t with
  | some (.finite n c e), some (.finite n' c' e') => exactValue n c e = exactValue n' c' e'
  | some (.infinite n), some (.infinite n') => n = n'
  | some (.nan n false p), some (.nan n' false p') =>
    n = n' ∧ p % 10 ^ precision = p' % 10 ^ precision
  | _, _ => s = t

/-- Whether the finite number that a text spells, if any, is short. -/
def ShortText (s : String) : Prop := ∀ n c e, read? s = some (.finite n c e) → Short n c e

theorem isNormal_of_normalOf? {s : String} {d : Decimal} (found : normalOf? s = some d) :
    d.IsNormal := by
  obtain ⟨spelled, _, normal⟩ := Option.bind_eq_some_iff.mp found
  cases done : spelled.normal with
  | error cause =>
      rw [done] at normal
      cases normal
  | ok normalized =>
      rw [done] at normal
      cases normal
      exact isNormal_of_normal done

theorem legible_of_normalOf? {s : String} {d : Decimal} (found : normalOf? s = some d) :
    d.Legible :=
  legible_of_isNormal (isNormal_of_normalOf? found)

/-- Only a signaling diagnostic may not be brought to normal form. -/
theorem not_legible_of_invalid {d : Decimal} (invalid : d.normal = .error .invalid) :
    ¬ d.Legible := by
  cases d with
  | finite n c e =>
      rw [normal] at invalid
      split at invalid
      · cases invalid
      split at invalid
      · cases invalid
      simp only at invalid
      split at invalid
      · cases invalid
      split at invalid
      · cases invalid
      · cases invalid
  | infinite n => cases invalid
  | nan n signaling p =>
      rintro (rfl : signaling = false)
      cases invalid

/-- What is written of a normal form is no text that is kept for lack of one. -/
theorem toText_ne_of_normalOf? {s t : String} {d : Decimal} (found : normalOf? s = some d)
    (inRange : InRange t) (none : normalOf? t = none) : d.toText ≠ t := by
  rintro rfl
  have legible := legible_of_normalOf? found
  have read := read?_toText d legible
  rw [normalOf?, read, Option.bind_some] at none
  cases done : d.normal with
  | ok normalized =>
      rw [done] at none
      cases none
  | error cause =>
      cases cause with
      | overflow => exact inRange d read done
      | invalid => exact not_legible_of_invalid done legible

theorem toText_injective_of_normalOf? {s t : String} {d d' : Decimal}
    (found : normalOf? s = some d) (found' : normalOf? t = some d')
    (same : d.toText = d'.toText) : d = d' := by
  have read := read?_toText d (legible_of_normalOf? found)
  rw [same, read?_toText d' (legible_of_normalOf? found')] at read
  exact (Option.some.inj read).symm

/-- Texts are respelled alike exactly when their numbers have one normal form. -/
theorem respelled_eq_iff {s t : String} (inRange : InRange s) (inRangeOther : InRange t) :
    respelled s = respelled t ↔ SameNormal s t := by
  rw [respelled, respelled, SameNormal]
  cases first : normalOf? s with
  | none =>
      cases second : normalOf? t with
      | none => simp
      | some d =>
          have apart := (toText_ne_of_normalOf? second inRange first).symm
          simpa using apart
  | some d =>
      cases second : normalOf? t with
      | none =>
          have apart := toText_ne_of_normalOf? first inRangeOther second
          simpa using apart
      | some d' =>
          have injective : d.toText = d'.toText ↔ d = d' :=
            ⟨toText_injective_of_normalOf? first second, congrArg toText⟩
          simpa using injective

theorem normalOf?_of_read? {s : String} {d : Decimal} (read : read? s = some d) :
    normalOf? s = d.normal.toOption := by
  rw [normalOf?, read, Option.bind_some]

/-- What can be said of short texts by the kinds of their numbers. -/
inductive Spells (s : String) : Prop where
  | finite {n : Bool} {c c' : Nat} {e e' : Int} (read : read? s = some (.finite n c e))
    (found : normalOf? s = some (.finite n c' e')) (reduced : Reduced n c' e')
    (same : exactValue n c' e' = exactValue n c e)
  | infinite {n : Bool} (read : read? s = some (.infinite n))
    (found : normalOf? s = some (.infinite n))
  | diagnostic {n : Bool} {p : Nat} (read : read? s = some (.nan n false p))
    (found : normalOf? s = some (.nan n false (p % 10 ^ precision)))
  | signaling {n : Bool} {p : Nat} (read : read? s = some (.nan n true p))
    (kept : normalOf? s = none)
  | other (read : read? s = none) (kept : normalOf? s = none)

theorem spells {s : String} (inRange : InRange s) (short : ShortText s) : Spells s := by
  cases read : read? s with
  | none => exact .other read (by rw [normalOf?, read, Option.bind_none])
  | some d =>
      have found := normalOf?_of_read? read
      cases d with
      | finite n c e =>
          obtain ⟨c', e', normal, reduced, same⟩ :=
            exists_normal_of_short (short n c e read) (inRange _ read)
          rw [normal] at found
          exact .finite read found reduced same
      | infinite n => exact .infinite read found
      | nan n signaling p =>
          cases signaling with
          | false => exact .diagnostic read found
          | true => exact .signaling read found

/-- Short texts are respelled alike exactly when they spell one number. -/
theorem sameNormal_iff_sameNumber {s t : String} (inRange : InRange s) (inRangeOther : InRange t)
    (short : ShortText s) (shortOther : ShortText t) : SameNormal s t ↔ SameNumber s t := by
  have apart : read? s ≠ read? t → s ≠ t := mt (congrArg read?)
  rw [SameNormal, SameNumber]
  cases spells inRange short with
  | finite read found reduced same =>
      cases spells inRangeOther shortOther with
      | finite read' found' reduced' same' =>
          rw [read, read', found, found']
          constructor
          · rintro ⟨alike, _⟩
            cases alike
            exact same.symm.trans same'
          · intro equal
            obtain ⟨rfl, rfl, rfl⟩ :=
              eq_of_reduced reduced reduced' (same.trans (equal.trans same'.symm))
            exact ⟨rfl, fun none => absurd none (Option.some_ne_none _)⟩
      | _ read' found' =>
          rw [read, read'] at apart
          simpa [read, read', found, found'] using apart
  | infinite read found =>
      cases spells inRangeOther shortOther with
      | infinite read' found' => simp [read, read', found, found']
      | _ read' found' =>
          rw [read, read'] at apart
          simpa [read, read', found, found'] using apart
  | diagnostic read found =>
      cases spells inRangeOther shortOther with
      | diagnostic read' found' => simp [read, read', found, found']
      | _ read' found' =>
          rw [read, read'] at apart
          simpa [read, read', found, found'] using apart
  | signaling read kept =>
      cases spells inRangeOther shortOther with
      | signaling read' kept' => simp [read, read', kept, kept']
      | other read' kept' => simp [read, read', kept, kept']
      | _ read' found' =>
          rw [read, read'] at apart
          simpa [read, read', kept, found'] using apart
  | other read kept =>
      cases spells inRangeOther shortOther with
      | signaling read' kept' => simp [read, read', kept, kept']
      | other read' kept' => simp [read, read', kept, kept']
      | _ read' found' =>
          rw [read, read'] at apart
          simpa [read, read', kept, found'] using apart

/-- The plain text of a normal form is read as that number with its zeros written out. -/
theorem read?_toPlain {n : Bool} {c : Nat} {e : Int} (isNormal : (finite n c e).IsNormal) :
    read? (toPlain (.finite n c e)) = some (.finite n (c * 10 ^ e.toNat) (min e 0)) := by
  have within : leadingExponent (c * 10 ^ e.toNat) (min e 0) ≤ exponentLimit ∧
      lastPlaceLimit ≤ min e 0 := by
    rcases isNormal with ⟨rfl, rfl⟩ | ⟨odd, _, place, lead⟩
    · decide
    · have back : min e 0 + (e.toNat : Int) = e := by omega
      rw [leadingExponent_shift (by omega), back, exponentLimit, lastPlaceLimit]
      rw [maxExponent] at lead
      rw [minPlace, precision] at place
      omega
  rw [toPlain, read?_plainDigits, ofNumeral?, if_pos]
  rw [Bool.and_eq_true, decide_eq_true_eq, decide_eq_true_eq]
  exact within

/-- A normal form is found again in its plain text. -/
theorem normalOf?_toPlain_of_isNormal {d : Decimal} (isNormal : d.IsNormal) :
    normalOf? d.toPlain = some d := by
  cases d with
  | finite n c e =>
      rw [normalOf?_of_read? (read?_toPlain isNormal), normal_of_isNormal isNormal]
      rfl
  | infinite n => exact normalOf?_of_read? (read?_toText (.infinite n) trivial)
  | nan n signaling payload =>
      obtain ⟨rfl, short⟩ : signaling = false ∧ payload < 10 ^ precision := isNormal
      have normal : (nan n false payload).normal = .ok (.nan n false (payload % 10 ^ precision)) :=
        rfl
      rw [Nat.mod_eq_of_lt short] at normal
      have again := normalOf?_of_read? (read?_toText (.nan n false payload) rfl)
      rw [normal] at again
      exact again

theorem normalOf?_toPlain {s : String} {d : Decimal} (found : normalOf? s = some d) :
    normalOf? d.toPlain = some d :=
  normalOf?_toPlain_of_isNormal (isNormal_of_normalOf? found)

end TokenTable.Decimal
