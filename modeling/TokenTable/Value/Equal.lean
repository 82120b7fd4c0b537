import TokenTable.Fault

/-! # Comparing values for equality

A comparison goes through two values from left to right and stops at the first difference. A
signaling diagnostic may not be compared with a number, so a comparison that comes upon one fails.
Main statements: `equal_text` and `equalItems_nil`. -/

namespace TokenTable.Value

/-- Whether the value is a diagnostic that may not be computed with. -/
def isSignaling : Value → Bool
  | .decimal (.nan _ true _) => true
  | _ => false

/-- Whether one value is a signaling diagnostic and the other a number or a diagnostic. -/
def signals (v w : Value) : Bool :=
  (v.isSignaling && w.number?.isSome) || (w.isSignaling && v.number?.isSome)

def equalWhole (v w : Value) : Except Fault Bool :=
  if signals v w then .error .notNumeric else .ok (same v w)

mutual

/-- Whether two values stand for the same thing. -/
def equal : Value → Value → Except Fault Bool
  | .list items, .list items' =>
    if items.length = items'.length then equalItems items items' else .ok false
  | .tuple items, .tuple items' => equalItems items items'
  | .map entries, .map entries' =>
    if entries.length = entries'.length then equalEntries entries entries' else .ok false
  | v, w => equalWhole v w
termination_by structural v => v

/-- Whether two lists agree position by position; their lengths are compared last. -/
def equalItems : List Value → List Value → Except Fault Bool
  | [], [] => .ok true
  | v :: rest, w :: rest' => do if ← equal v w then equalItems rest rest' else return false
  | _, _ => .ok false
termination_by structural vs => vs

/-- Whether a map holds every entry of another. -/
def equalEntries : List (Value × Value) → List (Value × Value) → Except Fault Bool
  | [], _ => .ok true
  | (k, v) :: rest, entries =>
    match entries.find? fun entry => same entry.1 k with
    | none => .ok false
    | some found => do if ← equal v found.2 then equalEntries rest entries else return false
termination_by structural entries => entries

end

@[simp] theorem equal_text (s t : String) : equal (.text s) (.text t) = .ok (decide (s = t)) := by
  have whole : same (.text s) (.text t) = decide (s = t) := by
    rw [Bool.eq_iff_iff, same_text_iff, decide_eq_true_iff]
  simp [equal, equalWhole, signals, isSignaling, whole]

theorem equal_int_zero (n : Int) : equal (.int n) (.int 0) = .ok (decide (n = 0)) := by
  have whole : same (.int n) (.int 0) = decide (n = 0) := by
    by_cases nought : n = 0
    · subst nought
      decide
    · obtain ⟨m, size⟩ := Nat.exists_eq_succ_of_ne_zero (Int.natAbs_ne_zero.mpr nought)
      simp only [same, sameAtom, number?, Decimal.ofInt, Decimal.sameValue, Decimal.compare?, size,
        nought, Int.natAbs_zero, Decimal.compareFinite]
      split <;> simp_all
  simp [equal, equalWhole, signals, isSignaling, whole]

@[simp] theorem equalItems_nil : equalItems [] [] = .ok true := rfl

end TokenTable.Value
