import TokenTable.Number.Decimal.Printer
import TokenTable.Number.Decimal.Reader

/-! # Reading decimals back

What is written of a decimal is read as that decimal, with its coefficient and its exponent, as long
as the exponent is within the widest range and the decimal may be computed with
(`read?_toText`). So two decimals are never written alike.
-/

namespace TokenTable.Decimal

open Text

/-- A decimal whose text is read back: it is within the widest exponent range, and no signaling
diagnostic. -/
def Legible : Decimal → Prop
  | .finite _ c e => leadingExponent c e ≤ exponentLimit ∧ lastPlaceLimit ≤ e
  | .infinite _ => True
  | .nan _ signaling _ => signaling = false

theorem toNat_of_isDigit {c : Char} (digit : c.isDigit = true) : 48 ≤ c.toNat ∧ c.toNat ≤ 57 := by
  rw [Char.isDigit, Bool.and_eq_true, decide_eq_true_eq, decide_eq_true_eq] at digit
  exact ⟨digit.1, digit.2⟩

theorem digitValue?_of_isDigit {c : Char} (digit : c.isDigit = true) :
    digitValue? c = some (c.toNat - 48) := by
  obtain ⟨low, high⟩ := toNat_of_isDigit digit
  have ascii : (fun nought : Nat => decide (nought ≤ c.toNat) && decide (c.toNat < nought + 10))
      48 = true := by
    rw [Bool.and_eq_true, decide_eq_true_eq, decide_eq_true_eq]
    omega
  exact congrArg (Option.map (c.toNat - ·)) (List.find?_cons_of_pos ascii)

/-- Digits in front of what is no digit are read one by one. -/
theorem takeDigits_append_of_isDigit {digits rest : List Char}
    (each : ∀ c ∈ digits, c.isDigit = true) (apart : takeDigits rest = ([], rest)) :
    takeDigits (digits ++ rest) = (digits.map fun c => c.toNat - 48, rest) := by
  induction digits with
  | nil => exact apart
  | cons c digits ih =>
      rw [List.forall_mem_cons] at each
      rw [List.cons_append, takeDigits, digitValue?_of_isDigit each.1, ih each.2]
      rfl

theorem allDigits?_of_isDigit {digits : List Char} (each : ∀ c ∈ digits, c.isDigit = true) :
    allDigits? digits = some (digits.map fun c => c.toNat - 48) := by
  have read := takeDigits_append_of_isDigit each (Eq.refl (takeDigits []))
  rw [List.append_nil] at read
  rw [allDigits?, read]

theorem digitsValue_map (digits : List Char) :
    digitsValue (digits.map fun c => c.toNat - 48) = Nat.ofDigitChars 10 digits 0 := by
  rw [digitsValue, List.foldl_map, Nat.ofDigitChars_eq_foldl]
  simp only [Nat.mul_comm 10, Char.reduceToNat]

theorem isDigit_toDigits (n : Nat) : ∀ c ∈ Nat.toDigits 10 n, c.isDigit = true :=
  fun _ member => Nat.isDigit_of_mem_toDigits (by decide) (by decide) member

section Numeral

variable (negative : Bool) {whole fraction tail : List Char} {e : Int}

/-- Digits without a point, with what is read as an exponent behind them. -/
theorem readUnsigned?_whole (digits : ∀ c ∈ whole, c.isDigit = true) (some : whole ≠ [])
    (apart : takeDigits tail = ([], tail)) (pointless : ∀ rest, tail ≠ '.' :: rest)
    (exponent : exponent? tail = .some e) :
    Numeral.readUnsigned? negative (whole ++ tail) =
      .some ⟨negative, Nat.ofDigitChars 10 whole 0, e⟩ := by
  have given : (whole.map fun c => c.toNat - 48).isEmpty = false := by
    rw [List.isEmpty_eq_false_iff, ne_eq, List.map_eq_nil_iff]
    exact some
  rw [Numeral.readUnsigned?, takeDigits_append_of_isDigit digits apart]
  simp only [given, Bool.false_and, Bool.false_eq_true, ↓reduceIte, exponent,
    Option.map_some, List.append_nil, digitsValue_map, List.length_nil, Int.natCast_zero,
    Int.sub_zero]

/-- Digits with a point among them: those behind it lower the exponent. -/
theorem readUnsigned?_fraction (digits : ∀ c ∈ whole, c.isDigit = true) (some : whole ≠ [])
    (digitsBehind : ∀ c ∈ fraction, c.isDigit = true) (apart : takeDigits tail = ([], tail))
    (exponent : exponent? tail = .some e) :
    Numeral.readUnsigned? negative (whole ++ '.' :: (fraction ++ tail)) =
      .some ⟨negative, Nat.ofDigitChars 10 (whole ++ fraction) 0, e - fraction.length⟩ := by
  have point : takeDigits ('.' :: (fraction ++ tail)) = ([], '.' :: (fraction ++ tail)) := rfl
  have given : (whole.map fun c => c.toNat - 48).isEmpty = false := by
    rw [List.isEmpty_eq_false_iff, ne_eq, List.map_eq_nil_iff]
    exact some
  rw [Numeral.readUnsigned?, takeDigits_append_of_isDigit digits point]
  simp only [takeDigits_append_of_isDigit digitsBehind apart, given, Bool.false_and,
    Bool.false_eq_true, ↓reduceIte, exponent, Option.map_some, ← List.map_append, digitsValue_map,
    List.length_map]

/-- The point that is written among digits is read back. -/
theorem readUnsigned?_withPoint (n places : Nat) (apart : takeDigits tail = ([], tail))
    (pointless : ∀ rest, tail ≠ '.' :: rest) (exponent : exponent? tail = some e) :
    Numeral.readUnsigned? negative (withPoint (Nat.toDigits 10 n) places ++ tail) =
      some ⟨negative, n, e - places⟩ := by
  have digits := isDigit_toDigits n
  have value := Nat.ofDigitChars_ten_toDigits (n := n)
  have given : Nat.toDigits 10 n ≠ [] := Nat.toDigits_ne_nil
  generalize Nat.toDigits 10 n = text at *
  unfold withPoint
  split
  · rename_i none
    subst none
    rw [readUnsigned?_whole negative digits given apart pointless exponent, value,
      Int.natCast_zero, Int.sub_zero]
  split
  · rename_i within
    have front : text.take (text.length - places) ≠ [] := by
      rw [ne_eq, List.take_eq_nil_iff, not_or]
      exact ⟨by omega, given⟩
    have behind : ∀ c ∈ text.drop (text.length - places), c.isDigit = true :=
      fun c member => digits c (List.mem_of_mem_drop member)
    have read := readUnsigned?_fraction negative
      (fun c member => digits c (List.mem_of_mem_take member)) front behind apart exponent
    rw [List.append_assoc, List.cons_append, read, List.take_append_drop, value, List.length_drop]
    congr 3
    omega
  · rename_i beyond
    have zeros : ∀ c ∈ List.replicate (places - text.length) '0' ++ text, c.isDigit = true := by
      intro c member
      rcases List.mem_append.mp member with zero | digit
      · rw [(List.mem_replicate.mp zero).2]
        rfl
      · exact digits c digit
    have single : ∀ c ∈ ['0'], c.isDigit = true := by
      intro c member
      rw [List.mem_singleton.mp member]
      rfl
    have read := readUnsigned?_fraction negative single (List.cons_ne_nil _ _) zeros apart exponent
    rw [Nat.ofDigitChars_append, Nat.ofDigitChars_append, Nat.ofDigitChars_replicate_zero,
      List.length_append, List.length_replicate] at read
    have same : Nat.ofDigitChars 10 ['0'] 0 = 0 := rfl
    rw [same, Nat.mul_zero, value, Nat.sub_add_cancel (by omega)] at read
    rw [List.append_assoc] at read ⊢
    exact read

end Numeral

/-- A character that is neither a blank nor an underscore. -/
def IsSolid (c : Char) : Prop := isBlank c = false ∧ c ≠ '_'

theorem isSolid_of_isDigit {c : Char} (digit : c.isDigit = true) : IsSolid c := by
  obtain ⟨low, high⟩ := toNat_of_isDigit digit
  constructor
  · rw [Bool.eq_false_iff, ne_eq, isBlank, covers_iff]
    rintro ⟨range, member, bounds⟩
    simp only [blankRanges, List.mem_cons, List.not_mem_nil, or_false] at member
    rcases member with rfl | rfl | rfl | rfl | rfl | rfl | rfl | rfl | rfl | rfl <;>
      simp only at bounds <;> omega
  · rintro rfl
    cases digit

theorem trimOf_of_solid {cs : List Char} (solid : ∀ c ∈ cs, IsSolid c) :
    trimOf isBlank cs = cs := by
  have kept : ∀ cs : List Char, (∀ c ∈ cs, IsSolid c) → cs.dropWhile isBlank = cs := by
    intro cs solid
    cases cs with
    | nil => rfl
    | cons c rest =>
        have first := (solid c List.mem_cons_self).1
        exact List.dropWhile_cons_of_neg (by rw [first]; decide)
  rw [trimOf, kept cs solid, kept cs.reverse (by simpa using solid), List.reverse_reverse]

/-- A text of solid characters is read as it stands. -/
theorem read?_of_solid {cs : List Char} (solid : ∀ c ∈ cs, IsSolid c) :
    read? (String.ofList cs) = readUnsigned? (takeSign cs).1 (takeSign cs).2 := by
  have joined : cs.filter (· ≠ '_') = cs :=
    List.filter_eq_self.mpr fun c member => decide_eq_true (solid c member).2
  rw [read?, trim, String.toList_ofList, String.toList_ofList,
    trimOf_of_solid solid, joined]

theorem toLower_of_isDigit {c : Char} (digit : c.isDigit = true) : c.toLower = c := by
  obtain ⟨low, high⟩ := toNat_of_isDigit digit
  have small : ¬ (c.val ≥ 'A'.val ∧ c.val ≤ 'Z'.val) := by
    rintro ⟨upper, _⟩
    have : 65 ≤ c.toNat := upper
    omega
  exact dif_neg small

/-- What begins with a digit is no word that begins with a letter. -/
theorem sameWord_of_isDigit {c w : Char} {rest letters : List Char} {word : String}
    (digit : c.isDigit = true) (spelled : word.toList = w :: letters) (letter : w.isDigit = false) :
    sameWord (c :: rest) word = false := by
  rw [sameWord, spelled, List.map_cons, toLower_of_isDigit digit]
  have apart : c ≠ w := by
    rintro rfl
    rw [letter] at digit
    cases digit
  rw [beq_eq_false_iff_ne, ne_eq, List.cons.injEq, not_and]
  exact fun same => absurd same apart

theorem readUnsigned?_of_isDigit (negative : Bool) {c : Char} {rest : List Char}
    (digit : c.isDigit = true) :
    readUnsigned? negative (c :: rest) =
      (Numeral.readUnsigned? negative (c :: rest)).bind ofNumeral? := by
  have noWord : ∀ (rest : List Char) (word : String) (w : Char) (letters : List Char),
      word.toList = w :: letters → w.isDigit = false → sameWord (c :: rest) word = false :=
    fun _ _ _ _ => sameWord_of_isDigit digit
  rw [readUnsigned?, noWord _ _ _ _ rfl (by decide), noWord _ _ _ _ rfl (by decide),
    List.take_succ_cons, noWord _ _ _ _ rfl (by decide), List.take_succ_cons,
    noWord _ _ _ _ rfl (by decide)]
  rfl

/-- A sign in front of what begins with a digit is read as such. -/
theorem takeSign_signText (negative : Bool) {c : Char} {rest : List Char}
    (digit : c.isDigit = true) :
    takeSign ((signText negative).toList ++ c :: rest) = (negative, c :: rest) := by
  cases negative with
  | true => rfl
  | false =>
      rw [signText, if_neg Bool.false_ne_true]
      show takeSign (c :: rest) = _
      unfold takeSign
      split
      · rename_i same
        cases same
        cases digit
      · rename_i same
        cases same
        cases digit
      · rfl

theorem mem_withPoint {digits : List Char} {places : Nat} {c : Char}
    (member : c ∈ withPoint digits places) : c ∈ digits ∨ c = '.' ∨ c = '0' := by
  unfold withPoint at member
  split at member
  · exact Or.inl member
  split at member
  · rcases List.mem_append.mp member with front | behind
    · exact Or.inl (List.mem_of_mem_take front)
    · rcases List.mem_cons.mp behind with point | behind
      · exact Or.inr (Or.inl point)
      · exact Or.inl (List.mem_of_mem_drop behind)
  · rcases List.mem_append.mp member with front | digit
    · rcases List.mem_append.mp front with front | zero
      · simp only [List.mem_cons, List.not_mem_nil, or_false] at front
        exact Or.inr front.symm
      · exact Or.inr (Or.inr (List.eq_of_mem_replicate zero))
    · exact Or.inl digit

theorem solid_signText (negative : Bool) : ∀ c ∈ (signText negative).toList, IsSolid c := by
  cases negative with
  | true =>
      intro c member
      have single : c = '-' := List.mem_singleton.mp member
      subst single
      exact ⟨by decide, by decide⟩
  | false =>
      intro c member
      cases member

/-- Digits with a point among them begin with a digit. -/
theorem exists_withPoint_eq_cons {digits : List Char} (each : ∀ c ∈ digits, c.isDigit = true)
    (given : digits ≠ []) (places : Nat) :
    ∃ c rest, withPoint digits places = c :: rest ∧ c.isDigit = true := by
  obtain ⟨c, others, rfl⟩ := List.exists_cons_of_ne_nil given
  have first := each c List.mem_cons_self
  unfold withPoint
  split
  · exact ⟨c, others, rfl, first⟩
  split
  · rename_i within
    obtain ⟨more, count⟩ : ∃ more, (c :: others).length - places = more + 1 :=
      ⟨(c :: others).length - places - 1, by omega⟩
    rw [count, List.take_succ_cons]
    exact ⟨c, _, rfl, first⟩
  · exact ⟨'0', _, rfl, rfl⟩

/-- A number text: digits with a point among them, and what is read as an exponent. -/
theorem read?_withPoint (negative : Bool) (n places : Nat) {tail : List Char} {e : Int}
    (solid : ∀ c ∈ tail, IsSolid c) (apart : takeDigits tail = ([], tail))
    (pointless : ∀ rest, tail ≠ '.' :: rest) (exponent : exponent? tail = some e) :
    read? (signText negative ++
      String.ofList (withPoint (Nat.toDigits 10 n) places ++ tail)) =
        ofNumeral? ⟨negative, n, e - places⟩ := by
  have digits := isDigit_toDigits n
  have value := readUnsigned?_withPoint negative n places apart pointless exponent
  obtain ⟨c, rest, body, first⟩ := exists_withPoint_eq_cons digits Nat.toDigits_ne_nil places
  have solidBody : ∀ c ∈ withPoint (Nat.toDigits 10 n) places, IsSolid c := by
    intro c member
    rcases mem_withPoint member with digit | rfl | rfl
    · exact isSolid_of_isDigit (digits c digit)
    · exact ⟨by decide, by decide⟩
    · exact ⟨by decide, by decide⟩
  have whole : signText negative ++ String.ofList (withPoint (Nat.toDigits 10 n) places ++ tail) =
      String.ofList ((signText negative).toList ++
        (withPoint (Nat.toDigits 10 n) places ++ tail)) := by
    rw [← String.toList_inj]
    simp only [String.toList_append, String.toList_ofList]
  rw [whole, read?_of_solid]
  · rw [body, List.cons_append] at value ⊢
    rw [takeSign_signText negative first, readUnsigned?_of_isDigit negative first, value]
    rfl
  · simp only [List.forall_mem_append]
    exact ⟨solid_signText negative, solidBody, solid⟩

theorem exponent?_scientific (lead : Int) :
    exponent? ('E' :: (if lead < 0 then '-' else '+') :: Nat.toDigits 10 lead.natAbs) =
      some lead := by
  have digits := allDigits?_of_isDigit (isDigit_toDigits lead.natAbs)
  have value := digitsValue_map (Nat.toDigits 10 lead.natAbs)
  have given : (Nat.toDigits 10 lead.natAbs).map (fun c => c.toNat - 48) ≠ [] := by
    rw [ne_eq, List.map_eq_nil_iff]
    exact Nat.toDigits_ne_nil
  rw [Nat.ofDigitChars_ten_toDigits] at value
  generalize (Nat.toDigits 10 lead.natAbs).map (fun c => c.toNat - 48) = values at *
  obtain ⟨first, others, rfl⟩ := List.exists_cons_of_ne_nil given
  by_cases below : lead < 0
  · have back : -(lead.natAbs : Int) = lead := by omega
    rw [if_pos below]
    simp only [exponent?, takeSign, digits, value, decide_true, Bool.or_true, ↓reduceIte, back]
  · have back : (lead.natAbs : Int) = lead := by omega
    rw [if_neg below]
    simp only [exponent?, takeSign, digits, value, decide_true, Bool.or_true, ↓reduceIte, back,
      Bool.false_eq_true]

theorem toDigits_shift {c : Nat} (positive : 0 < c) (zeros : Nat) :
    Nat.toDigits 10 (c * 10 ^ zeros) = Nat.toDigits 10 c ++ List.replicate zeros '0' := by
  induction zeros with
  | zero => simp
  | succ zeros ih =>
      have tenfold : c * 10 ^ (zeros + 1) = c * 10 ^ zeros * 10 := by
        rw [Nat.pow_succ, Nat.mul_assoc]
      have some : 0 < c * 10 ^ zeros := Nat.mul_pos positive (Nat.pow_pos (by decide))
      rw [tenfold, Nat.toDigits_of_base_le (by decide) (by omega), Nat.mul_div_cancel _ (by decide),
        Nat.mul_mod_left, ih, List.replicate_succ', List.append_assoc]
      rfl

/-- Plain digits are those of a coefficient with the zeros written out, with a point among them. -/
theorem plainDigits_eq_withPoint (c : Nat) (e : Int) :
    plainDigits c e = withPoint (Nat.toDigits 10 (c * 10 ^ e.toNat)) (-e).toNat := by
  rw [plainDigits]
  split
  · rename_i whole
    have pointless : (-e).toNat = 0 := by omega
    rw [withPoint, if_pos pointless]
    split
    · rename_i nought
      rw [nought, Nat.zero_mul]
    · rename_i positive
      rw [toDigits_shift (Nat.pos_of_ne_zero positive)]
  · rename_i below
    have none : e.toNat = 0 := by omega
    rw [none, Nat.pow_zero, Nat.mul_one]

/-- The plain text of a number is read as that number with its zeros written out. -/
theorem read?_plainDigits (negative : Bool) (c : Nat) (e : Int) :
    read? (signText negative ++ String.ofList (plainDigits c e)) =
      ofNumeral? ⟨negative, c * 10 ^ e.toNat, min e 0⟩ := by
  have solid : ∀ d ∈ ([] : List Char), IsSolid d := fun d member => absurd member List.not_mem_nil
  have absent : exponent? [] = some 0 := rfl
  have read := read?_withPoint negative (c * 10 ^ e.toNat) (-e).toNat solid rfl
    (fun _ same => List.cons_ne_nil _ _ same.symm) absent
  have place : 0 - ((-e).toNat : Int) = min e 0 := by omega
  rw [List.append_nil, ← plainDigits_eq_withPoint, place] at read
  exact read

/-- The usual text of a number is read as that number. -/
theorem read?_finite (negative : Bool) (c : Nat) (e : Int) :
    read? (toText (.finite negative c e)) = ofNumeral? ⟨negative, c, e⟩ := by
  rw [toText]
  split
  · rename_i plain
    rw [Bool.and_eq_true, decide_eq_true_eq] at plain
    rw [read?_plainDigits, Int.toNat_of_nonpos plain.1, Nat.pow_zero, Nat.mul_one,
      Int.min_eq_left plain.1]
  · have digits := isDigit_toDigits (leadingExponent c e).natAbs
    have solid : ∀ d ∈ 'E' :: (if leadingExponent c e < 0 then '-' else '+') ::
        Nat.toDigits 10 (leadingExponent c e).natAbs, IsSolid d := by
      rw [List.forall_mem_cons, List.forall_mem_cons]
      refine ⟨⟨by decide, by decide⟩, ?_, fun d member => isSolid_of_isDigit (digits d member)⟩
      split
      · exact ⟨by decide, by decide⟩
      · exact ⟨by decide, by decide⟩
    have read := read?_withPoint negative c ((Nat.toDigits 10 c).length - 1) solid rfl
      (fun _ same => absurd (List.cons.inj same).1 (by decide))
      (exponent?_scientific (leadingExponent c e))
    have place : leadingExponent c e - ((Nat.toDigits 10 c).length - 1 : Nat) = e := by
      have count : 0 < (Nat.toDigits 10 c).length := Nat.length_toDigits_pos
      rw [leadingExponent, digitCount]
      omega
    rw [place] at read
    exact read

/-- The digits behind the word of a diagnostic are its payload. -/
theorem read?_nanDigits (negative : Bool) {digits : List Char}
    (each : ∀ c ∈ digits, c.isDigit = true) :
    read? (String.ofList ((signText negative).toList ++ 'N' :: 'a' :: 'N' :: digits)) =
      some (.nan negative false (Nat.ofDigitChars 10 digits 0)) := by
  have sign : takeSign ((signText negative).toList ++ 'N' :: 'a' :: 'N' :: digits) =
      (negative, 'N' :: 'a' :: 'N' :: digits) := by
    cases negative with
    | true => rfl
    | false => rfl
  rw [read?_of_solid, sign]
  · have noWord : (sameWord ('N' :: 'a' :: 'N' :: digits) "inf" ||
        sameWord ('N' :: 'a' :: 'N' :: digits) "infinity") = false := rfl
    have word : sameWord (('N' :: 'a' :: 'N' :: digits).take 3) "nan" = true := rfl
    have payload : payload? (('N' :: 'a' :: 'N' :: digits).drop 3) =
        some (Nat.ofDigitChars 10 digits 0) := by
      rw [List.drop_succ_cons, List.drop_succ_cons, List.drop_succ_cons, List.drop_zero, payload?,
        allDigits?_of_isDigit each, Option.map_some, digitsValue_map]
    rw [readUnsigned?, noWord, word, payload]
    rfl
  · simp only [List.forall_mem_append, List.forall_mem_cons]
    refine ⟨solid_signText negative, ?_, ?_, ?_, fun c member => isSolid_of_isDigit (each c member)⟩
    · exact ⟨by decide, by decide⟩
    · exact ⟨by decide, by decide⟩
    · exact ⟨by decide, by decide⟩

/-- A diagnostic that may be computed with is read as itself. -/
theorem read?_nan (negative : Bool) (payload : Nat) :
    read? (toText (.nan negative false payload)) = some (.nan negative false payload) := by
  have whole : toText (.nan negative false payload) = String.ofList ((signText negative).toList ++
      'N' :: 'a' :: 'N' :: if payload = 0 then [] else Nat.toDigits 10 payload) := by
    rw [← String.toList_inj]
    by_cases nought : payload = 0
    · simp [toText, specialText, nought]
    · simp [toText, specialText, nought]
  rw [whole]
  by_cases nought : payload = 0
  · subst nought
    exact read?_nanDigits negative fun c member => absurd member List.not_mem_nil
  · have read := read?_nanDigits negative (isDigit_toDigits payload)
    rw [Nat.ofDigitChars_ten_toDigits] at read
    rw [if_neg nought, read]

/-- **Decimals are read back.** The text of a decimal that is legible is read as that decimal. -/
theorem read?_toText (d : Decimal) (legible : d.Legible) : read? d.toText = some d := by
  cases d with
  | finite negative c e =>
      rw [read?_finite, ofNumeral?, if_pos]
      rw [Bool.and_eq_true, decide_eq_true_eq, decide_eq_true_eq]
      exact legible
  | infinite negative => cases negative <;> decide
  | nan negative signaling payload =>
      obtain rfl : signaling = false := legible
      exact read?_nan negative payload

end TokenTable.Decimal
