import TokenTable.Fallible
import TokenTable.Token

/-! # Reading tokens back

What stands before the first separator of a text holds no separator, and does not end in half of
one either: otherwise the cut would have come earlier (`cut?_eq_some_iff`). So the text of a token
is read back as that token exactly when its name fits (`parse_toText_iff`), and only such tokens
are ever read (`fits_of_parse`).
-/

namespace TokenTable.Token

/-- Whether a name comes back from the text of its token: it is not empty and holds no separator,
and if a tag is to follow, it does not end in half a separator. -/
structure Fits (token : Token) : Prop where
  proper : token.name ≠ ""
  whole : ¬ separator.toList <:+: token.name.toList
  apart : token.name.toList.getLast? = some ':' → token.kind = .default

theorem separator_toList : separator.toList = [':', ':'] := rfl

/-- A text is not cut exactly when it holds no separator. -/
theorem cut?_eq_none_iff (cs : List Char) : cut? cs = none ↔ ¬ separator.toList <:+: cs := by
  rw [separator_toList]
  fun_induction cut? cs with
  | case1 => simp
  | case2 rest =>
      have here : [':', ':'] <:+: ':' :: ':' :: rest := ⟨[], rest, rfl⟩
      simp [here]
  | case3 c rest other ih =>
      have notFirst : ¬ [':', ':'] <+: c :: rest := by
        rintro ⟨after, same⟩
        cases same
        exact other after rfl rfl
      rw [Option.map_eq_none_iff, ih, List.infix_cons_iff]
      simp [notFirst]

/-- Characters hold no separator, also with half a separator behind them, exactly when they hold
none and do not end in half of one. -/
theorem not_infix_concat_iff (cs : List Char) :
    ¬ separator.toList <:+: cs ++ [':'] ↔
      ¬ separator.toList <:+: cs ∧ cs.getLast? ≠ some ':' := by
  have half : separator.toList <:+ cs ++ [':'] ↔ cs.getLast? = some ':' := by
    have split : separator.toList = [':'] ++ [':'] := rfl
    rw [split, List.suffix_append_self_iff, List.singleton_suffix_iff_getLast?_eq_some]
  rw [List.infix_concat_iff, half, not_or, and_comm]

/-- A text is cut where its first separator begins: what stands before holds none, also with half
a separator behind it. -/
theorem cut?_eq_some_iff (cs front back : List Char) :
    cut? cs = some (front, back) ↔
      cs = front ++ ':' :: ':' :: back ∧ ¬ separator.toList <:+: front ++ [':'] := by
  constructor
  · intro found
    refine ⟨append_of_cut? cs front back found, ?_⟩
    rw [separator_toList]
    fun_induction cut? cs generalizing front with
    | case1 => cases found
    | case2 rest =>
        cases found
        simp [List.infix_cons_iff]
    | case3 c rest other ih =>
        obtain ⟨parts, cut, same⟩ := Option.map_eq_some_iff.mp found
        cases same
        have later := ih parts.1 cut
        have rest_eq := append_of_cut? rest parts.1 parts.2 cut
        rw [List.cons_append, List.infix_cons_iff, not_or]
        refine ⟨?_, later⟩
        -- were the first two characters colons, the text would be cut before them
        intro early
        have wider : [':', ':'] <+: c :: rest := by
          refine early.trans ⟨':' :: parts.2, ?_⟩
          rw [rest_eq, List.cons_append, List.append_assoc]
          rfl
        obtain ⟨after, same⟩ := wider
        cases same
        exact other after rfl rfl
  · rintro ⟨rfl, first⟩
    rw [separator_toList] at first
    induction front with
    | nil => rfl
    | cons c front ih =>
        rw [List.cons_append, List.infix_cons_iff, not_or] at first
        rw [List.cons_append, cut?, ih first.2]
        · rfl
        · rintro after rfl same
          refine first.1 ?_
          cases front with
          | nil => exact ⟨[], rfl⟩
          | cons d front =>
              cases same
              exact ⟨front ++ [':'], rfl⟩

theorem eq_of_fallBack {strict : Bool} {fault : Fault} {name : String} {token : Token}
    (read : fallBack strict fault name = .ok token) : token = ⟨name, .default⟩ := by
  unfold fallBack at read
  split at read
  · cases read
  · cases read
    rfl

/-- What a cut leaves in front fits as a name under any kind, unless it is empty. -/
theorem fits_of_cut? {cs front back : List Char} (found : cut? cs = some (front, back))
    (proper : front.isEmpty = false) (kind : Kind) : Fits ⟨String.ofList front, kind⟩ := by
  obtain ⟨_, first⟩ := (cut?_eq_some_iff cs front back).mp found
  rw [not_infix_concat_iff] at first
  constructor
  · intro empty
    rw [← String.toList_eq_nil_iff, String.toList_ofList] at empty
    subst empty
    cases proper
  · rw [String.toList_ofList]
    exact first.1
  · rw [String.toList_ofList]
    exact fun half => absurd half first.2

/-- **Names fit their kinds.** Whatever is read as a token has a name that comes back from the
token's text. -/
theorem fits_of_parse {strict : Bool} {v : Value} {token : Token}
    (read : parse strict v = .ok token) : token.Fits := by
  cases v with
  | text s =>
      by_cases empty : s = ""
      · rw [parse, if_pos empty] at read
        cases read
      rw [parse, if_neg empty, parseText] at read
      split at read
      · rename_i uncut
        cases read
        exact ⟨empty, (cut?_eq_none_iff _).mp uncut, fun _ => rfl⟩
      · rename_i front back found
        cases proper : front.isEmpty with
        | true =>
            simp only [proper, ↓reduceIte] at read
            cases read
        | false =>
            have fits := fits_of_cut? found proper
            simp only [proper, Bool.false_eq_true, ↓reduceIte] at read
            split at read
            · rw [eq_of_fallBack read]
              exact fits .default
            · split at read
              · cases read
                exact fits _
              · rw [eq_of_fallBack read]
                exact fits .default
  | _ => cases read

/-- A tag behind a separator is read if the name holds no separator, also with half of one behind
it. -/
theorem parse_tagged (strict : Bool) {name : String} {kind : Kind} (proper : name ≠ "")
    (first : ¬ separator.toList <:+: name.toList ++ [':']) :
    parse strict (.text (name ++ separator ++ kind.tag)) = .ok ⟨name, kind⟩ := by
  have tagged : (name ++ separator ++ kind.tag).toList =
      name.toList ++ ':' :: ':' :: kind.tag.toList := by
    rw [String.toList_append, String.toList_append, List.append_assoc]
    rfl
  have found := (cut?_eq_some_iff _ _ _).mpr ⟨tagged, first⟩
  have whole : name ++ separator ++ kind.tag ≠ "" := by
    rw [ne_eq, ← String.toList_eq_nil_iff, tagged]
    simp
  have given : name.toList.isEmpty = false := by
    rw [List.isEmpty_eq_false_iff, ne_eq, String.toList_eq_nil_iff]
    exact proper
  have short : (cut? kind.tag.toList).isSome = false := by
    rcases kind with e | e <;> cases e <;> rfl
  rw [parse, if_neg whole, parseText, found]
  simp only [given, short, Bool.false_eq_true, ↓reduceIte, String.ofList_toList, Kind.ofTag?_tag]

/-- The text of a token is read back as that token exactly when its name fits. -/
theorem parse_toText_iff (strict : Bool) (token : Token) :
    parse strict (.text token.toText) = .ok token ↔ token.Fits := by
  constructor
  · exact fits_of_parse
  · intro fits
    have uncut := (cut?_eq_none_iff _).mpr fits.whole
    by_cases plain : token.kind = .default
    · have bare : token.toText = token.name := if_pos plain
      rw [bare, parse, if_neg fits.proper, parseText, uncut, ← plain]
    · have first : ¬ separator.toList <:+: token.name.toList ++ [':'] :=
        (not_infix_concat_iff _).mpr ⟨fits.whole, fun half => plain (fits.apart half)⟩
      rw [toText, if_neg plain, parse_tagged strict fits.proper first]

/-- Tokens whose names fit are told apart by their texts. -/
theorem eq_of_toText_eq {token other : Token} (fits : token.Fits) (fitsOther : other.Fits)
    (same : token.toText = other.toText) : token = other := by
  have read := (parse_toText_iff false token).mpr fits
  rw [same, (parse_toText_iff false other).mpr fitsOther] at read
  exact (Except.ok.inj read).symm

end TokenTable.Token
