import TokenTable.Proofs.Fallible
import TokenTable.Proofs.Token

/-! # The grammar of tokens

A strict reading accepts a name alone, or a name with a separator and a tag behind it, and nothing
else. A lenient reading accepts every text that does not begin with a separator: the name is what
stands before the first separator (`Leads`), and where a strict reading refuses the text the kind is
the default one. Main statement: `parse_grammar`.
-/

namespace TokenTable.Token

/-- Whether a value is a text that is not empty and does not begin with a separator. -/
def IsNamed (v : Value) : Prop :=
  ∃ s, v = .text s ∧ s ≠ "" ∧ ¬ separator.toList <+: s.toList

/-- Whether a name is what stands before the first separator of a text: all of the text, or a
beginning with a separator behind it, and no separator begins earlier. -/
structure Leads (name s : String) : Prop where
  cut : s = name ∨ ∃ back, s = name ++ separator ++ back
  first : ∀ front back, s = front ++ separator ++ back → name.length ≤ front.length

/-- No separator begins before the place where a text is cut. -/
theorem length_le_of_cut? {cs front back other behind : List Char}
    (found : cut? cs = some (front, back)) (split : cs = other ++ ':' :: ':' :: behind) :
    front.length ≤ other.length := by
  obtain ⟨whole, first⟩ := (cut?_eq_some_iff cs front back).mp found
  refine Nat.le_of_not_lt fun shorter => ?_
  have early : other ++ separator.toList <+: cs :=
    ⟨behind, by rw [split, separator_toList, List.append_assoc]; rfl⟩
  have late : front ++ [':'] <+: cs := ⟨':' :: back, by rw [whole, List.append_assoc]; rfl⟩
  have within : other ++ separator.toList <+: front ++ [':'] := by
    refine List.prefix_of_prefix_length_le early late ?_
    rw [List.length_append, List.length_append, separator_toList, List.length_cons,
      List.length_singleton]
    omega
  exact first ((List.suffix_append other separator.toList).isInfix.trans within.isInfix)

theorem toList_eq_of_eq {s front back : String} (split : s = front ++ separator ++ back) :
    s.toList = front.toList ++ ':' :: ':' :: back.toList := by
  rw [split, String.toList_append, String.toList_append, List.append_assoc]
  rfl

theorem eq_of_toList_eq {s : String} {front back : List Char}
    (split : s.toList = front ++ ':' :: ':' :: back) :
    s = String.ofList front ++ separator ++ String.ofList back := by
  rw [← String.toList_inj, split, String.toList_append, String.toList_append, List.append_assoc,
    String.toList_ofList, String.toList_ofList]
  rfl

/-- A text that is not cut is its own name. -/
theorem leads_iff_of_uncut {s : String} (uncut : cut? s.toList = none) (name : String) :
    Leads name s ↔ name = s := by
  have absent : ∀ front back, s ≠ front ++ separator ++ back := by
    intro front back split
    refine (cut?_eq_none_iff _).mp uncut ⟨front.toList, back.toList, ?_⟩
    rw [toList_eq_of_eq split, separator_toList, List.append_assoc]
    rfl
  constructor
  · rintro ⟨whole | ⟨back, split⟩, _⟩
    · exact whole.symm
    · exact absurd split (absent name back)
  · rintro rfl
    exact ⟨Or.inl rfl, fun front back split => absurd split (absent front back)⟩

/-- The name of a text that is cut stands in front of the cut. -/
theorem leads_iff_of_cut? {s : String} {front back : List Char}
    (found : cut? s.toList = some (front, back)) (name : String) :
    Leads name s ↔ name = String.ofList front := by
  have split := append_of_cut? s.toList front back found
  constructor
  · rintro ⟨shape, first⟩
    have least := first _ _ (eq_of_toList_eq split)
    rw [String.length_ofList] at least
    rcases shape with rfl | ⟨behind, joined⟩
    · have count := congrArg List.length split
      rw [List.length_append, List.length_cons, String.length_toList] at count
      omega
    · have joined := toList_eq_of_eq joined
      have same : name.toList.length = front.length := by
        refine Nat.le_antisymm ?_ (length_le_of_cut? found joined)
        rwa [String.length_toList]
      rw [← String.toList_inj, String.toList_ofList]
      exact (List.append_inj (joined.symm.trans split) same).1
  · rintro rfl
    refine ⟨Or.inr ⟨String.ofList back, eq_of_toList_eq split⟩, fun other behind joined => ?_⟩
    rw [String.length_ofList, ← String.length_toList]
    exact length_le_of_cut? found (toList_eq_of_eq joined)

/-- A text with something in front of its first separator does not begin with one. -/
theorem not_separator_prefix {cs front back : List Char} (found : cut? cs = some (front, back))
    (proper : front ≠ []) : ¬ separator.toList <+: cs := by
  rintro ⟨behind, same⟩
  have shorter : front.length ≤ ([] : List Char).length := length_le_of_cut? found same.symm
  exact proper (List.length_eq_zero_iff.mp (Nat.le_zero.mp shorter))

/-- Whether a text spells a token: with its name alone under the default kind, or with its tag
behind a separator if its name does not end in half of one. -/
structure Spells (s : String) (token : Token) : Prop where
  proper : token.name ≠ ""
  whole : ¬ separator.toList <:+: token.name.toList
  shape : s = token.name ∧ token.kind = .default ∨
    s = token.name ++ separator ++ token.kind.tag ∧ token.name.toList.getLast? ≠ some ':'

theorem parse_of_uncut (strict : Bool) {s : String} (proper : s ≠ "")
    (uncut : cut? s.toList = none) : parse strict (.text s) = .ok ⟨s, .default⟩ := by
  rw [parse, if_neg proper, parseText, uncut]

/-- A text that spells a token is read as that token, strictly or not. -/
theorem parse_of_spells (strict : Bool) {s : String} {token : Token} (spells : Spells s token) :
    parse strict (.text s) = .ok token := by
  rcases spells.shape with ⟨rfl, plain⟩ | ⟨rfl, apart⟩
  · rw [parse_of_uncut strict spells.proper ((cut?_eq_none_iff _).mpr spells.whole), ← plain]
  · exact parse_tagged strict spells.proper ((not_infix_concat_iff _).mpr ⟨spells.whole, apart⟩)

/-- What becomes of a value that is read, strictly or not. -/
inductive Reading (v : Value) : Prop where
  /-- It has no name. -/
  | nameless (fault : Fault) (sort : fault.category = .validation) (unnamed : ¬ IsNamed v)
    (each : ∀ strict, parse strict v = .error fault)
  /-- It spells a token. -/
  | spelled (s : String) (token : Token) (held : v = .text s) (leads : Leads token.name s)
    (spells : Spells s token)
  /-- It has a name, but what stands behind it is no tag. -/
  | tagless (s name : String) (fault : Fault) (sort : fault.category = .validation)
    (held : v = .text s) (leads : Leads name s) (proper : name ≠ "")
    (each : ∀ strict, parse strict v = fallBack strict fault name)

/-- What becomes of a text is told by what stands on either side of its first separator. -/
theorem reading_of_cut? {s : String} {front back : List Char}
    (found : cut? s.toList = some (front, back)) : Reading (.text s) := by
  obtain ⟨whole, first⟩ := (cut?_eq_some_iff _ _ _).mp found
  have given : s ≠ "" := by
    rintro rfl
    cases found
  have leads := (leads_iff_of_cut? found _).mpr rfl
  by_cases nothing : front = []
  · subst nothing
    refine .nameless (.emptyName s) rfl ?_ fun strict => ?_
    · rintro ⟨_, ⟨⟩, _, apart⟩
      exact apart ⟨back, whole.symm⟩
    · rw [parse, if_neg given, parseText, found]
      rfl
  have proper : String.ofList front ≠ "" := by
    rwa [ne_eq, ← String.toList_eq_nil_iff, String.toList_ofList]
  have some : front.isEmpty = false := List.isEmpty_eq_false_iff.mpr nothing
  cases again : (cut? back).isSome with
  | true =>
      refine .tagless s _ (.extraSeparator s) rfl rfl leads proper fun strict => ?_
      rw [parse, if_neg given, parseText, found]
      simp only [some, again, Bool.false_eq_true, ↓reduceIte]
  | false =>
      cases tagged : Kind.ofTag? (String.ofList back) with
      | none =>
          refine .tagless s _ (.unknownTag s) rfl rfl leads proper fun strict => ?_
          rw [parse, if_neg given, parseText, found]
          simp only [some, again, tagged, Bool.false_eq_true, ↓reduceIte]
      | some kind =>
          rw [not_infix_concat_iff, ← String.toList_ofList (l := front)] at first
          refine .spelled s ⟨String.ofList front, kind⟩ rfl leads ⟨proper, first.1, Or.inr ?_⟩
          rw [(Kind.ofTag?_eq_some_iff _ _).mp tagged]
          exact ⟨eq_of_toList_eq whole, first.2⟩

theorem reading (v : Value) : Reading v := by
  cases v with
  | text s =>
      by_cases empty : s = ""
      · subst empty
        refine .nameless (.emptyToken (.text "")) rfl ?_ fun _ => rfl
        rintro ⟨_, ⟨⟩, given, _⟩
        exact given rfl
      cases found : cut? s.toList with
      | none =>
          have whole := (cut?_eq_none_iff _).mp found
          exact .spelled s ⟨s, .default⟩ rfl ((leads_iff_of_uncut found s).mpr rfl)
            ⟨empty, whole, Or.inl ⟨rfl, rfl⟩⟩
      | some parts => exact reading_of_cut? found
  | _ => exact .nameless (.emptyToken _) rfl (fun ⟨_, same, _⟩ => by cases same) fun _ => rfl

theorem Leads.unique {name other s : String} (first : Leads name s) (second : Leads other s) :
    name = other := by
  cases found : cut? s.toList with
  | none =>
      rw [(leads_iff_of_uncut found name).mp first, (leads_iff_of_uncut found other).mp second]
  | some parts =>
      rw [(leads_iff_of_cut? found name).mp first, (leads_iff_of_cut? found other).mp second]

/-- What has a name in front of its first separator does not begin with one. -/
theorem isNamed_of_leads {name s : String} (leads : Leads name s) (proper : name ≠ "") :
    IsNamed (.text s) := by
  cases found : cut? s.toList with
  | none =>
      obtain rfl := (leads_iff_of_uncut found name).mp leads
      exact ⟨name, rfl, proper, fun ahead => (cut?_eq_none_iff _).mp found ahead.isInfix⟩
  | some parts =>
      obtain rfl := (leads_iff_of_cut? found name).mp leads
      have nonempty : parts.1 ≠ [] := by
        rwa [ne_eq, ← String.toList_eq_nil_iff, String.toList_ofList] at proper
      refine ⟨s, rfl, ?_, not_separator_prefix found nonempty⟩
      rintro rfl
      cases found

theorem failsOnly_parse (strict : Bool) (v : Value) :
    FailsOnly (fun fault => fault.category = .validation) (parse strict v) := by
  cases reading v with
  | nameless fault sort unnamed each =>
      rw [each]
      exact .error sort
  | spelled s token held leads spells =>
      subst held
      rw [parse_of_spells strict spells]
      exact .ok token
  | tagless s name fault sort held leads proper each =>
      rw [each]
      exact .ite (.error sort) (.ok _)

/-- A lenient reading gives a token exactly for what has a name. -/
theorem exists_parse_iff (v : Value) : (∃ token, parse false v = .ok token) ↔ IsNamed v := by
  cases reading v with
  | nameless fault sort unnamed each => simp [each, unnamed]
  | spelled s token held leads spells =>
      subst held
      simp [parse_of_spells false spells, isNamed_of_leads leads spells.proper]
  | tagless s name fault sort held leads proper each =>
      subst held
      simp [each, fallBack, isNamed_of_leads leads proper]

/-- A strict reading gives the token that a text spells. -/
theorem parse_strict_iff (s : String) (token : Token) :
    parse true (.text s) = .ok token ↔ Spells s token := by
  refine ⟨fun read => ?_, parse_of_spells true⟩
  cases reading (.text s) with
  | nameless fault sort unnamed each => simp [each] at read
  | spelled _ other held leads spells =>
      cases held
      rw [parse_of_spells true spells] at read
      cases read
      exact spells
  | tagless _ name fault sort held leads proper each => simp [each, fallBack] at read

/-- A lenient reading refuses what has no name as malformed. -/
theorem exists_refusal_iff (v : Value) :
    (∃ fault, parse false v = .error fault ∧ fault.category = .validation) ↔ ¬ IsNamed v := by
  rw [← exists_parse_iff]
  cases reading v with
  | nameless fault sort unnamed each => simp [each, sort]
  | spelled s token held leads spells =>
      subst held
      simp [parse_of_spells false spells]
  | tagless s name fault sort held leads proper each => simp [each, fallBack]

/-- A lenient reading gives the token of the strict one, or where there is none the name before the
first separator under the default kind. -/
theorem parse_lenient_iff (v : Value) (token : Token) :
    parse false v = .ok token ↔
      ∃ s, v = .text s ∧ Leads token.name s ∧ token.name ≠ "" ∧
        (parse true v = .ok token ∨
          (∃ fault, parse true v = .error fault ∧ fault.category = .validation) ∧
            token.kind = .default) := by
  cases reading v with
  | nameless fault sort unnamed each =>
      rw [each, each]
      constructor
      · intro read
        cases read
      · rintro ⟨s, rfl, leads, proper, _⟩
        exact absurd (isNamed_of_leads leads proper) unnamed
  | spelled s other held leads spells =>
      subst held
      rw [parse_of_spells false spells, parse_of_spells true spells]
      constructor
      · intro read
        cases read
        exact ⟨s, rfl, leads, spells.proper, Or.inl rfl⟩
      · rintro ⟨_, _, _, _, read | ⟨⟨_, refused, _⟩, _⟩⟩
        · exact read
        · cases refused
  | tagless s name fault sort held leads proper each =>
      subst held
      have lenient : parse false (.text s) = .ok ⟨name, .default⟩ := each false
      have strict : parse true (.text s) = .error fault := each true
      rw [lenient, strict]
      constructor
      · intro read
        cases read
        exact ⟨s, rfl, leads, proper, Or.inr ⟨⟨fault, rfl, sort⟩, rfl⟩⟩
      · rintro ⟨_, ⟨⟩, leadsToken, _, read | ⟨_, plain⟩⟩
        · cases read
        · rw [leads.unique leadsToken, ← plain]

/-- **The grammar of tokens.** A strict reading gives a token for exactly the texts that spell it. A
lenient one gives a token for exactly the texts that are not empty and do not begin with a
separator, and refuses all other values. The token's name is what stands before the first separator;
it is the token of the strict reading if there is one, and has the default kind if there is none. -/
theorem parse_grammar :
    (∀ s token, parse true (.text s) = .ok token ↔ Spells s token) ∧
    (∀ v, (∃ token, parse false v = .ok token) ↔ IsNamed v) ∧
    (∀ v, (∃ fault, parse false v = .error fault ∧ fault.category = .validation) ↔ ¬ IsNamed v) ∧
    ∀ v token, parse false v = .ok token ↔
      ∃ s, v = .text s ∧ Leads token.name s ∧ token.name ≠ "" ∧
        (parse true v = .ok token ∨
          (∃ fault, parse true v = .error fault ∧ fault.category = .validation) ∧
            token.kind = .default) := by
  refine ⟨?_, ?_, ?_, ?_⟩
  · exact parse_strict_iff
  · exact exists_parse_iff
  · exact exists_refusal_iff
  · exact parse_lenient_iff

/-- Three colons are cut before the first: the tag behind them is none. -/
example : parse true (.text "Age:::N") = .error (.unknownTag "Age:::N") := rfl

end TokenTable.Token
