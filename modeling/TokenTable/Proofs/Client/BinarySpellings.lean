import TokenTable.Proofs.Client.Conditions
import TokenTable.Update

/-! # Spellings of byte strings

A byte string may be plain, growable or a view. Under a binary kind the form does not matter: a
value, or a list or tuple of values, is encoded alike with each of its byte strings in another form
(`Attribute.encode_eq_of_respelled`). So items and updates do not tell the forms apart, nor does any
condition but one: a view is a sequence of numbers, so it may stand for bounds or members, where
byte strings of other forms are refused. Main statement: `binary_forms_alike`.
-/

namespace TokenTable

/-- Whether two values are one, or byte strings of one content. -/
inductive Value.SameContent : Value → Value → Prop
  | same (v : Value) : SameContent v v
  | bytes (form other : BytesForm) (content : List UInt8) :
      SameContent (.bytes form content) (.bytes other content)

/-- Whether two values differ in the forms of byte strings only: of their own, or of the members of
a list or a tuple. -/
inductive Value.Respelled : Value → Value → Prop
  | single {v w : Value} (same : SameContent v w) : Respelled v w
  | list {vs ws : List Value} (each : List.Forall₂ SameContent vs ws) :
      Respelled (.list vs) (.list ws)
  | tuple {vs ws : List Value} (each : List.Forall₂ SameContent vs ws) :
      Respelled (.tuple vs) (.tuple ws)

/-- Whether two clauses differ in the forms of byte strings only: those of a bare value, or of the
value behind a word. -/
inductive Clause.Respelled : Value → Value → Prop
  | value {v w : Value} (alike : v.Respelled w) : Respelled v w
  | operand (word : Value) {v w : Value} (alike : v.Respelled w) :
      Respelled (.tuple [word, v]) (.tuple [word, w])

/-- Whether a kind is one of the two binary kinds. -/
def Kind.IsBinary (kind : Kind) : Prop := kind = .scalar .binary ∨ kind = .set .binary

theorem Value.isNull_eq_of_respelled {v w : Value} (alike : v.Respelled w) :
    v.isNull = w.isNull := by
  cases alike with
  | single same => cases same <;> rfl
  | list each => rfl
  | tuple each => rfl

namespace Attribute

theorem coerce_eq_of_sameContent {v w : Value} (same : v.SameContent w) :
    coerce .binary v = coerce .binary w := by
  cases same <;> rfl

theorem map_coerce_eq {vs ws : List Value} (each : List.Forall₂ Value.SameContent vs ws) :
    vs.map (coerce .binary) = ws.map (coerce .binary) := by
  induction each with
  | nil => rfl
  | cons same _ ih => rw [List.map_cons, List.map_cons, coerce_eq_of_sameContent same, ih]

theorem elementsOf_eq_of_respelled {v w : Value} (alike : v.Respelled w) :
    elementsOf .binary v = elementsOf .binary w := by
  cases alike with
  | single same => cases same <;> rfl
  | list each => exact map_coerce_eq each
  | tuple each => exact map_coerce_eq each

/-- Under a binary kind the forms of byte strings do not matter. -/
theorem encode_eq_of_respelled {v w : Value} {kind : Kind} (binary : kind.IsBinary)
    (alike : v.Respelled w) : encode v kind = encode w kind := by
  have elements := elementsOf_eq_of_respelled alike
  rcases binary with rfl | rfl
  · cases alike with
    | single same => cases same <;> rfl
    | list each => rfl
    | tuple each => rfl
  · unfold encode
    simp only [Value.isNull_eq_of_respelled alike, elements]

end Attribute

theorem Value.forall₂_sameContent (vs : List Value) : List.Forall₂ SameContent vs vs :=
  List.forall₂_same.mpr fun v _ => .same v

/-- Whether a value is a byte string in the form of a view. -/
def Value.IsView (v : Value) : Prop := ∃ content, v = .bytes .view content

namespace Clause

/-- Clauses that differ in the forms of byte strings only are malformed alike, or mean one word with
values that differ so. -/
theorem split_respelled (defaultWord : String) {clause other : Value}
    (alike : Respelled clause other) :
    (∃ cause, split defaultWord clause = .error cause ∧ split defaultWord other = .error cause) ∨
      ∃ word v w, v.Respelled w ∧ split defaultWord clause = .ok ⟨word, v⟩ ∧
        split defaultWord other = .ok ⟨word, w⟩ := by
  have itself : ∀ clause : Value,
      (∃ cause, split defaultWord clause = .error cause ∧
        split defaultWord clause = .error cause) ∨
      ∃ word v w, v.Respelled w ∧ split defaultWord clause = .ok ⟨word, v⟩ ∧
        split defaultWord clause = .ok ⟨word, w⟩ := by
    intro clause
    cases done : split defaultWord clause with
    | error cause => exact Or.inl ⟨cause, rfl, rfl⟩
    | ok made => exact Or.inr ⟨made.word, made.value, made.value, .single (.same _), rfl, rfl⟩
  have pair : ∀ (word : Value) {v w : Value}, v.Respelled w →
      (∃ cause, split defaultWord (.tuple [word, v]) = .error cause ∧
        split defaultWord (.tuple [word, w]) = .error cause) ∨
      ∃ read v' w', v'.Respelled w' ∧ split defaultWord (.tuple [word, v]) = .ok ⟨read, v'⟩ ∧
        split defaultWord (.tuple [word, w]) = .ok ⟨read, w'⟩ := by
    intro word v w alike
    cases done : readWord word with
    | error cause => exact Or.inl ⟨cause, by rw [split, done]; rfl, by rw [split, done]; rfl⟩
    | ok read =>
        exact Or.inr ⟨read, v, w, alike, by rw [split, done]; rfl, by rw [split, done]; rfl⟩
  cases alike with
  | operand word alike => exact pair word alike
  | value alike =>
      cases alike with
      | single same =>
          cases same with
          | same => exact itself _
          | bytes form other content =>
              exact Or.inr ⟨defaultWord, _, _, .single (.bytes form other content), rfl, rfl⟩
      | list each => exact Or.inr ⟨defaultWord, _, _, .list each, rfl, rfl⟩
      | tuple each =>
          cases each with
          | nil => exact itself _
          | cons first rest =>
              -- a byte string in the place of the word is no text in any form
              cases first with
              | bytes form other content =>
                  cases rest with
                  | nil => exact Or.inl ⟨.wordNotText, rfl, rfl⟩
                  | cons _ rest =>
                      cases rest with
                      | nil => exact Or.inl ⟨.wordNotText, rfl, rfl⟩
                      | cons _ _ => exact Or.inl ⟨.shape, rfl, rfl⟩
              | same =>
                  cases rest with
                  | nil => exact itself _
                  | cons second rest =>
                      cases rest with
                      | nil => exact pair _ (.single second)
                      | cons _ _ => exact Or.inl ⟨.shape, rfl, rfl⟩

end Clause

namespace Condition

/-- Values that differ in the forms of byte strings only are sequences of members that differ so, or
neither is a sequence, unless one of them is a view and the other is not. -/
theorem sequence?_respelled {v w : Value} (alike : v.Respelled w) (views : v.IsView ↔ w.IsView) :
    Option.Rel (List.Forall₂ Value.SameContent) (sequence? v) (sequence? w) := by
  have itself : ∀ found : Option (List Value),
      Option.Rel (List.Forall₂ Value.SameContent) found found := by
    intro found
    cases found with
    | none => exact .none
    | some items => exact .some (Value.forall₂_sameContent items)
  cases alike with
  | list each => exact .some each
  | tuple each => exact .some each
  | single same =>
      cases same with
      | same v => exact itself _
      | bytes form other content =>
          by_cases view : form = .view
          · subst view
            obtain ⟨_, same⟩ := views.mp ⟨content, rfl⟩
            cases same
            exact itself _
          · have other_apart : other ≠ .view := by
              rintro rfl
              obtain ⟨_, same⟩ := views.mpr ⟨content, rfl⟩
              cases same
              exact view rfl
            cases form with
            | view => exact absurd rfl view
            | _ =>
                cases other with
                | view => exact absurd rfl other_apart
                | _ => exact .none

/-- The typed operands are the same in every form of their byte strings, but for a view that stands
for bounds or members. -/
theorem operandsOf_eq_of_respelled (text : String) {kind : Kind} (binary : kind.IsBinary)
    {v w : Value} (alike : v.Respelled w) {op : Operator}
    (views : op = .between ∨ op = .oneOf → (v.IsView ↔ w.IsView)) :
    operandsOf text kind v op = operandsOf text kind w op := by
  have member : ∀ {v w : Value}, v.SameContent w →
      Attribute.encode v kind = Attribute.encode w kind :=
    fun same => Attribute.encode_eq_of_respelled binary (.single same)
  have element : kind.element.IsBinary := by
    rcases binary with rfl | rfl
    · exact Or.inl rfl
    · exact Or.inl rfl
  cases op with
  | between =>
      have sequences := sequence?_respelled alike (views (Or.inl rfl))
      simp only [operandsOf]
      generalize sequence? v = found, sequence? w = other at sequences
      cases sequences with
      | none => rfl
      | some each =>
          cases each with
          | nil => rfl
          | cons low rest =>
              cases rest with
              | nil => rfl
              | cons high rest =>
                  cases rest with
                  | nil => simp only [member low, member high]
                  | cons _ _ => rfl
  | oneOf =>
      have sequences := sequence?_respelled alike (views (Or.inr rfl))
      simp only [operandsOf]
      generalize sequence? v = found, sequence? w = other at sequences
      cases sequences with
      | none => rfl
      | some each => exact mapM_eq_of_forall₂ (each.imp fun _ _ => member)
  | contains => simp only [operandsOf, Attribute.encode_eq_of_respelled element alike]
  | lacks => simp only [operandsOf, Attribute.encode_eq_of_respelled element alike]
  | _ => simp only [operandsOf, Attribute.encode_eq_of_respelled binary alike]

/-- Whether a clause tests for bounds or members, and a view of bytes stands for them. -/
def TestsView (clause : Value) : Prop :=
  ∃ (op : Operator) (content : List UInt8), (op = .between ∨ op = .oneOf) ∧
    Clause.Means Operator.equal.name clause op.name (.bytes .view content)

theorem testsView_iff {clause v : Value} {op : Operator} (tests : op = .between ∨ op = .oneOf)
    (split : Clause.split Operator.equal.name clause = .ok ⟨op.name, v⟩) :
    TestsView clause ↔ v.IsView := by
  constructor
  · rintro ⟨op', content, _, means⟩
    have same := Except.ok.inj (split.symm.trans (Clause.split_of_means means))
    exact ⟨content, (Clause.mk.inj same).2⟩
  · rintro ⟨content, rfl⟩
    exact ⟨op, content, tests, (Clause.split_eq_ok_iff _ _ _).mp split⟩

theorem ofClause_eq_of_respelled (text : String) {kind : Kind} (binary : kind.IsBinary)
    {word : String} {v w : Value} (alike : v.Respelled w)
    (views : ∀ op : Operator, word = op.name → op = .between ∨ op = .oneOf →
      (v.IsView ↔ w.IsView)) :
    ofClause text kind ⟨word, v⟩ = ofClause text kind ⟨word, w⟩ := by
  have nulls : v.isNull = w.isNull := Value.isNull_eq_of_respelled alike
  simp only [ofClause, nulls]
  cases found : Operator.ofName? word with
  | none => rfl
  | some op =>
      have named := (Operator.ofName?_eq_some_iff word op).mp found
      simp only [operandsOf_eq_of_respelled text binary alike (views op named)]

/-- Clauses under a binary kind that differ in the forms of byte strings only make one condition, or
are refused alike, if a view stands for bounds or members in both of them or in neither. -/
theorem ofEntry_eq_of_respelled {token clause other : Value} {parsed : Token}
    (read : Token.parse false token = .ok parsed) (binary : parsed.kind.IsBinary)
    (alike : Clause.Respelled clause other) (views : TestsView clause ↔ TestsView other) :
    ofEntry token clause = ofEntry token other := by
  rcases Clause.split_respelled Operator.equal.name alike with
    ⟨cause, first, second⟩ | ⟨word, v, w, respelled, first, second⟩
  · simp only [ofEntry, first, second]
  · have made : ofClause token.display parsed.kind ⟨word, v⟩ =
        ofClause token.display parsed.kind ⟨word, w⟩ := by
      apply ofClause_eq_of_respelled token.display binary respelled
      rintro op rfl tests
      rw [← testsView_iff tests first, ← testsView_iff tests second]
      exact views
    simp only [ofEntry, read, first, second, Except.mapError, bind, Except.bind, made]

/-- What stands for bounds or members and is sent is a sequence, of two members if for bounds. -/
theorem hasMembers_of_sends {kind : Kind} {op : Operator} {v : Value}
    {sent : List (Value × Kind)} (tests : op = .between ∨ op = .oneOf)
    (sends : Sends kind op v sent) :
    ∃ items, v.HasMembers items ∧ (op = .oneOf ∨ items.length = 2) := by
  cases sends with
  | bounds members => exact ⟨_, members, Or.inr rfl⟩
  | members members => exact ⟨_, members, Or.inl rfl⟩
  | element sets =>
      rcases tests with rfl | rfl
      · exact absurd sets (by decide)
      · exact absurd sets (by decide)
  | whole compares =>
      rcases tests with rfl | rfl
      · exact absurd compares (by decide)
      · exact absurd compares (by decide)

/-- The numbers of a view are sent as its members, and as bounds if there are two. -/
theorem exists_sends_view (kind : Kind) {op : Operator} {content : List UInt8}
    (fits : op = .oneOf ∨ op = .between ∧ content.length = 2) :
    ∃ sent, Sends kind op (.bytes .view content) sent ∧ ∀ pair ∈ sent, pair.2.Takes pair.1 := by
  have number : ∀ b : UInt8, kind.Takes (.int b.toNat) :=
    fun b => ⟨Value.noConfusion, fun e _ => rfl⟩
  rcases fits with rfl | ⟨rfl, two⟩
  · refine ⟨_, .members (.view content), fun pair member => ?_⟩
    rw [List.map_map, List.mem_map] at member
    obtain ⟨b, _, rfl⟩ := member
    exact number b
  · obtain ⟨low, high, rfl⟩ := List.length_eq_two.mp two
    refine ⟨_, .bounds (.view [low, high]), ?_⟩
    simp only [List.forall_mem_cons]
    exact ⟨number low, number high, fun pair member => by cases member⟩

/-- A translated clause with an operator for bounds or members has a sequence as its operand. -/
theorem hasMembers_of_ofEntry {token clause v : Value} {op : Operator}
    {made : String × Condition} (tests : op = .between ∨ op = .oneOf)
    (split : Clause.split Operator.equal.name clause = .ok ⟨op.name, v⟩)
    (done : ofEntry token clause = .ok made) :
    ∃ items, v.HasMembers items ∧ (op = .oneOf ∨ items.length = 2) := by
  obtain ⟨name, condition⟩ := made
  obtain ⟨parsed, word, operand, _, _, means, made⟩ := (ofEntry_eq_ok_iff _ _ _ _).mp done
  have same := Clause.split_of_means means
  rw [split] at same
  cases same
  obtain ⟨op', named, translated⟩ := (ofClause_eq_ok_iff _ _ _ _).mp made
  obtain rfl := Operator.name_injective named
  rcases translated with ⟨alone, _⟩ | ⟨_, sent, _, sends, _⟩
  · have several : op.isNullary = false := by rcases tests with rfl | rfl <;> rfl
    rw [← Operator.isNullary_iff, several] at alone
    cases alone
  · exact hasMembers_of_sends tests sends

/-- Where a view stands for bounds or members, its numbers are sent, and a byte string in another
form is refused. -/
theorem ofEntry_of_testsView {token clause other : Value} {parsed : Token}
    (read : Token.parse false token = .ok parsed) (alike : Clause.Respelled clause other)
    {op : Operator} {content : List UInt8} (tests : op = .between ∨ op = .oneOf)
    (means : Clause.Means Operator.equal.name clause op.name (.bytes .view content))
    (apart : ¬ TestsView other) :
    (∃ fault, ofEntry token other = .error fault) ∧
      ((∃ made, ofEntry token clause = .ok made) ↔ op = .oneOf ∨ content.length = 2) := by
  have split := Clause.split_of_means means
  constructor
  · apply exists_error_of_not_ok
    intro made done
    rcases Clause.split_respelled Operator.equal.name alike with
      ⟨_, refused, _⟩ | ⟨_, _, w, respelled, first, second⟩
    · rw [split] at refused
      cases refused
    · rw [split] at first
      cases first
      obtain ⟨items, members, _⟩ := hasMembers_of_ofEntry tests second done
      cases respelled with
      | single same =>
          cases members with
          | view => exact apart ((testsView_iff tests second).mpr ⟨_, rfl⟩)
          | list => cases same
          | tuple => cases same
  · constructor
    · rintro ⟨made, done⟩
      obtain ⟨items, members, count⟩ := hasMembers_of_ofEntry tests split done
      cases members
      rwa [List.length_map] at count
    · intro fits
      have fits : op = .oneOf ∨ op = .between ∧ content.length = 2 := by
        rcases tests with rfl | rfl
        · exact Or.inr ⟨rfl, fits.resolve_left (by decide)⟩
        · exact Or.inl rfl
      obtain ⟨sent, sends, takes⟩ := exists_sends_view parsed.kind fits
      obtain ⟨operands, encoded⟩ := (exists_encodes_iff sent).mpr takes
      have made := (ofClause_eq_ok_iff token.display parsed.kind ⟨op.name, _⟩ _).mpr
        ⟨op, rfl, Or.inr ⟨fun null => (by cases null), sent, operands, sends, encoded, rfl⟩⟩
      exact ⟨_, (ofEntry_eq_ok_iff _ _ _ _).mpr ⟨parsed, _, _, read, rfl, means, made⟩⟩

end Condition

/-- Whether a value is a token of one of the two binary kinds. -/
def Token.ReadsBinary (v : Value) : Prop :=
  ∃ parsed, parse false v = .ok parsed ∧ parsed.kind.IsBinary

/-- Whether two maps have the same keys in the same order, and under each key the same value, or
under a token of a binary kind values that are alike. -/
def Value.EntriesAlike (alike : Value → Value → Prop) (entries others : Entries) : Prop :=
  List.Forall₂ (fun entry other => entry.1 = other.1 ∧
    (entry.2 = other.2 ∨ Token.ReadsBinary entry.1 ∧ alike entry.2 other.2)) entries others

theorem Item.toNative_eq_of_respelled {entries others : Value.Entries}
    (alike : Value.EntriesAlike Value.Respelled entries others) :
    toNative (.map entries) = toNative (.map others) := by
  have each : List.Forall₂ (fun entry other => ∀ done,
      encodeEntry done entry = encodeEntry done other) entries others := by
    refine alike.imp ?_
    rintro ⟨key, v⟩ ⟨_, w⟩ ⟨rfl, rfl | ⟨⟨parsed, read, binary⟩, respelled⟩⟩ done
    · rfl
    · have nulls := Value.isNull_eq_of_respelled respelled
      have encoded := Attribute.encode_eq_of_respelled binary respelled
      simp only [encodeEntry, read, nulls, bind, Except.bind, encoded]
  simp only [toNative, encode, foldlM_eq_of_forall₂ each]

/-- An update takes a value alike in every form of its byte strings. -/
theorem Update.ofEntry_eq_of_respelled {token clause other : Value} {parsed : Token}
    (read : Token.parse false token = .ok parsed) (binary : parsed.kind.IsBinary)
    (alike : Clause.Respelled clause other) : ofEntry token clause = ofEntry token other := by
  rcases Clause.split_respelled Action.put.name alike with
    ⟨cause, first, second⟩ | ⟨word, v, w, respelled, first, second⟩
  · simp only [ofEntry, first, second]
  · have nulls := Value.isNull_eq_of_respelled respelled
    have encoded := Attribute.encode_eq_of_respelled binary respelled
    have made : ofClause token.display parsed.kind ⟨word, v⟩ =
        ofClause token.display parsed.kind ⟨word, w⟩ := by
      simp only [ofClause, nulls, encoded]
    simp only [ofEntry, read, first, second, Except.mapError, bind, Except.bind, made]

theorem Update.toNativeAll_eq_of_respelled {entries others : Value.Entries}
    (alike : Value.EntriesAlike Clause.Respelled entries others) :
    toNativeAll (.map entries) = toNativeAll (.map others) := by
  have folded : ofEntries (.map entries) = ofEntries (.map others) := by
    refine foldlM_eq_of_forall₂ (alike.imp ?_) []
    rintro ⟨key, v⟩ ⟨_, w⟩ ⟨rfl, rfl | ⟨⟨parsed, read, binary⟩, respelled⟩⟩ done
    · rfl
    · simp only [ofEntry_eq_of_respelled read binary respelled]
  rw [toNativeAll, toNativeAll, folded]

/-- **Byte strings are told apart by their content.** Items and maps of updates that differ in the
forms of byte strings under tokens of a binary kind only are translated to the same native form, or
refused alike; so are conditions, if a view stands for bounds or members in both of them or in
neither. Where it does so in one of them only, the other one is refused, and the one with the view
is translated unless a number of bytes other than two stands for bounds. -/
theorem binary_forms_alike (entries others : Value.Entries) (token clause other : Value) :
    (Value.EntriesAlike Value.Respelled entries others →
      Item.toNative (.map entries) = Item.toNative (.map others)) ∧
    (Value.EntriesAlike Clause.Respelled entries others →
      Update.toNativeAll (.map entries) = Update.toNativeAll (.map others)) ∧
    (Token.ReadsBinary token → Clause.Respelled clause other →
      ((Condition.TestsView clause ↔ Condition.TestsView other) →
        Condition.ofEntry token clause = Condition.ofEntry token other) ∧
      ∀ (op : Operator) (content : List UInt8), op = .between ∨ op = .oneOf →
        Clause.Means Operator.equal.name clause op.name (.bytes .view content) →
          ¬ Condition.TestsView other →
            (∃ fault, Condition.ofEntry token other = .error fault) ∧
              ((∃ made, Condition.ofEntry token clause = .ok made) ↔
                op = .oneOf ∨ content.length = 2)) := by
  refine ⟨Item.toNative_eq_of_respelled, Update.toNativeAll_eq_of_respelled, ?_⟩
  rintro ⟨parsed, read, binary⟩ alike
  refine ⟨Condition.ofEntry_eq_of_respelled read binary alike, ?_⟩
  intro op content tests means apart
  exact Condition.ofEntry_of_testsView read alike tests means apart

/-- An item with a set of byte strings and a byte string, in given forms. -/
def formed (first second third : BytesForm) : Value.Entries :=
  [(.text "d::BS", .list [.bytes first [7], .bytes second [8]]), (.text "e::B", .bytes third [9])]

/-- A clause with a word and a byte string. -/
def worded (word : String) (form : BytesForm) : Value := .tuple [.text word, .bytes form [97, 98]]

theorem respelled_worded (word : String) (form other : BytesForm) :
    Clause.Respelled (worded word form) (worded word other) :=
  .operand (.text word) (.single (.bytes form other [97, 98]))

theorem readsBinary_binary : Token.ReadsBinary (.text "d::B") :=
  ⟨⟨"d", .scalar .binary⟩, rfl, Or.inl rfl⟩

/-- Byte strings in several forms: in an item, in an update that adds to a set, as the operand of a
condition, and as the bounds of one. -/
theorem binary_forms_alike_formed :
    Value.EntriesAlike Value.Respelled (formed .plain .view .growable)
        (formed .growable .plain .view) ∧
      Item.toNative (.map (formed .plain .view .growable)) =
        Item.toNative (.map (formed .growable .plain .view)) ∧
      Value.EntriesAlike Clause.Respelled [(.text "d::B", worded "add" .view)]
        [(.text "d::B", worded "add" .plain)] ∧
      Update.toNativeAll (.map [(.text "d::B", worded "add" .view)]) =
        Update.toNativeAll (.map [(.text "d::B", worded "add" .plain)]) ∧
      Token.ReadsBinary (.text "d::B") ∧
      Clause.Respelled (worded "ne" .view) (worded "ne" .growable) ∧
      (Condition.TestsView (worded "ne" .view) ↔ Condition.TestsView (worded "ne" .growable)) ∧
      Condition.ofEntry (.text "d::B") (worded "ne" .view) =
        Condition.ofEntry (.text "d::B") (worded "ne" .growable) ∧
      Clause.Respelled (worded "in" .view) (worded "in" .plain) ∧
      Clause.Means Operator.equal.name (worded "in" .view) Operator.oneOf.name
        (.bytes .view [97, 98]) ∧
      ¬ Condition.TestsView (worded "in" .plain) ∧
      ∃ fault, Condition.ofEntry (.text "d::B") (worded "in" .plain) = .error fault := by
  have members : Value.EntriesAlike Value.Respelled (formed .plain .view .growable)
      (formed .growable .plain .view) := by
    have set : Token.ReadsBinary (.text "d::BS") := ⟨⟨"d", .set .binary⟩, rfl, Or.inr rfl⟩
    have single : Token.ReadsBinary (.text "e::B") := ⟨⟨"e", .scalar .binary⟩, rfl, Or.inl rfl⟩
    refine .cons ⟨rfl, Or.inr ⟨set, .list ?_⟩⟩ (.cons ⟨rfl, Or.inr ⟨single, ?_⟩⟩ .nil)
    · exact .cons (.bytes _ _ _) (.cons (.bytes _ _ _) .nil)
    · exact .single (.bytes _ _ _)
  have added : Value.EntriesAlike Clause.Respelled [(.text "d::B", worded "add" .view)]
      [(.text "d::B", worded "add" .plain)] :=
    .cons ⟨rfl, Or.inr ⟨readsBinary_binary, respelled_worded _ _ _⟩⟩ .nil
  have no_test : ∀ form, ¬ Condition.TestsView (worded "ne" form) := by
    rintro form ⟨op, content, tests, means⟩
    have split : Clause.split Operator.equal.name (worded "ne" form) =
        .ok ⟨Operator.notEqual.name, .bytes form [97, 98]⟩ := rfl
    have same := Except.ok.inj (split.symm.trans (Clause.split_of_means means))
    obtain rfl := Operator.name_injective (Clause.mk.inj same).1
    exact absurd tests (by decide)
  have apart : ¬ Condition.TestsView (worded "in" .plain) := by
    have split : Clause.split Operator.equal.name (worded "in" .plain) =
        .ok ⟨Operator.oneOf.name, .bytes .plain [97, 98]⟩ := rfl
    rw [Condition.testsView_iff (Or.inr rfl) split]
    rintro ⟨content, ⟨⟩⟩
  have means : Clause.Means Operator.equal.name (worded "in" .view) Operator.oneOf.name
      (.bytes .view [97, 98]) :=
    (Clause.split_eq_ok_iff _ _ ⟨Operator.oneOf.name, _⟩).mp rfl
  have views := iff_of_false (no_test .view) (no_test .growable)
  have items := binary_forms_alike (formed .plain .view .growable) (formed .growable .plain .view)
    (.text "d::B") (worded "ne" .view) (worded "ne" .growable)
  have updates := binary_forms_alike [(.text "d::B", worded "add" .view)]
    [(.text "d::B", worded "add" .plain)] (.text "d::B") (worded "in" .view) (worded "in" .plain)
  have unequal := items.2.2 readsBinary_binary (respelled_worded _ _ _)
  have inside := updates.2.2 readsBinary_binary (respelled_worded _ _ _)
  exact ⟨members, items.1 members, added, updates.2.1 added, readsBinary_binary,
    respelled_worded _ _ _, views, unequal.1 views, respelled_worded _ _ _, means, apart,
    (inside.2 .oneOf _ (Or.inr rfl) means apart).1⟩

/-- Two bytes are refused as bounds, but a view of them is not: its numbers are sent as texts. -/
theorem view_sent_as_numbers :
    Token.ReadsBinary (.text "d::B") ∧
      Clause.Respelled (worded "BETWEEN" .view) (worded "BETWEEN" .plain) ∧
      Condition.ofEntry (.text "d::B") (worded "BETWEEN" .plain) =
        .error (.boundsRequired "d::B") ∧
      Condition.ofEntry (.text "d::B") (worded "BETWEEN" .view) =
        .ok ("d", ⟨.between, some [.scalar .binary (.text "97"), .scalar .binary (.text "98")]⟩) :=
  ⟨readsBinary_binary, respelled_worded _ _ _, rfl, rfl⟩

end TokenTable
