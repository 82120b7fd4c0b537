import TokenTable.Condition
import TokenTable.Proofs.Clause
import TokenTable.Proofs.Item.Encoding
import TokenTable.Proofs.Token.Grammar

/-! # The grammar of conditions

An operator sends no value, or the bounds, the members or the whole of its operand, each under the
kind of the attribute or, where a set is tested for one element, under the kind of its elements
(`Condition.Sends`). A condition is translated exactly when its token has a name, its clause means
an operator with an operand that fits, and each of the values can be sent. Main statement:
`ofEntry_grammar`.
-/

namespace TokenTable

/-- The members of a value that is a sequence: a list, a tuple, or a view of bytes, whose members
are numbers. -/
inductive Value.HasMembers : Value → List Value → Prop
  | list (items : List Value) : HasMembers (.list items) items
  | tuple (items : List Value) : HasMembers (.tuple items) items
  | view (content : List UInt8) :
      HasMembers (.bytes .view content) (content.map fun b => .int b.toNat)

theorem Operator.ofName?_eq_some_iff (word : String) (op : Operator) :
    ofName? word = some op ↔ word = op.name :=
  find?_name_eq_some_iff ofName?_name word op

theorem Operator.name_injective : Function.Injective name := by
  intro op other same
  have found := ofName?_name op
  rw [same, ofName?_name] at found
  exact (Option.some.inj found).symm

theorem Operator.isNullary_iff (op : Operator) :
    op.isNullary = true ↔ op = .absent ∨ op = .present := by
  cases op <;> decide

namespace Condition

/-- The operators that compare an attribute with the whole of an operand under its own kind. -/
def comparisons : List Operator :=
  [.equal, .notEqual, .atMost, .less, .atLeast, .greater, .beginsWith]

/-- The values that an operator sends for an operand, each with the kind that it is sent under. -/
inductive Sends (kind : Kind) : Operator → Value → List (Value × Kind) → Prop
  | bounds {operand low high : Value} (members : operand.HasMembers [low, high]) :
      Sends kind .between operand [(low, kind), (high, kind)]
  | members {operand : Value} {items : List Value} (members : operand.HasMembers items) :
      Sends kind .oneOf operand (items.map fun item => (item, kind))
  | element {op : Operator} {operand : Value} (tests : op = .contains ∨ op = .lacks) :
      Sends kind op operand [(operand, kind.element)]
  | whole {op : Operator} {operand : Value} (compares : op ∈ comparisons) :
      Sends kind op operand [(operand, kind)]

/-- The native form of an operator with an operand: it lists what is sent, in order, unless the
operator takes no operand. -/
inductive Native (kind : Kind) : Operator → Value → Value → Prop
  | nullary {op : Operator} (alone : op = .absent ∨ op = .present) :
      Native kind op .null (.record [("ComparisonOperator", .text op.name)])
  | comparing {op : Operator} {operand : Value} {sent : List (Value × Kind)}
      {natives : List Value} (given : operand ≠ .null) (sends : Sends kind op operand sent)
      (encoded : List.Forall₂ (fun pair native => ∃ typed,
        Attribute.encode pair.1 pair.2 = .ok typed ∧ typed.toNative = native) sent natives) :
      Native kind op operand (.record [("ComparisonOperator", .text op.name),
        ("AttributeValueList", .list natives)])

theorem sequence?_eq_some_iff (v : Value) (items : List Value) :
    sequence? v = some items ↔ v.HasMembers items := by
  constructor
  · intro found
    unfold sequence? at found
    split at found
    · cases found
      exact .list items
    · cases found
      exact .tuple items
    · cases found
      exact .view _
    · cases found
  · intro members
    cases members <;> rfl

/-- Whether values are encoded, each under its own kind. -/
def Encodes (sent : List (Value × Kind)) (operands : List Attribute) : Prop :=
  List.Forall₂ (fun pair typed => Attribute.encode pair.1 pair.2 = .ok typed) sent operands

theorem single_eq_ok_iff (v : Value) (kind : Kind) (operands : List Attribute) :
    (do return [← Attribute.encode v kind] : Except Fault (List Attribute)) = .ok operands ↔
      Encodes [(v, kind)] operands := by
  simp only [Encodes, bind_eq_ok_iff, pure_eq_ok_iff, List.forall₂_cons_left_iff,
    List.forall₂_nil_left_iff]
  constructor
  · rintro ⟨typed, encoded, rfl⟩
    exact ⟨typed, [], encoded, rfl, rfl⟩
  · rintro ⟨typed, _, encoded, rfl, rfl⟩
    exact ⟨typed, encoded, rfl⟩

theorem pair_eq_ok_iff (low high : Value) (kind : Kind) (operands : List Attribute) :
    (do return [← Attribute.encode low kind, ← Attribute.encode high kind] :
        Except Fault (List Attribute)) = .ok operands ↔
      Encodes [(low, kind), (high, kind)] operands := by
  simp only [Encodes, bind_eq_ok_iff, pure_eq_ok_iff, List.forall₂_cons_left_iff,
    List.forall₂_nil_left_iff]
  constructor
  · rintro ⟨lowest, encodedLow, highest, encodedHigh, rfl⟩
    exact ⟨lowest, _, encodedLow, ⟨highest, [], encodedHigh, rfl, rfl⟩, rfl⟩
  · rintro ⟨lowest, _, encodedLow, ⟨highest, _, encodedHigh, rfl, rfl⟩, rfl⟩
    exact ⟨lowest, encodedLow, highest, encodedHigh, rfl⟩

theorem members_eq_ok_iff (items : List Value) (kind : Kind) (operands : List Attribute) :
    (items.mapM fun item => Attribute.encode item kind) = .ok operands ↔
      Encodes (items.map fun item => (item, kind)) operands := by
  rw [Encodes, List.forall₂_map_left_iff]
  exact ⟨forall₂_of_mapM, mapM_of_forall₂⟩

theorem bounds_eq_ok_iff (text : String) (kind : Kind) (operand : Value)
    (operands : List Attribute) :
    operandsOf text kind operand .between = .ok operands ↔
      ∃ low high, operand.HasMembers [low, high] ∧
        Encodes [(low, kind), (high, kind)] operands := by
  simp only [operandsOf, ← sequence?_eq_some_iff, ← pair_eq_ok_iff]
  constructor
  · intro done
    split at done
    · rename_i low high members
      exact ⟨low, high, members, done⟩
    · cases done
  · rintro ⟨low, high, members, done⟩
    rw [members]
    exact done

/-- The typed operands of an operator are what it sends, encoded one by one. -/
theorem operandsOf_eq_ok_iff (text : String) (kind : Kind) (operand : Value) {op : Operator}
    (several : op.isNullary = false) (operands : List Attribute) :
    operandsOf text kind operand op = .ok operands ↔
      ∃ sent, Sends kind op operand sent ∧ Encodes sent operands := by
  constructor
  · intro done
    cases op with
    | absent => cases several
    | present => cases several
    | between =>
        obtain ⟨low, high, members, encoded⟩ := (bounds_eq_ok_iff _ _ _ _).mp done
        exact ⟨_, .bounds members, encoded⟩
    | oneOf =>
        simp only [operandsOf] at done
        split at done
        · rename_i items members
          rw [sequence?_eq_some_iff] at members
          exact ⟨_, .members members, (members_eq_ok_iff _ _ _).mp done⟩
        · cases done
    | contains => exact ⟨_, .element (Or.inl rfl), (single_eq_ok_iff _ _ _).mp done⟩
    | lacks => exact ⟨_, .element (Or.inr rfl), (single_eq_ok_iff _ _ _).mp done⟩
    | _ => exact ⟨_, .whole (by decide), (single_eq_ok_iff _ _ _).mp done⟩
  · rintro ⟨sent, sends, encoded⟩
    cases sends with
    | bounds members => exact (bounds_eq_ok_iff _ _ _ _).mpr ⟨_, _, members, encoded⟩
    | members members =>
        simp only [operandsOf, (sequence?_eq_some_iff _ _).mpr members]
        exact (members_eq_ok_iff _ _ _).mpr encoded
    | element tests =>
        have single := (single_eq_ok_iff _ _ _).mpr encoded
        rcases tests with rfl | rfl
        · exact single
        · exact single
    | whole compares =>
        have single := (single_eq_ok_iff _ _ _).mpr encoded
        simp only [comparisons, List.mem_cons, List.not_mem_nil, or_false] at compares
        rcases compares with rfl | rfl | rfl | rfl | rfl | rfl | rfl <;> exact single

/-- What sends something is not nullary. -/
theorem Sends.isNullary {kind : Kind} {op : Operator} {operand : Value}
    {sent : List (Value × Kind)} (sends : Sends kind op operand sent) : op.isNullary = false := by
  cases sends with
  | bounds => rfl
  | members => rfl
  | element tests => rcases tests with rfl | rfl <;> rfl
  | whole compares => exact (by decide : ∀ op ∈ comparisons, op.isNullary = false) op compares

/-- A word and a value are a condition in two ways: with an operator that stands alone, or with the
operands that are sent. -/
theorem ofClause_eq_ok_iff (text : String) (kind : Kind) (clause : Clause)
    (condition : Condition) :
    ofClause text kind clause = .ok condition ↔
      ∃ op, clause.word = op.name ∧
        ((op = .absent ∨ op = .present) ∧ clause.value = .null ∧ condition = ⟨op, none⟩ ∨
          clause.value ≠ .null ∧ ∃ sent operands, Sends kind op clause.value sent ∧
            Encodes sent operands ∧ condition = ⟨op, some operands⟩) := by
  obtain ⟨word, value⟩ := clause
  constructor
  · intro done
    unfold ofClause at done
    split at done
    · cases done
    rename_i op found
    refine ⟨op, (Operator.ofName?_eq_some_iff _ _).mp found, ?_⟩
    cases alone : op.isNullary with
    | true =>
        simp only [alone, ↓reduceIte] at done
        split at done
        · rename_i null
          cases done
          exact Or.inl ⟨(Operator.isNullary_iff op).mp alone, (Value.isNull_iff value).mp null, rfl⟩
        · cases done
    | false =>
        simp only [alone, Bool.false_eq_true, ↓reduceIte] at done
        split at done
        · cases done
        · rename_i given
          obtain ⟨operands, made, same⟩ := (bind_eq_ok_iff _ _ _).mp done
          obtain ⟨sent, sends, encoded⟩ := (operandsOf_eq_ok_iff _ _ _ alone _).mp made
          cases same
          exact Or.inr ⟨mt (Value.isNull_iff value).mpr given, sent, operands, sends, encoded, rfl⟩
  · rintro ⟨op, rfl, ⟨alone, rfl, rfl⟩ | ⟨given, sent, operands, sends, encoded, rfl⟩⟩
    · rw [ofClause, Operator.ofName?_name]
      simp only [(Operator.isNullary_iff op).mpr alone, Value.isNull, ↓reduceIte]
    · have several := sends.isNullary
      have made := (operandsOf_eq_ok_iff text kind value several operands).mpr
        ⟨sent, sends, encoded⟩
      rw [ofClause, Operator.ofName?_name]
      simp only [several, mt (Value.isNull_iff value).mp given, Bool.false_eq_true, ↓reduceIte]
      exact (bind_eq_ok_iff _ _ _).mpr ⟨operands, made, rfl⟩

theorem ofEntry_eq_ok_iff (token clause : Value) (name : String) (condition : Condition) :
    ofEntry token clause = .ok (name, condition) ↔
      ∃ parsed word operand, Token.parse false token = .ok parsed ∧ name = parsed.name ∧
        Clause.Means Operator.equal.name clause word operand ∧
        ofClause token.display parsed.kind ⟨word, operand⟩ = .ok condition := by
  constructor
  · intro done
    obtain ⟨parsed, read, done⟩ := (bind_eq_ok_iff _ _ _).mp done
    obtain ⟨⟨word, operand⟩, split, done⟩ := (bind_eq_ok_iff _ _ _).mp done
    obtain ⟨condition, made, same⟩ := (bind_eq_ok_iff _ _ _).mp done
    cases same
    have means := (Clause.split_eq_ok_iff _ _ _).mp ((mapError_eq_ok_iff _ _ _).mp split)
    exact ⟨parsed, word, operand, read, rfl, means, made⟩
  · rintro ⟨parsed, word, operand, read, rfl, means, made⟩
    have split := (mapError_eq_ok_iff (malformed token.display) _ _).mpr
      (Clause.split_of_means means)
    refine (bind_eq_ok_iff _ _ _).mpr ⟨parsed, read, ?_⟩
    refine (bind_eq_ok_iff _ _ _).mpr ⟨_, split, ?_⟩
    exact (bind_eq_ok_iff _ _ _).mpr ⟨condition, made, rfl⟩

/-- Whether a token and a clause make a condition: the token has a name, and the clause means an
operator that takes the operand and can send what it makes of it. -/
structure Accepts (token clause : Value) (parsed : Token) (op : Operator) (operand : Value) :
    Prop where
  named : Token.IsNamed token
  read : Token.parse false token = .ok parsed
  means : Clause.Means Operator.equal.name clause op.name operand
  given : operand = .null ↔ op = .absent ∨ op = .present
  sendable : operand ≠ .null → ∃ sent, Sends parsed.kind op operand sent ∧
    ∀ pair ∈ sent, pair.2.Takes pair.1

/-- Values can be encoded exactly when each of them can be sent under its kind. -/
theorem exists_encodes_iff (sent : List (Value × Kind)) :
    (∃ operands, Encodes sent operands) ↔ ∀ pair ∈ sent, pair.2.Takes pair.1 := by
  constructor
  · rintro ⟨operands, encoded⟩ pair member
    obtain ⟨typed, _, done⟩ := exists_of_mem_forall₂ encoded.flip pair member
    exact (Attribute.exists_encode_iff _ _).mp ⟨typed, done⟩
  · intro takes
    exact exists_forall₂ fun pair member =>
      (Attribute.exists_encode_iff _ _).mpr (takes pair member)

/-- The native forms of what is sent are those of the typed operands. -/
theorem natives_iff (sent : List (Value × Kind)) (natives : List Value) :
    List.Forall₂ (fun pair native => ∃ typed,
        Attribute.encode pair.1 pair.2 = .ok typed ∧ typed.toNative = native) sent natives ↔
      ∃ operands, Encodes sent operands ∧ operands.map Attribute.toNative = natives :=
  forall₂_read_iff Attribute.toNative sent natives

/-- The native forms of conditions are those of an operator with an operand that it takes. -/
theorem native_iff (kind : Kind) (op : Operator) (operand native : Value) :
    Native kind op operand native ↔
      ∃ condition : Condition, condition.toNative = native ∧
        ((op = .absent ∨ op = .present) ∧ operand = .null ∧ condition = ⟨op, none⟩ ∨
          operand ≠ .null ∧ ∃ sent operands, Sends kind op operand sent ∧
            Encodes sent operands ∧ condition = ⟨op, some operands⟩) := by
  constructor
  · intro native
    cases native with
    | nullary alone => exact ⟨⟨op, none⟩, rfl, Or.inl ⟨alone, rfl, rfl⟩⟩
    | comparing given sends encoded =>
        obtain ⟨operands, encodes, rfl⟩ := (natives_iff _ _).mp encoded
        exact ⟨⟨op, some operands⟩, rfl, Or.inr ⟨given, _, operands, sends, encodes, rfl⟩⟩
  · rintro ⟨condition, rfl, ⟨alone, rfl, rfl⟩ | ⟨given, sent, operands, sends, encoded, rfl⟩⟩
    · exact .nullary alone
    · exact .comparing given sends ((natives_iff _ _).mpr ⟨operands, encoded, rfl⟩)

theorem failsOnly_operandsOf (text : String) (kind : Kind) (operand : Value) (op : Operator) :
    FailsOnly (fun fault => fault.category = .invalidOperand)
      (operandsOf text kind operand op) := by
  have encoding := Attribute.failsOnly_encode
  have alone : ∀ kind : Kind, FailsOnly (fun fault => fault.category = .invalidOperand)
      (do return [← Attribute.encode operand kind]) :=
    fun kind => (encoding operand kind).bind fun _ => .pure _
  cases op with
  | between =>
      simp only [operandsOf]
      split
      · exact (encoding _ _).bind fun _ => (encoding _ _).bind fun _ => .pure _
      · exact .error rfl
  | oneOf =>
      simp only [operandsOf]
      split
      · exact .mapM fun item _ => encoding item kind
      · exact .error rfl
  | contains => exact alone kind.element
  | lacks => exact alone kind.element
  | _ => exact alone kind

/-- What a condition fails with tells that its token or its clause is malformed. -/
theorem failsOnly_ofEntry (token clause : Value) :
    FailsOnly (fun fault => fault.category = .validation ∨ fault.category = .invalidOperand)
      (ofEntry token clause) := by
  refine ((Token.failsOnly_parse false token).mono fun _ => Or.inl).bind fun parsed => ?_
  refine FailsOnly.bind ?_ fun split => ?_
  · cases done : Clause.split Operator.equal.name clause with
    | ok split => exact .ok split
    | error cause =>
        cases cause with
        | shape => exact .error (Or.inr rfl)
        | wordNotText => exact .error (Or.inl rfl)
  refine FailsOnly.bind ?_ fun condition => .pure _
  unfold ofClause
  split
  · exact .error (Or.inl rfl)
  refine .ite (.ite (.ok _) (.error (Or.inr rfl))) (.ite (.error (Or.inr rfl)) ?_)
  exact ((failsOnly_operandsOf _ _ _ _).mono fun _ => Or.inr).bind fun operands => .pure _

/-- What makes a condition is told by the token, the clause and the operand. -/
theorem exists_ofEntry_iff (token clause : Value) :
    (∃ made, ofEntry token clause = .ok made) ↔
      ∃ parsed op operand, Accepts token clause parsed op operand := by
  constructor
  · rintro ⟨⟨name, condition⟩, done⟩
    obtain ⟨parsed, word, operand, read, rfl, means, made⟩ :=
      (ofEntry_eq_ok_iff _ _ _ _).mp done
    obtain ⟨op, rfl, ⟨alone, rfl, _⟩ | ⟨given, sent, operands, sends, encoded, _⟩⟩ :=
      (ofClause_eq_ok_iff _ _ _ _).mp made
    · exact ⟨parsed, op, .null, (Token.exists_parse_iff token).mp ⟨parsed, read⟩, read, means,
        by simp [alone], fun given => absurd rfl given⟩
    · have several := sends.isNullary
      refine ⟨parsed, op, operand, (Token.exists_parse_iff token).mp ⟨parsed, read⟩, read, means,
        ?_, fun _ => ⟨sent, sends, (exists_encodes_iff sent).mp ⟨operands, encoded⟩⟩⟩
      rw [← Operator.isNullary_iff, several]
      simp [given]
  · rintro ⟨parsed, op, operand, accepts⟩
    have condition : ∃ condition,
        ofClause token.display parsed.kind ⟨op.name, operand⟩ = .ok condition := by
      by_cases null : operand = .null
      · exact ⟨_, (ofClause_eq_ok_iff _ _ _ _).mpr
          ⟨op, rfl, Or.inl ⟨accepts.given.mp null, null, rfl⟩⟩⟩
      · obtain ⟨sent, sends, takes⟩ := accepts.sendable null
        obtain ⟨operands, encoded⟩ := (exists_encodes_iff sent).mpr takes
        exact ⟨_, (ofClause_eq_ok_iff _ _ _ _).mpr
          ⟨op, rfl, Or.inr ⟨null, sent, operands, sends, encoded, rfl⟩⟩⟩
    obtain ⟨condition, made⟩ := condition
    exact ⟨(parsed.name, condition), (ofEntry_eq_ok_iff _ _ _ _).mpr
      ⟨parsed, _, operand, accepts.read, rfl, accepts.means, made⟩⟩

/-- A condition is what its operator lists for the operand, under the token's name. -/
theorem ofEntry_native_iff (token clause : Value) (name : String) (native : Value) :
    (∃ condition, ofEntry token clause = .ok (name, condition) ∧ condition.toNative = native) ↔
      ∃ parsed op operand, Token.parse false token = .ok parsed ∧ name = parsed.name ∧
        Clause.Means Operator.equal.name clause op.name operand ∧
        Native parsed.kind op operand native := by
  constructor
  · rintro ⟨condition, done, same⟩
    obtain ⟨parsed, word, operand, read, named, means, made⟩ :=
      (ofEntry_eq_ok_iff _ _ _ _).mp done
    obtain ⟨op, rfl, made⟩ := (ofClause_eq_ok_iff _ _ _ _).mp made
    exact ⟨parsed, op, operand, read, named, means,
      (native_iff _ _ _ _).mpr ⟨condition, same, made⟩⟩
  · rintro ⟨parsed, op, operand, read, named, means, native⟩
    obtain ⟨condition, same, made⟩ := (native_iff _ _ _ _).mp native
    have whole := (ofClause_eq_ok_iff token.display parsed.kind ⟨op.name, operand⟩ condition).mpr
      ⟨op, rfl, made⟩
    exact ⟨condition, (ofEntry_eq_ok_iff _ _ _ _).mpr
      ⟨parsed, _, operand, read, named, means, whole⟩, same⟩

/-- **The grammar of conditions.** A token and a clause make a condition exactly when the token has
a name, and the clause means an operator that takes the operand and can send what it makes of it;
otherwise they are refused as malformed. The condition has the token's name, and its native form
lists what the operator sends, in order and under the kinds that it is sent under, unless the
operator takes no operand. -/
theorem ofEntry_grammar (token clause : Value) :
    ((∃ made, ofEntry token clause = .ok made) ↔
        ∃ parsed op operand, Accepts token clause parsed op operand) ∧
      (∀ name native, (∃ condition, ofEntry token clause = .ok (name, condition) ∧
          condition.toNative = native) ↔
        ∃ parsed op operand, Token.parse false token = .ok parsed ∧ name = parsed.name ∧
          Clause.Means Operator.equal.name clause op.name operand ∧
          Native parsed.kind op operand native) ∧
      FailsOnly (fun fault => fault.category = .validation ∨ fault.category = .invalidOperand)
        (ofEntry token clause) := by
  refine ⟨?_, ?_, ?_⟩
  · exact exists_ofEntry_iff token clause
  · exact ofEntry_native_iff token clause
  · exact failsOnly_ofEntry token clause

end Condition

end TokenTable
