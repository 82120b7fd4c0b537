import TokenTable.Proofs.Clause
import TokenTable.Proofs.Client.Clauses
import TokenTable.Proofs.Item.Encoding
import TokenTable.Proofs.Token.Grammar

/-! # The grammar of updates

An update is made of a token with a name and a clause that means an action with a value which the
token's kind takes; only a deletion may go without a value (`Update.Accepts`). Where no two tokens
are read as one name, the updates of a map are translated exactly when each of them is accepted, and
each is sent under the name of its own token. Main statement: `toNativeAll_grammar`.
-/

namespace TokenTable

theorem Action.ofName?_eq_some_iff (word : String) (action : Action) :
    ofName? word = some action ↔ word = action.name :=
  find?_name_eq_some_iff ofName?_name word action

namespace Update

/-- Whether a token and a clause make an update: the token has a name, and the clause means an
action with a value that the token's kind takes, or a deletion without one. -/
structure Accepts (token clause : Value) (parsed : Token) (action : Action) (value : Value) :
    Prop where
  named : Token.IsNamed token
  read : Token.parse false token = .ok parsed
  means : Clause.Means Action.put.name clause action.name value
  given : value = .null → action = .delete
  takes : value ≠ .null → parsed.kind.Takes value

/-- The native form of an action with a value: it shows the value as it is encoded, unless there is
none. -/
inductive Native (kind : Kind) (action : Action) : Value → Value → Prop
  | bare : Native kind action .null (.record [("Action", .text action.name)])
  | carrying {value : Value} {typed : Attribute} (given : value ≠ .null)
      (encoded : Attribute.encode value kind = .ok typed) :
      Native kind action value
        (.record [("Action", .text action.name), ("Value", typed.toNative)])

/-- A word and a value are an update in two ways: a deletion without a value, or an action with a
value that is encoded. -/
theorem ofClause_eq_ok_iff (text : String) (kind : Kind) (clause : Clause) (update : Update) :
    ofClause text kind clause = .ok update ↔
      ∃ action, clause.word = action.name ∧
        (clause.value = .null ∧ action = .delete ∧ update = ⟨action, none⟩ ∨
          clause.value ≠ .null ∧ ∃ typed, Attribute.encode clause.value kind = .ok typed ∧
            update = ⟨action, some typed⟩) := by
  obtain ⟨word, value⟩ := clause
  constructor
  · intro done
    unfold ofClause at done
    split at done
    · cases done
    rename_i action found
    refine ⟨action, (Action.ofName?_eq_some_iff _ _).mp found, ?_⟩
    split at done
    · rename_i null
      split at done
      · rename_i deletes
        cases done
        exact Or.inl ⟨(Value.isNull_iff value).mp null, deletes, rfl⟩
      · cases done
    · rename_i given
      obtain ⟨typed, encoded, same⟩ := (bind_eq_ok_iff _ _ _).mp done
      cases same
      exact Or.inr ⟨mt (Value.isNull_iff value).mpr given, typed, encoded, rfl⟩
  · rintro ⟨action, rfl, ⟨rfl, rfl, rfl⟩ | ⟨given, typed, encoded, rfl⟩⟩
    · rfl
    · rw [ofClause, Action.ofName?_name]
      simp only [mt (Value.isNull_iff value).mp given, Bool.false_eq_true, ↓reduceIte]
      exact (bind_eq_ok_iff _ _ _).mpr ⟨typed, encoded, rfl⟩

theorem ofEntry_eq_ok_iff (token clause : Value) (name : String) (update : Update) :
    ofEntry token clause = .ok (name, update) ↔
      ∃ parsed word value, Token.parse false token = .ok parsed ∧ name = parsed.name ∧
        Clause.Means Action.put.name clause word value ∧
        ofClause token.display parsed.kind ⟨word, value⟩ = .ok update := by
  constructor
  · intro done
    obtain ⟨parsed, read, done⟩ := (bind_eq_ok_iff _ _ _).mp done
    obtain ⟨⟨word, value⟩, split, done⟩ := (bind_eq_ok_iff _ _ _).mp done
    obtain ⟨update, made, same⟩ := (bind_eq_ok_iff _ _ _).mp done
    cases same
    have means := (Clause.split_eq_ok_iff _ _ _).mp ((mapError_eq_ok_iff _ _ _).mp split)
    exact ⟨parsed, word, value, read, rfl, means, made⟩
  · rintro ⟨parsed, word, value, read, rfl, means, made⟩
    have split := (mapError_eq_ok_iff (malformed token.display) _ _).mpr
      (Clause.split_of_means means)
    refine (bind_eq_ok_iff _ _ _).mpr ⟨parsed, read, ?_⟩
    refine (bind_eq_ok_iff _ _ _).mpr ⟨_, split, ?_⟩
    exact (bind_eq_ok_iff _ _ _).mpr ⟨update, made, rfl⟩

/-- A native form is made of a token and a clause if they are accepted and it shows their action and
their value. -/
theorem ofEntry_native_iff (token clause : Value) (name : String) (native : Value) :
    (∃ update, ofEntry token clause = .ok (name, update) ∧ update.toNative = native) ↔
      ∃ parsed action value, Accepts token clause parsed action value ∧ name = parsed.name ∧
        Native parsed.kind action value native := by
  constructor
  · rintro ⟨update, done, rfl⟩
    obtain ⟨parsed, word, value, read, rfl, means, made⟩ := (ofEntry_eq_ok_iff _ _ _ _).mp done
    have named := (Token.exists_parse_iff token).mp ⟨parsed, read⟩
    obtain ⟨action, rfl, ⟨rfl, deletes, rfl⟩ | ⟨given, typed, encoded, rfl⟩⟩ :=
      (ofClause_eq_ok_iff _ _ _ _).mp made
    · exact ⟨parsed, action, .null,
        ⟨named, read, means, fun _ => deletes, fun given => absurd rfl given⟩, rfl, .bare⟩
    · have takes := (Attribute.exists_encode_iff value parsed.kind).mp ⟨typed, encoded⟩
      exact ⟨parsed, action, value,
        ⟨named, read, means, fun null => absurd null given, fun _ => takes⟩, rfl,
        .carrying given encoded⟩
  · rintro ⟨parsed, action, value, accepts, rfl, native⟩
    cases native with
    | bare =>
        have made := (ofClause_eq_ok_iff token.display parsed.kind ⟨action.name, .null⟩ _).mpr
          ⟨action, rfl, Or.inl ⟨rfl, accepts.given rfl, rfl⟩⟩
        exact ⟨_, (ofEntry_eq_ok_iff _ _ _ _).mpr
          ⟨parsed, _, _, accepts.read, rfl, accepts.means, made⟩, rfl⟩
    | @carrying _ typed given encoded =>
        have made := (ofClause_eq_ok_iff token.display parsed.kind ⟨action.name, value⟩ _).mpr
          ⟨action, rfl, Or.inr ⟨given, typed, encoded, rfl⟩⟩
        exact ⟨_, (ofEntry_eq_ok_iff _ _ _ _).mpr
          ⟨parsed, _, _, accepts.read, rfl, accepts.means, made⟩, rfl⟩

/-- What is accepted has a native form. -/
theorem Accepts.exists_native {token clause value : Value} {parsed : Token} {action : Action}
    (accepts : Accepts token clause parsed action value) :
    ∃ native, Native parsed.kind action value native := by
  by_cases null : value = .null
  · subst null
    exact ⟨_, .bare⟩
  · obtain ⟨typed, encoded⟩ := (Attribute.exists_encode_iff _ _).mpr (accepts.takes null)
    exact ⟨_, .carrying null encoded⟩

/-- No two entries have tokens that are read as one name. -/
def NamedApart (entries : Value.Entries) : Prop :=
  entries.Pairwise fun first second => ∀ token other, Token.parse false first.1 = .ok token →
    Token.parse false second.1 = .ok other → token.name ≠ other.name

theorem exists_parse_of_ofEntry {token clause : Value} {field : String × Update}
    (done : ofEntry token clause = .ok field) :
    ∃ parsed, Token.parse false token = .ok parsed ∧ field.1 = parsed.name := by
  obtain ⟨parsed, _, _, read, named, _⟩ := (ofEntry_eq_ok_iff _ _ field.1 field.2).mp done
  exact ⟨parsed, read, named⟩

/-- Entries that are named apart are translated under names that are all different. -/
theorem nodup_names_of_apart {entries : Value.Entries} {translated : List (String × Update)}
    (apart : NamedApart entries)
    (each : List.Forall₂ (fun entry field => ofEntry entry.1 entry.2 = .ok field) entries
      translated) : (translated.map Prod.fst).Nodup := by
  induction each with
  | nil => exact List.nodup_nil
  | @cons entry field rest others single several ih =>
      rw [NamedApart, List.pairwise_cons] at apart
      rw [List.map_cons, List.nodup_cons]
      refine ⟨fun again => ?_, ih apart.2⟩
      obtain ⟨other, member, same⟩ := List.mem_map.mp again
      obtain ⟨later, present, done⟩ := exists_of_mem_forall₂ several other member
      obtain ⟨token, read, named⟩ := exists_parse_of_ofEntry single
      obtain ⟨another, readLater, namedLater⟩ := exists_parse_of_ofEntry done
      refine apart.1 later present token another read readLater ?_
      rw [← named, ← namedLater, same]

/-- A field is the update of an entry: it has the name of the entry's token, and the native form of
the action with the value that the entry's clause means. -/
def Shows (entry : Value × Value) (field : String × Value) : Prop :=
  ∃ parsed action value, Accepts entry.1 entry.2 parsed action value ∧ field.1 = parsed.name ∧
    Native parsed.kind action value field.2

theorem shows_iff (entry : Value × Value) (field : String × Value) :
    Shows entry field ↔ ∃ made : String × Update, ofEntry entry.1 entry.2 = .ok made ∧
      (made.1, made.2.toNative) = field := by
  obtain ⟨name, native⟩ := field
  rw [Shows, ← ofEntry_native_iff]
  constructor
  · rintro ⟨update, done, same⟩
    exact ⟨(name, update), done, by rw [same]⟩
  · rintro ⟨⟨_, update⟩, done, ⟨⟩⟩
    exact ⟨update, done, rfl⟩

/-- Updates that are named apart are sent one by one, in order. -/
theorem toNativeAll_of_apart {entries : Value.Entries} (apart : NamedApart entries)
    (native : Value) :
    toNativeAll (.map entries) = .ok native ↔
      ∃ fields, native = .record fields ∧ List.Forall₂ Shows entries fields := by
  have shows : ∀ fields, List.Forall₂ Shows entries fields ↔
      ∃ translated,
        List.Forall₂ (fun entry made => ofEntry entry.1 entry.2 = .ok made) entries translated ∧
          (translated.map fun made => (made.1, made.2.toNative)) = fields := by
    intro fields
    rw [← forall₂_read_iff, ← funext₂ fun entry field => propext (shows_iff entry field)]
  rw [toNativeAll_eq_ok_iff]
  constructor
  · rintro ⟨translated, ⟨_, ⟨⟩, each⟩, rfl⟩
    refine ⟨_, ?_, (shows _).mpr ⟨translated, each, rfl⟩⟩
    rw [(writeFields_eq_self_iff translated).mpr (nodup_names_of_apart apart each)]
  · rintro ⟨_, rfl, shown⟩
    obtain ⟨translated, each, rfl⟩ := (shows _).mp shown
    refine ⟨translated, ⟨entries, rfl, each⟩, ?_⟩
    rw [(writeFields_eq_self_iff translated).mpr (nodup_names_of_apart apart each)]

/-- What an update fails with tells that its token or its clause is malformed. -/
theorem failsOnly_ofEntry (token clause : Value) :
    FailsOnly (fun fault => fault.category = .validation ∨ fault.category = .invalidOperand)
      (ofEntry token clause) := by
  refine ((Token.failsOnly_parse false token).mono fun _ => Or.inl).bind fun parsed => ?_
  refine FailsOnly.bind ?_ fun split => ?_
  · cases done : Clause.split Action.put.name clause with
    | ok split => exact .ok split
    | error cause =>
        cases cause with
        | shape => exact .error (Or.inr rfl)
        | wordNotText => exact .error (Or.inl rfl)
  refine FailsOnly.bind ?_ fun update => .pure _
  unfold ofClause
  split
  · exact .error (Or.inl rfl)
  refine .ite (.ite (.ok _) (.error (Or.inr rfl))) ?_
  exact ((Attribute.failsOnly_encode _ _).mono fun _ => Or.inr).bind fun typed => .pure _

theorem failsOnly_toNativeAll (entries : Value.Entries) :
    FailsOnly (fun fault => fault.category = .validation ∨ fault.category = .invalidOperand)
      (toNativeAll (.map entries)) := by
  refine FailsOnly.bind ?_ fun updates => .pure _
  refine FailsOnly.foldlM (fun done entry => ?_) [] entries
  exact (failsOnly_ofEntry entry.1 entry.2).bind fun made => .pure _

/-- **The grammar of updates.** Let no two tokens of a map be read as one name. Then its updates are
translated exactly when each entry is accepted: its token has a name, and its clause means an action
with a value that the token's kind takes, or a deletion without one; otherwise they are refused as
malformed. The native form has one field for each entry, in order, under the name of its token, with
the action, and with the encoded value exactly if there is one. -/
theorem toNativeAll_grammar (entries : Value.Entries) (apart : NamedApart entries) :
    ((∃ native, toNativeAll (.map entries) = .ok native) ↔ ∀ entry ∈ entries,
        ∃ parsed action value, Accepts entry.1 entry.2 parsed action value) ∧
      (∀ native, toNativeAll (.map entries) = .ok native ↔
        ∃ fields, native = .record fields ∧ List.Forall₂ Shows entries fields) ∧
      FailsOnly (fun fault => fault.category = .validation ∨ fault.category = .invalidOperand)
        (toNativeAll (.map entries)) := by
  refine ⟨⟨?_, ?_⟩, ?_, ?_⟩
  · rintro ⟨native, done⟩ entry member
    obtain ⟨fields, _, each⟩ := (toNativeAll_of_apart apart native).mp done
    obtain ⟨field, _, parsed, action, value, accepts, _⟩ :=
      exists_of_mem_forall₂ each.flip entry member
    exact ⟨parsed, action, value, accepts⟩
  · intro accepted
    have each : ∀ entry ∈ entries, ∃ field, Shows entry field := by
      intro entry member
      obtain ⟨parsed, action, value, accepts⟩ := accepted entry member
      obtain ⟨native, shown⟩ := accepts.exists_native
      exact ⟨(parsed.name, native), parsed, action, value, accepts, rfl, shown⟩
    obtain ⟨fields, shown⟩ := exists_forall₂ each
    exact ⟨.record fields, (toNativeAll_of_apart apart _).mpr ⟨fields, rfl, shown⟩⟩
  · exact toNativeAll_of_apart apart
  · exact failsOnly_toNativeAll entries

/-- A bare value is put, a word in small letters adds to a set, and a deletion goes without a
value. -/
theorem toNativeAll_three_actions :
    NamedApart [(.text "a", .text "x"), (.text "b::NS", .tuple [.text " add ", .int 1]),
        (.text "c", .tuple [.text "DELETE"])] ∧
      ∃ fields, Value.record
          [("a", .record [("Action", .text "PUT"), ("Value", .record [("S", .text "x")])]),
            ("b", .record [("Action", .text "ADD"),
              ("Value", .record [("NS", .list [.text "1"])])]),
            ("c", .record [("Action", .text "DELETE")])] = .record fields ∧
        List.Forall₂ Shows [(.text "a", .text "x"), (.text "b::NS", .tuple [.text " add ", .int 1]),
          (.text "c", .tuple [.text "DELETE"])] fields := by
  have apart : NamedApart [(.text "a", .text "x"),
      (.text "b::NS", .tuple [.text " add ", .int 1]), (.text "c", .tuple [.text "DELETE"])] := by
    refine .cons ?_ (.cons ?_ (.cons nofun .nil))
    · rw [List.forall_mem_cons, List.forall_mem_singleton]
      exact ⟨by rintro _ _ ⟨⟩ ⟨⟩; decide, by rintro _ _ ⟨⟩ ⟨⟩; decide⟩
    · rw [List.forall_mem_singleton]
      rintro _ _ ⟨⟩ ⟨⟩
      decide
  exact ⟨apart, ((toNativeAll_grammar _ apart).2.1 _).mp (by rfl)⟩

end Update

end TokenTable
