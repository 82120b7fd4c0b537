import Mathlib.Data.String.Basic
import TokenTable.Client.Layout
import TokenTable.Proofs.Fallible
import TokenTable.Proofs.Fields

/-! # Key attributes of a new table

A layout gives the tokens of a hash key, perhaps of a range key, and of the sort key of every index.
Each of them is read by itself, its name goes into a key schema, and its kind is recorded under that
name; of the kinds that tokens with one name state only the last stays. Main statement:
`request_defines`.
-/

namespace TokenTable.Layout

/-- The tokens of a layout: of its hash key, of its range key, and of the sort keys of its
indexes. -/
structure Tokens where
  hash : Token
  range? : Option Token
  sorts : List Token

namespace Tokens

def all (tokens : Tokens) : List Token := tokens.hash :: (tokens.range?.toList ++ tokens.sorts)

/-- The key schema with the hash key and perhaps a second key. -/
def schema (tokens : Tokens) (second? : Option Token) : List Value :=
  keyPart tokens.hash.name "HASH" :: second?.toList.map fun second => keyPart second.name "RANGE"

/-- The key schemas of the table and of its indexes. -/
def schemas (tokens : Tokens) : List (List Value) :=
  tokens.schema tokens.range? :: tokens.sorts.map fun sort => tokens.schema (some sort)

end Tokens

/-- A token as a key attribute: its name with its kind. -/
def attributeOf (token : Token) : String × Kind := (token.name, token.kind)

/-- What is read as the token of a key attribute: a well-formed token of a scalar kind. -/
def ReadsKey (text : Value) (token : Token) : Prop :=
  Token.parse true text = .ok token ∧ ∃ element, token.kind = .scalar element

/-- What is read as the sort key of an index: its name, a text that is not empty. -/
def NamesKey (index : Value) (sort : Token) : Prop :=
  ∃ name, name ≠ "" ∧ index.get "name" = .ok (.text name) ∧ ReadsKey (.text name) sort

/-- The tokens that a layout gives. -/
structure Gives (layout : Layout) (tokens : Tokens) : Prop where
  hash : ReadsKey layout.hashKey tokens.hash
  range : if layout.rangeKey.isNull then tokens.range? = none
    else ∃ range, tokens.range? = some range ∧ ReadsKey layout.rangeKey range
  sorts : ∃ indexes, layout.indexes.elements = .ok indexes ∧
    List.Forall₂ NamesKey indexes tokens.sorts

/-- Definitions of the key attributes with some tokens: in the order of their names, each once, as
many as are used in key schemas. A name has the kind that the last of its tokens states, and so
every token states the kind of its name exactly when no two tokens disagree. -/
structure Defines (tokens : Tokens) (definitions : Definitions) : Prop where
  sorted : (definitions.map Prod.fst).Pairwise (· < ·)
  used : ∀ name, name ∈ definitions.map Prod.fst ↔
    ∃ schema ∈ tokens.schemas, ∃ role, keyPart name role ∈ schema
  last : ∀ name, definitions.lookup name = (tokens.all.reverse.map attributeOf).lookup name
  own : (∀ token ∈ tokens.all, definitions.lookup token.name = some token.kind) ↔
    ∀ token ∈ tokens.all, ∀ other ∈ tokens.all, token.name = other.name → token.kind = other.kind

/-- An index with its key schema and some projection. -/
def IndexOn (tokens : Tokens) (sort : Token) (entry : Value) : Prop :=
  ∃ projection, entry = .record
    [("IndexName", .text (sort.name ++ "Index")),
      ("KeySchema", .list (tokens.schema (some sort))),
      ("Projection", .record [("ProjectionType", .text projection)])]

/-- A key attribute is written behind those before it. -/
theorem exists_token_of_keyAttribute (before : List Token) {text : Value} {name : String}
    {after : Definitions}
    (read : keyAttribute (writeFields (before.map attributeOf)) text = .ok (name, after)) :
    ∃ token, ReadsKey text token ∧ name = token.name ∧
      after = writeFields ((before ++ [token]).map attributeOf) := by
  obtain ⟨token, parsed, read⟩ := (bind_eq_ok_iff _ _ _).mp read
  cases kind : token.kind with
  | set element =>
      rw [kind] at read
      cases read
  | scalar element =>
      rw [kind] at read
      cases read
      refine ⟨token, ⟨parsed, element, kind⟩, rfl, ?_⟩
      rw [List.map_append, List.map_singleton, writeFields_concat, ← kind]
      rfl

theorem exists_range_of_rangePart {before : List Token} {rangeKey : Value} {parts : List Value}
    {after : Definitions}
    (read : rangePart (writeFields (before.map attributeOf)) rangeKey = .ok (parts, after)) :
    ∃ range? : Option Token,
      (if rangeKey.isNull then range? = none
        else ∃ range, range? = some range ∧ ReadsKey rangeKey range) ∧
      parts = range?.toList.map (fun range => keyPart range.name "RANGE") ∧
      after = writeFields ((before ++ range?.toList).map attributeOf) := by
  unfold rangePart at read
  split at read
  · rename_i absent
    cases read
    refine ⟨none, ?_, rfl, ?_⟩
    · rw [if_pos absent]
    · rw [Option.toList_none, List.append_nil]
  · rename_i present
    obtain ⟨⟨name, _⟩, read, made⟩ := (bind_eq_ok_iff _ _ _).mp read
    obtain ⟨token, reads, rfl, rfl⟩ := exists_token_of_keyAttribute before read
    cases made
    refine ⟨some token, ?_, rfl, rfl⟩
    rw [if_neg present]
    exact ⟨token, rfl, reads⟩

theorem exists_name_of_indexToken {index text : Value} (read : indexToken index = .ok text) :
    ∃ name, name ≠ "" ∧ index.get "name" = .ok (.text name) ∧ text = .text name := by
  obtain ⟨held, found, read⟩ := (bind_eq_ok_iff _ _ _).mp read
  cases held with
  | text name =>
      by_cases empty : name = ""
      · simp only [empty, ↓reduceIte] at read
        cases read
      · simp only [empty, ↓reduceIte] at read
        cases read
        exact ⟨name, empty, found, rfl⟩
  | _ => cases read

/-- An index is made on the sort key that its token names, behind those before it. -/
theorem exists_sort_of_addIndex (tokens : Tokens) {hasRange : Bool} {before : List Token}
    {start entries : List Value} {index : Value} {after : Definitions}
    (added : addIndex tokens.hash.name hasRange
      (start, writeFields (before.map attributeOf)) index = .ok (entries, after)) :
    ∃ sort entry, NamesKey index sort ∧ IndexOn tokens sort entry ∧ entries = start ++ [entry] ∧
      after = writeFields ((before ++ [sort]).map attributeOf) := by
  cases hasRange with
  | false => cases added
  | true =>
      obtain ⟨text, named, added⟩ := (bind_eq_ok_iff _ _ _).mp added
      obtain ⟨⟨_, _⟩, read, added⟩ := (bind_eq_ok_iff _ _ _).mp added
      obtain ⟨projection, _, added⟩ := (bind_eq_ok_iff _ _ _).mp added
      obtain ⟨name, proper, found, rfl⟩ := exists_name_of_indexToken named
      obtain ⟨sort, reads, rfl, rfl⟩ := exists_token_of_keyAttribute before read
      cases added
      exact ⟨sort, _, ⟨name, proper, found, reads⟩, ⟨projection, rfl⟩, rfl, rfl⟩

/-- Indexes are made one by one, each on the sort key that its own token names. -/
theorem exists_sorts_of_foldlM (tokens : Tokens) {hasRange : Bool} {indexes : List Value}
    {before : List Token} {start entries : List Value} {after : Definitions}
    (added : indexes.foldlM (addIndex tokens.hash.name hasRange)
      (start, writeFields (before.map attributeOf)) = .ok (entries, after)) :
    ∃ sorts made, entries = start ++ made ∧ List.Forall₂ (IndexOn tokens) sorts made ∧
      List.Forall₂ NamesKey indexes sorts ∧
      after = writeFields ((before ++ sorts).map attributeOf) := by
  induction indexes generalizing before start with
  | nil =>
      cases added
      exact ⟨[], [], by rw [List.append_nil], .nil, .nil, by rw [List.append_nil]⟩
  | cons index rest ih =>
      rw [List.foldlM_cons] at added
      obtain ⟨⟨_, _⟩, one, others⟩ := (bind_eq_ok_iff _ _ _).mp added
      obtain ⟨sort, entry, named, indexOn, rfl, rfl⟩ := exists_sort_of_addIndex tokens one
      obtain ⟨sorts, made, rfl, built, given, rfl⟩ := ih others
      refine ⟨sort :: sorts, entry :: made, ?_, .cons indexOn built, .cons named given, ?_⟩
      · rw [List.append_assoc, List.singleton_append]
      · rw [List.append_assoc, List.singleton_append]

theorem keyPart_inj (name role name' role' : String) :
    keyPart name role = keyPart name' role' ↔ name = name' ∧ role = role' := by
  simp [keyPart, Value.record]

/-- The names in the key schemas are those of the tokens. -/
theorem mem_schemas_iff (tokens : Tokens) (name : String) :
    (∃ schema ∈ tokens.schemas, ∃ role, keyPart name role ∈ schema) ↔
      ∃ token ∈ tokens.all, token.name = name := by
  have inSchema : ∀ second? : Option Token, (∃ role, keyPart name role ∈ tokens.schema second?) ↔
      tokens.hash.name = name ∨ ∃ second ∈ second?.toList, second.name = name := by
    intro second?
    simp only [Tokens.schema, List.mem_cons, List.mem_map, keyPart_inj, exists_or, exists_and_left,
      exists_comm (β := Token), exists_eq, exists_eq', and_true, @eq_comm _ name]
  simp only [Tokens.schemas, List.exists_mem_cons_iff, inSchema, List.mem_map,
    exists_exists_and_eq_and, Tokens.all, List.mem_append, Option.toList_some, List.mem_singleton]
  grind

/-- Fields in the order of their names. -/
def byNames (definitions : Definitions) : Definitions :=
  definitions.mergeSort fun a b => !decide (b.1 < a.1)

theorem pairwise_byNames {definitions : Definitions}
    (distinct : (definitions.map Prod.fst).Nodup) :
    ((byNames definitions).map Prod.fst).Pairwise (· < ·) := by
  have ordered : (byNames definitions).Pairwise fun a b => !decide (b.1 < a.1) := by
    apply List.pairwise_mergeSort
    · intro a b c
      simp only [Bool.not_eq_true', decide_eq_false_iff_not, not_lt]
      exact le_trans
    · intro a b
      simp only [Bool.or_eq_true, Bool.not_eq_true', decide_eq_false_iff_not, not_lt]
      exact le_total a.1 b.1
  have apart : ((byNames definitions).map Prod.fst).Nodup :=
    ((List.mergeSort_perm definitions _).map Prod.fst).nodup_iff.mpr distinct
  rw [List.pairwise_map]
  refine (ordered.and (List.pairwise_map.mp apart)).imp ?_
  intro a b both
  rw [Bool.not_eq_true', decide_eq_false_iff_not, not_lt] at both
  exact lt_of_le_of_ne both.1 both.2

/-- The name of a token is found with the kind of some token with that name. -/
theorem exists_token_of_lookup {tokens : List Token} {token : Token} (inside : token ∈ tokens) :
    ∃ other ∈ tokens, token.name = other.name ∧
      (tokens.reverse.map attributeOf).lookup token.name = some other.kind := by
  cases found : (tokens.reverse.map attributeOf).lookup token.name with
  | none =>
      have member := List.mem_map_of_mem (f := attributeOf) (List.mem_reverse.mpr inside)
      have apart := List.lookup_eq_none_iff.mp found _ member
      exact absurd apart (by simp [attributeOf])
  | some kind =>
      obtain ⟨front, back, split, _⟩ := List.lookup_eq_some_iff.mp found
      have member : (token.name, kind) ∈ tokens.reverse.map attributeOf := by
        rw [split]
        exact List.mem_append_right _ List.mem_cons_self
      obtain ⟨other, among, same⟩ := List.mem_map.mp member
      rw [attributeOf, Prod.mk.injEq] at same
      exact ⟨other, List.mem_reverse.mp among, same.1.symm, congrArg some same.2.symm⟩

/-- Recorded one after another, the kinds of the key attributes define them. -/
theorem defines_byNames (tokens : Tokens) :
    Defines tokens (byNames (writeFields (tokens.all.map attributeOf))) := by
  have distinct := nodup_names_writeFields (tokens.all.map attributeOf)
  have perm : (byNames (writeFields (tokens.all.map attributeOf))).Perm
      (writeFields (tokens.all.map attributeOf)) := List.mergeSort_perm _ _
  have last : ∀ name, (byNames (writeFields (tokens.all.map attributeOf))).lookup name =
      (tokens.all.reverse.map attributeOf).lookup name := by
    intro name
    rw [lookup_eq_of_perm perm ((perm.map Prod.fst).nodup_iff.mpr distinct), lookup_writeFields,
      List.map_reverse]
  constructor
  · exact pairwise_byNames distinct
  · intro name
    rw [(perm.map Prod.fst).mem_iff, mem_names_writeFields, mem_schemas_iff, List.map_map,
      List.mem_map]
    rfl
  · exact last
  · constructor
    · intro own token inside other among same
      have held := own token inside
      rw [same, own other among] at held
      exact (Option.some.inj held).symm
    · intro agree token inside
      obtain ⟨other, among, same, held⟩ := exists_token_of_lookup inside
      rw [last, held, agree token inside other among same]

/-- A layout that makes a request gives tokens, and the request is made of them. -/
theorem exists_tokens_of_request {layout : Layout} {fields : List (String × Value)}
    (made : layout.request = .ok fields) :
    ∃ tokens entries, layout.Gives tokens ∧ List.Forall₂ (IndexOn tokens) tokens.sorts entries ∧
      fields = [("TableName", layout.table),
        ("KeySchema", .list (tokens.schema tokens.range?)),
        ("AttributeDefinitions",
          attributeDefinitions (writeFields (tokens.all.map attributeOf))),
        ("ProvisionedThroughput", .record
          [("ReadCapacityUnits", layout.readCapacity),
            ("WriteCapacityUnits", layout.writeCapacity)])] ++
        if entries.isEmpty then [] else [("LocalSecondaryIndexes", .list entries)] := by
  unfold request at made
  cases given : layout.table.isGiven with
  | false =>
      rw [given] at made
      cases made
  | true =>
  rw [given] at made
  obtain ⟨noReads, _, made⟩ := (bind_eq_ok_iff _ _ _).mp made
  cases noReads with
  | true => cases made
  | false =>
  obtain ⟨noWrites, _, made⟩ := (bind_eq_ok_iff _ _ _).mp made
  cases noWrites with
  | true => cases made
  | false =>
  obtain ⟨⟨_, _⟩, read, made⟩ := (bind_eq_ok_iff _ _ _).mp made
  obtain ⟨hash, hashReads, rfl, rfl⟩ := exists_token_of_keyAttribute [] read
  obtain ⟨⟨_, _⟩, read, made⟩ := (bind_eq_ok_iff _ _ _).mp made
  obtain ⟨range?, rangeReads, rfl, rfl⟩ := exists_range_of_rangePart read
  obtain ⟨indexes, elements, made⟩ := (bind_eq_ok_iff _ _ _).mp made
  obtain ⟨⟨entries, _⟩, added, made⟩ := (bind_eq_ok_iff _ _ _).mp made
  obtain ⟨sorts, _, rfl, built, named, rfl⟩ := exists_sorts_of_foldlM ⟨hash, range?, []⟩ added
  cases made
  exact ⟨⟨hash, range?, sorts⟩, _, ⟨hashReads, rangeReads, indexes, elements, named⟩, built, rfl⟩

/-- **Key attributes are defined once.** A layout makes a request only if its tokens are well formed
and of scalar kinds. The key schema of the table names the hash key and the range key; each index
has a key schema with the same hash key and its own sort key. The definitions list the names in
these schemas, in order and each once, and state the kind of every token exactly when no two tokens
state different kinds of one name; otherwise the last of them prevails. -/
theorem request_defines (layout : Layout) (fields : List (String × Value))
    (made : layout.request = .ok fields) :
    ∃ tokens, layout.Gives tokens ∧
      fields.lookup "KeySchema" = some (.list (tokens.schema tokens.range?)) ∧
      (∃ entries, List.Forall₂ (IndexOn tokens) tokens.sorts entries ∧
        fields.lookup "LocalSecondaryIndexes" =
          if entries.isEmpty then none else some (.list entries)) ∧
      ∃ definitions, Defines tokens definitions ∧
        fields.lookup "AttributeDefinitions" = some (.list (definitions.map fun entry =>
          .record [("AttributeName", .text entry.1), ("AttributeType", .text entry.2.tag)])) := by
  obtain ⟨tokens, entries, gives, built, rfl⟩ := exists_tokens_of_request made
  refine ⟨tokens, gives, rfl, ⟨entries, built, ?_⟩, _, defines_byNames tokens, rfl⟩
  cases entries with
  | nil => rfl
  | cons entry rest => rfl

/-- A layout without capacities of its own. -/
def ofKeys (hashKey rangeKey : String) (indexes : List String) : Layout where
  table := .text "t"
  hashKey := .text hashKey
  rangeKey := .text rangeKey
  indexes := .list (indexes.map fun name => .record [("name", .text name)])
  readCapacity := .int 1
  writeCapacity := .int 1

/-- An index may share the range key of its table. -/
theorem request_defines_shared_key :
    ∃ tokens, (ofKeys "User" "At::N" ["At::N", "Score::N"]).Gives tokens ∧
      Value.list [keyPart "User" "HASH", keyPart "At" "RANGE"] =
        .list (tokens.schema tokens.range?) ∧
      ∃ definitions, Defines tokens definitions ∧
        attributeDefinitions [("User", .scalar .text), ("At", .scalar .number),
            ("Score", .scalar .number)] =
          .list (definitions.map fun entry =>
            .record [("AttributeName", .text entry.1), ("AttributeType", .text entry.2.tag)]) := by
  obtain ⟨tokens, gives, schema, _, definitions, defines, listed⟩ :=
    request_defines (ofKeys "User" "At::N" ["At::N", "Score::N"]) _ rfl
  exact ⟨tokens, gives, Option.some.inj schema, definitions, defines, Option.some.inj listed⟩

/-- Two tokens with one name: the hash key is a number, and its name is defined as a text. -/
theorem hash_kind_overwritten :
    ∃ fields, (ofKeys "id::N" "id" []).request = .ok fields ∧
      (ofKeys "id::N" "id" []).Gives
        ⟨⟨"id", .scalar .number⟩, some ⟨"id", .scalar .text⟩, []⟩ ∧
      fields.lookup "AttributeDefinitions" = some (.list
        [.record [("AttributeName", .text "id"), ("AttributeType", .text "S")]]) := by
  refine ⟨_, rfl, ⟨⟨rfl, _, rfl⟩, ⟨_, rfl, rfl, _, rfl⟩, [], rfl, .nil⟩, ?_⟩
  have single : attributeDefinitions [("id", .scalar .text)] =
      .list [.record [("AttributeName", .text "id"), ("AttributeType", .text "S")]] := by
    rw [attributeDefinitions, List.mergeSort_singleton]
    rfl
  exact congrArg some single

end TokenTable.Layout
