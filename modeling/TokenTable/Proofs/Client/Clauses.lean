import TokenTable.Proofs.Client.Sent
import TokenTable.Proofs.Fields

/-! # Clauses and what becomes of them

Every condition and every update is translated by itself, under the name that its token is read as.
Two tokens may be read as one name, though, and of their translations only the last is sent; so
every clause reaches the store exactly when no two tokens are read as one name. Main statement:
`clauses_sent`.
-/

namespace TokenTable

open Run

variable {α : Type}

/-- The entries of a map, each translated by itself, in order. -/
def Translated (ofEntry : Value → Value → Except Fault (String × α)) (given : Value)
    (translated : List (String × α)) : Prop :=
  ∃ entries, given = .map entries ∧
    List.Forall₂ (fun entry field => ofEntry entry.1 entry.2 = .ok field) entries translated

/-- Fields that keep the last translation under every name: all of them stay, in order, exactly when
no two are under one name, and otherwise some are lost. -/
structure KeepsLast (translated fields : List (String × α)) : Prop where
  single : (fields.map Prod.fst).Nodup
  last : ∀ name, fields.lookup name = translated.reverse.lookup name
  whole : fields = translated ↔ (translated.map Prod.fst).Nodup
  fewer : fields.length < translated.length ↔ ¬ (translated.map Prod.fst).Nodup

theorem keepsLast_writeFields (translated : List (String × α)) :
    KeepsLast translated (writeFields translated) where
  single := nodup_names_writeFields translated
  last name := lookup_writeFields name translated
  whole := writeFields_eq_self_iff translated
  fewer := by
    rw [← length_writeFields_iff]
    have fewer := length_writeFields_le translated
    omega

theorem foldlM_upsertField_eq_ok_iff (ofEntry : Value → Value → Except Fault (String × α))
    (entries : Value.Entries) (before fields : List (String × α)) :
    entries.foldlM (fun done entry => do
        let (name, made) ← ofEntry entry.1 entry.2
        return upsertField name made done) (writeFields before) = .ok fields ↔
      ∃ translated,
        List.Forall₂ (fun entry field => ofEntry entry.1 entry.2 = .ok field) entries translated ∧
          fields = writeFields (before ++ translated) := by
  induction entries generalizing before with
  | nil =>
      rw [List.foldlM_nil, pure_eq_ok_iff]
      constructor
      · rintro rfl
        exact ⟨[], .nil, by rw [List.append_nil]⟩
      · rintro ⟨translated, each, rfl⟩
        cases each
        rw [List.append_nil]
  | cons entry rest ih =>
      rw [List.foldlM_cons, bind_eq_ok_iff]
      constructor
      · rintro ⟨next, step, folded⟩
        obtain ⟨field, single, step⟩ := (bind_eq_ok_iff _ _ _).mp step
        cases step
        rw [← writeFields_concat] at folded
        obtain ⟨others, several, rfl⟩ := (ih _).mp folded
        refine ⟨field :: others, .cons single several, ?_⟩
        rw [List.append_cons before field others]
      · rintro ⟨translated, each, rfl⟩
        cases each with
        | @cons _ field _ others single several =>
            refine ⟨writeFields (before ++ [field]), ?_, ?_⟩
            · rw [writeFields_concat]
              exact (bind_eq_ok_iff _ _ _).mpr ⟨field, single, rfl⟩
            · refine (ih _).mpr ⟨others, several, ?_⟩
              rw [List.append_cons before field others]

/-- A map is translated if each of its entries is, and of those under one name the last is kept. -/
theorem ofEntries_eq_ok_iff (ofEntry : Value → Value → Except Fault (String × α)) (given : Value)
    (fields : List (String × α)) :
    (do
        (← given.entries).foldlM (fun done entry => do
          let (name, made) ← ofEntry entry.1 entry.2
          return upsertField name made done) [] : Except Fault (List (String × α))) = .ok fields ↔
      ∃ translated, Translated ofEntry given translated ∧ fields = writeFields translated := by
  have folded := fun entries => foldlM_upsertField_eq_ok_iff ofEntry entries [] fields
  constructor
  · intro done
    obtain ⟨entries, held, done⟩ := (bind_eq_ok_iff _ _ _).mp done
    obtain ⟨translated, each, made⟩ := (folded entries).mp done
    cases given with
    | map _ =>
        cases held
        exact ⟨translated, ⟨entries, rfl, each⟩, made⟩
    | _ => cases held
  · rintro ⟨translated, ⟨entries, rfl, each⟩, made⟩
    exact (folded entries).mpr ⟨translated, each, made⟩

/-- Conditions are translated each by itself, and of those under one name the last is kept. -/
theorem Condition.toNativeAll_eq_ok_iff (conditions native : Value) :
    toNativeAll conditions = .ok native ↔ ∃ translated, Translated ofEntry conditions translated ∧
      native = .record ((writeFields translated).map fun field => (field.1, field.2.toNative)) := by
  have all := ofEntries_eq_ok_iff ofEntry conditions
  constructor
  · intro done
    obtain ⟨fields, done, made⟩ := (bind_eq_ok_iff _ _ _).mp done
    obtain ⟨translated, each, rfl⟩ := (all fields).mp done
    cases made
    exact ⟨translated, each, rfl⟩
  · rintro ⟨translated, each, rfl⟩
    exact (bind_eq_ok_iff _ _ _).mpr ⟨_, (all _).mpr ⟨translated, each, rfl⟩, rfl⟩

/-- Updates are translated each by itself, and of those under one name the last is kept. -/
theorem Update.toNativeAll_eq_ok_iff (updates native : Value) :
    toNativeAll updates = .ok native ↔ ∃ translated, Translated ofEntry updates translated ∧
      native = .record ((writeFields translated).map fun field => (field.1, field.2.toNative)) := by
  have all := ofEntries_eq_ok_iff ofEntry updates
  constructor
  · intro done
    obtain ⟨fields, done, made⟩ := (bind_eq_ok_iff _ _ _).mp done
    obtain ⟨translated, each, rfl⟩ := (all fields).mp done
    cases made
    exact ⟨translated, each, rfl⟩
  · rintro ⟨translated, each, rfl⟩
    exact (bind_eq_ok_iff _ _ _).mpr ⟨_, (all _).mpr ⟨translated, each, rfl⟩, rfl⟩

namespace Client

/-- **What becomes of clauses.** Conditions and updates are translated exactly when each of their
clauses is, by itself and under the name that its own token is read as. Under every name the last
translation is kept, so all are kept exactly when no two tokens are read as one name. What they are
translated to is sent with every call that an operation makes, also when it asks for page after
page, and no operation other than a scan returns without a call. -/
theorem clauses_sent {ω : Type} (client : Client ω) :
    (∀ conditions native, Condition.toNativeAll conditions = .ok native ↔
      ∃ translated, Translated Condition.ofEntry conditions translated ∧
        KeepsLast translated (writeFields translated) ∧
        native = .record ((writeFields translated).map fun field =>
          (field.1, field.2.toNative))) ∧
    (∀ updates native, Update.toNativeAll updates = .ok native ↔
      ∃ translated, Translated Update.ofEntry updates translated ∧
        KeepsLast translated (writeFields translated) ∧
        native = .record ((writeFields translated).map fun field =>
          (field.1, field.2.toNative))) ∧
    (∀ table item expected,
      Sends (fun method request => method = .putItem ∧ (expected.isGiven = true →
          Carries "Expected" (Condition.toNativeAll expected) request))
        (client.journaled.put table item expected)) ∧
    (∀ table key updates expected returned,
      Sends (fun method request => method = .updateItem ∧
          Carries "AttributeUpdates" (Update.toNativeAll updates) request ∧
          (expected.isGiven = true → Carries "Expected" (Condition.toNativeAll expected) request))
        (client.journaled.update table key updates expected returned)) ∧
    (∀ table conditions options,
      Sends (fun method request => method = .query ∧
          Carries "KeyConditions" (Condition.toNativeAll conditions) request ∧
          (options.filter.isGiven = true →
            Carries "QueryFilter" (Condition.toNativeAll options.filter) request))
        (client.journaled.query table conditions options)) ∧
    (∀ table conditions index,
      Sends (fun method request => method = .query ∧
          Carries "KeyConditions" (Condition.toNativeAll conditions) request)
        (client.journaled.count table conditions index)) ∧
    ∀ table filter limit start scan pages, Client.scan table filter limit = .ok start →
      Scan.Reaches client.journaled.store start scan →
        SendsOnly (fun method request => method = .scan ∧ (filter.isGiven = true →
            Carries "ScanFilter" (Condition.toNativeAll filter) request))
          (scan.next client.journaled.store pages) := by
  refine ⟨?_, ?_, sends_put client, sends_update client, sends_query client, sends_count client, ?_⟩
  · intro conditions native
    rw [Condition.toNativeAll_eq_ok_iff]
    simp only [keepsLast_writeFields, true_and]
  · intro updates native
    rw [Update.toNativeAll_eq_ok_iff]
    simp only [keepsLast_writeFields, true_and]
  · intro table filter limit start scan pages begun reaches
    exact sendsOnly_scan client begun reaches pages

/-- A client of a store that answers every call with an empty map. -/
def ofQuietStore : Client Unit where
  store := { serves := fun _ => true, answer := fun _ _ => pure (.map []), patience := fun _ => 0 }
  retries := .int 0
  pause := none
  clock _ := .one
  waitTimeout := .int 0
  pollInterval := .int 0

/-- Conditions on two attributes are both kept, and sent with the first page of a scan. -/
theorem clauses_sent_two_names :
    (∃ translated, Translated Condition.ofEntry
        (.map [(.text "a", .text "x"), (.text "b::N", .text "2")]) translated ∧
      KeepsLast translated (writeFields translated) ∧
      Value.record
          [("a", .record [("ComparisonOperator", .text "EQ"),
            ("AttributeValueList", .list [.record [("S", .text "x")]])]),
          ("b", .record [("ComparisonOperator", .text "EQ"),
            ("AttributeValueList", .list [.record [("N", .text "2")]])])] =
        .record ((writeFields translated).map fun field => (field.1, field.2.toNative))) ∧
    SendsOnly (fun method request => method = .scan ∧
        ((Value.map [(.text "a", .text "x")]).isGiven = true →
          Carries "ScanFilter" (Condition.toNativeAll (.map [(.text "a", .text "x")])) request))
      ((Scan.start [("TableName", .text "t"), ("ScanFilter", .record
        [("a", .record [("ComparisonOperator", .text "EQ"),
          ("AttributeValueList", .list [.record [("S", .text "x")]])])])] .null).next
        ofQuietStore.journaled.store 1) := by
  constructor
  · exact ((clauses_sent ofQuietStore).1 _ _).mp rfl
  · exact (clauses_sent ofQuietStore).2.2.2.2.2.2 (.text "t") _ .null _ _ 1 rfl .refl

/-- Two tokens that are read as one name: the first condition, and the first update, is lost. -/
theorem clause_lost_under_one_name :
    (Translated Condition.ofEntry (.map [(.text "a", .int 1), (.text "a::N", .int 2)])
        [("a", ⟨.equal, some [.scalar .text (.text "1")]⟩),
          ("a", ⟨.equal, some [.scalar .number (.text "2")]⟩)] ∧
      Condition.toNativeAll (.map [(.text "a", .int 1), (.text "a::N", .int 2)]) =
        .ok (.record [("a", .record [("ComparisonOperator", .text "EQ"),
          ("AttributeValueList", .list [.record [("N", .text "2")]])])])) ∧
    Translated Update.ofEntry (.map [(.text "a", .int 1), (.text "a::N", .int 2)])
        [("a", ⟨.put, some (.scalar .text (.text "1"))⟩),
          ("a", ⟨.put, some (.scalar .number (.text "2"))⟩)] ∧
      Update.toNativeAll (.map [(.text "a", .int 1), (.text "a::N", .int 2)]) =
        .ok (.record [("a", .record [("Action", .text "PUT"),
          ("Value", .record [("N", .text "2")])])]) := by
  refine ⟨⟨⟨_, rfl, ?_⟩, rfl⟩, ⟨_, rfl, ?_⟩, rfl⟩
  · exact .cons rfl (.cons rfl .nil)
  · exact .cons rfl (.cons rfl .nil)

end Client

end TokenTable
