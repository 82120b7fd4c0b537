import TokenTable.Client.Tables
import TokenTable.Proofs.Client.Sent
import TokenTable.Proofs.Verdict
import TokenTable.Store.Echo

/-! # What is checked before a call

Every part of the arguments of an operation is checked before the store is called. The parts of a
call are listed in the order of their checks (`Invocation.parts`), each member of a list for itself;
if one of them is malformed, the operation does nothing but fail, with the fault of the first.
Only a deletion looks up its method first. Main statement: `malformed_never_sent`.
-/

namespace TokenTable

variable {ω α : Type}

/-- The parts of every member of a value; a value without members is malformed itself. -/
def memberParts (v : Value) (parts : Value → List (Except Fault Unit)) :
    List (Except Fault Unit) :=
  match v.elements with
  | .error fault => [.error fault]
  | .ok members => members.flatMap parts

theorem restsOn_members {v : Value} {parts : Value → List (Except Fault Unit)}
    {next : List Value → Except Fault α}
    (each : ∀ members, RestsOn (members.flatMap parts) (next members)) :
    RestsOn (memberParts v parts) (v.elements >>= next) := by
  unfold memberParts
  cases v.elements with
  | error fault => rfl
  | ok members => exact each members

theorem check_toNative (item : Value) : check (Item.toNative item) = check (Item.encode item) := by
  rw [Item.toNative]
  cases Item.encode item <;> rfl

namespace Layout

/-- A token of a key attribute, which must have a scalar kind. -/
def keyToken (text : Value) : Except Fault Unit := do
  let token ← Token.parse true text
  match token.kind with
  | .scalar _ => return
  | .set _ => throw (.keyKindRefused text.display)

/-- The parts of an index: it needs a sort key, a token of its own and a projection. -/
def indexParts (hasRange : Bool) (index : Value) : List (Except Fault Unit) :=
  [demand hasRange .indexNeedsRangeKey, indexToken index >>= keyToken, check (projection index)]

/-- The parts of a layout. -/
def parts (layout : Layout) : List (Except Fault Unit) :=
  [demand layout.table.isGiven .tableNameRequired,
    refuse (layout.readCapacity.isAtMost 0) .capacityNotPositive,
    refuse (layout.writeCapacity.isAtMost 0) .capacityNotPositive,
    keyToken layout.hashKey] ++
  (if layout.rangeKey.isNull then [] else [keyToken layout.rangeKey]) ++
  memberParts layout.indexes (indexParts (!layout.rangeKey.isNull))

theorem restsOn_keyAttribute (definitions : Definitions) (text : Value) :
    RestsOn [keyToken text] (keyAttribute definitions text) := by
  unfold keyToken keyAttribute
  cases Token.parse true text with
  | error fault => rfl
  | ok token =>
      obtain ⟨name, kind⟩ := token
      cases kind <;> rfl

theorem restsOn_addIndex (hashName : String) (hasRange : Bool) (done : List Value × Definitions)
    (index : Value) :
    RestsOn (indexParts hasRange index) (addIndex hashName hasRange done index) := by
  have named : RestsOn [indexToken index >>= keyToken]
      (indexToken index >>= keyAttribute done.2) := by
    cases indexToken index with
    | error fault => rfl
    | ok text => exact restsOn_keyAttribute done.2 text
  apply RestsOn.demand
  rw [← bind_assoc]
  apply named.bind
  intro key
  exact (RestsOn.single (projection index)).map _

theorem restsOn_rangePart (definitions : Definitions) (rangeKey : Value) :
    RestsOn (if rangeKey.isNull then [] else [keyToken rangeKey])
      (rangePart definitions rangeKey) := by
  unfold rangePart
  split
  · exact RestsOn.ok _
  · exact (restsOn_keyAttribute definitions rangeKey).map _

/-- A layout makes a request exactly when all its parts are well formed. -/
theorem restsOn_request (layout : Layout) : RestsOn layout.parts layout.request := by
  unfold parts request
  apply RestsOn.demand
  apply RestsOn.refuse
  apply RestsOn.refuse
  apply (restsOn_keyAttribute [] layout.hashKey).bind
  intro hash
  apply (restsOn_rangePart hash.2 layout.rangeKey).bind
  rintro ⟨range, definitions⟩
  have added : RestsOn (memberParts layout.indexes (indexParts (!layout.rangeKey.isNull))) (do
      (← layout.indexes.elements).foldlM (addIndex hash.1 (!layout.rangeKey.isNull))
        ([], definitions)) :=
    restsOn_members (RestsOn.foldlM (restsOn_addIndex hash.1 _) ([], definitions))
  simp only
  rw [← bind_assoc]
  exact added.map _

end Layout

namespace Client

/-- Conditions are translated only if they are given. -/
def conditionParts (conditions : Value) : List (Except Fault Unit) :=
  if conditions.isGiven then [check (Condition.toNativeAll conditions)] else []

theorem restsOn_conditionsNamed (name : String) (conditions : Value) :
    RestsOn (conditionParts conditions) (conditionsNamed name conditions) := by
  unfold conditionParts conditionsNamed
  split
  · exact (RestsOn.single _).map _
  · exact RestsOn.ok _

/-- A call of an operation with its arguments. -/
inductive Invocation where
  | get (table key : Value) (consistent : Bool)
  | put (table item expected : Value)
  | update (table key updates expected returned : Value)
  | delete (table key : Value)
  | query (table conditions : Value) (options : QueryOptions)
  | count (table conditions index : Value)
  | scan (table filter limit : Value)
  | readBatch (table keys : Value) (consistent : Bool) (order : Value)
  | writeBatch (table items : Value) (mode : Batch.Mode)
  | createTable (layout : Layout) (wait : Bool)

/-- The parts of the arguments of a call, in the order in which they are checked. -/
def Invocation.parts : Invocation → List (Except Fault Unit)
  | .get _ key _ => [check (Item.toNative key)]
  | .put _ item expected => check (Item.toNative item) :: conditionParts expected
  | .update _ key updates expected _ =>
    demand updates.isGiven .noUpdates :: check (Item.toNative key) ::
      check (Update.toNativeAll updates) :: conditionParts expected
  | .delete _ key => [check (Item.toNative key)]
  | .query _ conditions options =>
    demand conditions.isGiven (.noKeyCondition "query") :: check (checkLimit options.limit) ::
      check (Condition.toNativeAll conditions) ::
      ((if options.startKey.isNull then [] else [check (Item.toNative options.startKey)]) ++
        conditionParts options.filter)
  | .count _ conditions _ =>
    [demand conditions.isGiven (.noKeyCondition "count"), check (Condition.toNativeAll conditions)]
  | .scan _ filter limit => check (checkLimit limit) :: conditionParts filter
  | .readBatch _ keys _ order =>
    demand keys.isGiven (.emptyBatch "batch_get") :: check (Order.ofValue order) ::
      memberParts keys fun key => [check (Item.toNative key)]
  | .writeBatch _ items mode =>
    demand items.isGiven (.emptyBatch mode.operation) ::
      memberParts items fun item => [check (Item.toNative item)]
  | .createTable layout _ => layout.parts

/-- Carries out a call. A scan is only begun, which does not involve the store. -/
def perform (client : Client ω) (cancelled : Option (Run ω Bool)) : Invocation → Run ω Unit
  | .get table key consistent => do
    let _ ← client.get table key consistent
  | .put table item expected => do
    let _ ← client.put table item expected
  | .update table key updates expected returned => do
    let _ ← client.update table key updates expected returned
  | .delete table key => do
    let _ ← client.delete table key
  | .query table conditions options => do
    let _ ← client.query table conditions options
  | .count table conditions index => do
    let _ ← client.count table conditions index
  | .scan table filter limit => do
    let _ ← Client.scan table filter limit
  | .readBatch table keys consistent order => do
    let _ ← client.readBatch table keys consistent order cancelled
  | .writeBatch table items mode => client.writeBatch table items mode cancelled
  | .createTable layout wait => client.createTable layout wait

/-- What a call is refused by: a deletion looks up its method before its key is checked. -/
def refusals (client : Client ω) : Invocation → List (Except Fault Unit)
  | .delete table key =>
    demand (client.store.serves .deleteItem) .noSuchMember :: (Invocation.delete table key).parts
  | invocation => invocation.parts

variable (client : Client ω)

theorem refusedBy_get (table key : Value) (consistent : Bool) :
    RefusedBy (Invocation.get table key consistent).parts (client.get table key consistent) :=
  RefusedBy.lift_first (.single _) _

theorem refusedBy_put (table item expected : Value) :
    RefusedBy (Invocation.put table item expected).parts (client.put table item expected) := by
  apply RefusedBy.lift_bind (.single _)
  intro native _
  exact RefusedBy.lift_first (restsOn_conditionsNamed _ _) _

theorem refusedBy_update (table key updates expected returned : Value) :
    RefusedBy (Invocation.update table key updates expected returned).parts
      (client.update table key updates expected returned) := by
  apply RefusedBy.demand
  apply RefusedBy.lift_bind (.single _)
  intro native _
  apply RefusedBy.lift_bind (.single _)
  intro changes _
  exact RefusedBy.lift_first (restsOn_conditionsNamed _ _) _

theorem refusedBy_delete (table key : Value) :
    RefusedBy (client.refusals (.delete table key)) (client.delete table key) := by
  cases served : client.store.serves .deleteItem with
  | false =>
      intro fault failed
      rw [refusals, served] at failed
      cases failed
      rw [delete, Store.require, served]
      rfl
  | true =>
      rw [refusals, delete, Store.require, served]
      exact RefusedBy.lift_first (.single _) _

theorem refusedBy_query (table conditions : Value) (options : QueryOptions) :
    RefusedBy (Invocation.query table conditions options).parts
      (client.query table conditions options) := by
  apply RefusedBy.demand
  apply RefusedBy.lift_bind (.single _)
  intro _ _
  apply RefusedBy.lift_bind (.single _)
  intro keyConditions _
  split
  · exact RefusedBy.lift_bind (.ok _) fun start _ =>
      RefusedBy.lift_first (restsOn_conditionsNamed _ _) _
  · apply RefusedBy.lift_bind (.single _)
    intro start _
    exact RefusedBy.lift_bind (.ok _) fun start _ =>
      RefusedBy.lift_first (restsOn_conditionsNamed _ _) _

theorem refusedBy_count (table conditions index : Value) :
    RefusedBy (Invocation.count table conditions index).parts
      (client.count table conditions index) := by
  apply RefusedBy.demand
  exact RefusedBy.lift_first (.single _) _

theorem restsOn_scan (table filter limit : Value) :
    RestsOn (Invocation.scan table filter limit).parts (Client.scan table filter limit) := by
  apply (RestsOn.single (checkLimit limit)).bind
  intro _
  exact (restsOn_conditionsNamed "ScanFilter" filter).map _

theorem refusedBy_readBatch (table keys : Value) (consistent : Bool) (order : Value)
    (cancelled : Option (Run ω Bool)) :
    RefusedBy (Invocation.readBatch table keys consistent order).parts
      (client.readBatch table keys consistent order cancelled) := by
  apply RefusedBy.demand
  apply RefusedBy.lift_bind (.single _)
  intro _ _
  apply RefusedBy.lift_first
  apply restsOn_members
  intro members
  apply RestsOn.mapM
  intro key
  rw [check_toNative]
  exact (RestsOn.single (Item.encode key)).map _

theorem refusedBy_writeBatch (table items : Value) (mode : Batch.Mode)
    (cancelled : Option (Run ω Bool)) :
    RefusedBy (Invocation.writeBatch table items mode).parts
      (client.writeBatch table items mode cancelled) := by
  rw [writeBatch, Batch.write, Batch.Mode.ofValue_name]
  apply RefusedBy.lift_bind (.ok mode)
  rintro _ ⟨⟩
  apply RefusedBy.demand
  apply RefusedBy.lift_first
  apply restsOn_members
  intro members
  apply RestsOn.mapM
  intro item
  exact (RestsOn.single (Item.toNative item)).map _

theorem refusedBy_createTable (layout : Layout) (wait : Bool) :
    RefusedBy (Invocation.createTable layout wait).parts (client.createTable layout wait) :=
  RefusedBy.lift_first layout.restsOn_request _

/-- Every call is refused by its parts. -/
theorem refusedBy_perform (cancelled : Option (Run ω Bool)) (invocation : Invocation) :
    RefusedBy (client.refusals invocation) (client.perform cancelled invocation) := by
  cases invocation with
  | get table key consistent => exact (client.refusedBy_get table key consistent).bind _
  | put table item expected => exact (client.refusedBy_put table item expected).bind _
  | update table key updates expected returned =>
      exact (client.refusedBy_update table key updates expected returned).bind _
  | delete table key => exact (client.refusedBy_delete table key).bind _
  | query table conditions options => exact (client.refusedBy_query table conditions options).bind _
  | count table conditions index => exact (client.refusedBy_count table conditions index).bind _
  | scan table filter limit => exact RefusedBy.lift_first (restsOn_scan table filter limit) _
  | readBatch table keys consistent order =>
      exact (client.refusedBy_readBatch table keys consistent order cancelled).bind _
  | writeBatch table items mode => exact client.refusedBy_writeBatch table items mode cancelled
  | createTable layout wait => exact client.refusedBy_createTable layout wait

/-- Whether a call asks for a method that the store does not have before anything is checked. -/
def isUnserved : Invocation → Bool
  | .delete .. => !client.store.serves .deleteItem
  | _ => false

theorem verdict_refusals (invocation : Invocation) :
    verdict (client.refusals invocation) =
      if client.isUnserved invocation then .error .noSuchMember else verdict invocation.parts := by
  cases invocation with
  | delete table key =>
      rw [refusals, isUnserved]
      cases client.store.serves .deleteItem <;> rfl
  | _ => rfl

/-- A call that does nothing but fail: it leaves every world alone, and its journal shows neither a
call of the store nor a pause nor a question whether to go on. -/
structure FailsAtOnce (cancelled : Option (Run ω Bool)) (invocation : Invocation) (fault : Fault) :
    Prop where
  unchanged : ∀ world,
    (client.perform cancelled invocation).outcome world = (.error fault, world)
  silent : ∀ world, (client.journaled.perform
    (cancelled.map fun poll => poll.noting fun _ => .polled) invocation).outcome world =
      (.error fault, world)

theorem failsAtOnce_of_verdict {invocation : Invocation} {fault : Fault}
    (cancelled : Option (Run ω Bool))
    (refused : verdict (client.refusals invocation) = .error fault) :
    client.FailsAtOnce cancelled invocation fault where
  unchanged world := by
    rw [client.refusedBy_perform cancelled invocation fault refused]
    rfl
  silent world := by
    have same : client.journaled.refusals invocation = client.refusals invocation := by
      cases invocation <;> rfl
    rw [client.journaled.refusedBy_perform _ invocation fault (same ▸ refused)]
    rfl

/-- **Malformed arguments.** If some part of the arguments of a call is malformed, the call does
nothing but fail, with the fault of the first such part; a scan fails when it is begun. Only where
an item is to be deleted from a store that cannot delete, this is the fault. -/
theorem malformed_never_sent (cancelled : Option (Run ω Bool)) (invocation : Invocation)
    (malformed : ∃ part ∈ invocation.parts, part ≠ .ok ()) :
    ∃ before fault after, invocation.parts = before ++ .error fault :: after ∧
      (∀ part ∈ before, part = .ok ()) ∧
      client.FailsAtOnce cancelled invocation
        (if client.isUnserved invocation then .noSuchMember else fault) ∧
      ∀ table filter limit, invocation = .scan table filter limit →
        Client.scan table filter limit = .error fault := by
  obtain ⟨fault, first⟩ := exists_verdict_of_mem malformed
  obtain ⟨before, after, same, valid⟩ := (verdict_eq_error_iff _ _).mp first
  refine ⟨before, fault, after, same, valid, ?_, ?_⟩
  · apply client.failsAtOnce_of_verdict
    rw [client.verdict_refusals, first]
    split <;> rfl
  · rintro table filter limit rfl
    have rests := restsOn_scan table filter limit
    rw [RestsOn, first] at rests
    cases begun : Client.scan table filter limit with
    | error other =>
        rw [begun] at rests
        cases rests
        rfl
    | ok scan =>
        rw [begun] at rests
        cases rests

/-- A client of an echo store, which serves batches only. -/
def ofEchoStore : Client Echo where
  store := Echo.store
  retries := .int 0
  pause := none
  clock _ := .one
  waitTimeout := .int 0
  pollInterval := .int 0

/-- A malformed item after two well-formed ones. -/
def thirdMalformed : Invocation :=
  .writeBatch (.text "t")
    (.list [.map [(.text "id::N", .int 1)], .map [(.text "id::N", .int 2)],
      .map [(.text "", .int 3)]]) .put

/-- Nothing of a batch is sent whose third item is malformed. -/
theorem malformed_never_sent_third_item :
    (∃ part ∈ thirdMalformed.parts, part ≠ .ok ()) ∧
      ∃ before fault after, thirdMalformed.parts = before ++ .error fault :: after ∧
        (∀ part ∈ before, part = .ok ()) ∧
        ofEchoStore.FailsAtOnce none thirdMalformed
          (if ofEchoStore.isUnserved thirdMalformed then .noSuchMember else fault) ∧
        ∀ table filter limit, thirdMalformed = .scan table filter limit →
          Client.scan table filter limit = .error fault := by
  have malformed : ∃ part ∈ thirdMalformed.parts, part ≠ .ok () :=
    ⟨.error (.emptyToken (.text "")), .tail _ (.tail _ (.tail _ (.head _))), nofun⟩
  exact ⟨malformed, ofEchoStore.malformed_never_sent none thirdMalformed malformed⟩

/-- A deletion with a malformed key from a store that cannot delete: that the store cannot delete is
told, and not that the key is malformed. -/
theorem deletion_looks_up_first :
    (Invocation.delete (.text "t") (.map [(.text "", .int 1)])).parts =
        [.error (.emptyToken (.text ""))] ∧
      ∀ echo, (ofEchoStore.perform none
          (.delete (.text "t") (.map [(.text "", .int 1)]))).outcome echo =
        (.error .noSuchMember, echo) ∧
          (.noSuchMember : Fault) ≠ .emptyToken (.text "") := by
  refine ⟨rfl, fun echo => ⟨rfl, nofun⟩⟩

end Client

end TokenTable
