import TokenTable.Client.Scan
import TokenTable.Client.Tables
import TokenTable.Proofs.Batch.Alike

/-! # Clients that do the same

A client uses its world only through its store, its pauses and its clock. So every operation does
the same for two clients whose stores and pauses do the same and whose clocks tell the same time.
Each operation has its lemma here; those that ask again and again, for the next page or until a
table is ready, go by induction on the bound of their questions.
-/

namespace TokenTable

variable {ω ω' : Type} {R : ω → ω' → Prop}

namespace Scan

variable {store : Store ω} {store' : Store ω'}

theorem ask_alike (stores : store.Alike R store') (scan : Scan) :
    Run.Alike R (scan.ask store) (scan.ask store') := by
  apply (stores.send .scan _).bind
  intro response
  apply Run.Alike.lift_bind
  intro found
  apply Run.Alike.lift_bind
  intro natives
  exact .lift_bind _ fun resume => .pure _

/-- The next item of a scan is the same from both stores. -/
theorem next_alike (stores : store.Alike R store') (pages : Nat) (scan : Scan) :
    Run.Alike R (scan.next store pages) (scan.next store' pages) := by
  induction pages generalizing scan with
  | zero =>
      unfold next
      apply Run.Alike.lift_bind
      rintro ⟨item, after⟩
      by_cases settled : (item.isSome || after.isFinished) = true
      · simp only [settled, ↓reduceIte]
        exact .pure _
      · simp only [settled, Bool.false_eq_true, ↓reduceIte]
        exact .throw _
  | succ pages ih =>
      unfold next
      apply Run.Alike.lift_bind
      rintro ⟨item, after⟩
      by_cases settled : (item.isSome || after.isFinished) = true
      · simp only [settled, ↓reduceIte]
        exact .pure _
      · simp only [settled, Bool.false_eq_true, ↓reduceIte]
        exact (ask_alike stores after).bind fun asked => ih asked

end Scan

namespace Client

/-- Two clients are set up alike, and their stores, pauses and clocks do the same. -/
structure Alike (R : ω → ω' → Prop) (first : Client ω) (second : Client ω') : Prop where
  store : first.store.Alike R second.store
  retries : first.retries = second.retries
  pause : Batch.PausesAlike R first.pause second.pause
  clock : ∀ world world', R world world' → first.clock world = second.clock world'
  waitTimeout : first.waitTimeout = second.waitTimeout
  pollInterval : first.pollInterval = second.pollInterval

namespace Alike

variable {first : Client ω} {second : Client ω'}

theorem control (alike : first.Alike R second) {cancelled : Option (Run ω Bool)}
    {cancelled' : Option (Run ω' Bool)} (polls : Option.Rel (Run.Alike R) cancelled cancelled') :
    (first.control cancelled).Alike R (second.control cancelled') :=
  ⟨alike.retries, alike.pause, polls⟩

/-! ### Items -/

theorem get (alike : first.Alike R second) (table key : Value) (consistent : Bool) :
    Run.Alike R (first.get table key consistent) (second.get table key consistent) := by
  apply Run.Alike.lift_bind
  intro native
  apply (alike.store.send .getItem _).bind
  intro response
  apply Run.Alike.lift_bind
  intro item
  exact .lift _

theorem put (alike : first.Alike R second) (table item expected : Value) :
    Run.Alike R (first.put table item expected) (second.put table item expected) := by
  apply Run.Alike.lift_bind
  intro native
  apply Run.Alike.lift_bind
  intro conditions
  exact ((alike.store.send .putItem _).bind fun _ => .pure true).excusing _ false

theorem update (alike : first.Alike R second) (table key updates expected returned : Value) :
    Run.Alike R (first.update table key updates expected returned)
      (second.update table key updates expected returned) := by
  unfold Client.update
  split
  · exact .throw _
  apply Run.Alike.lift_bind
  intro native
  apply Run.Alike.lift_bind
  intro changes
  apply Run.Alike.lift_bind
  intro conditions
  have sent := (alike.store.send .updateItem
    ([("TableName", table), ("Key", native), ("AttributeUpdates", changes),
      ("ReturnValues", returned)] ++ conditions)).bind fun response => .pure (some response)
  apply (sent.excusing Rejection.isConditionFailed none).bind
  intro response
  cases response with
  | none => exact .pure none
  | some response => exact .lift_bind _ fun attributes => .lift _

theorem delete (alike : first.Alike R second) (table key : Value) :
    Run.Alike R (first.delete table key) (second.delete table key) := by
  apply (alike.store.require .deleteItem).bind
  intro _
  apply Run.Alike.lift_bind
  intro native
  apply (alike.store.send .deleteItem _).bind
  intro response
  exact .lift_bind _ fun attributes => .lift _

theorem query (alike : first.Alike R second) (table conditions : Value) (options : QueryOptions) :
    Run.Alike R (first.query table conditions options) (second.query table conditions options) := by
  unfold Client.query
  by_cases missing : (!conditions.isGiven) = true
  · simp only [missing, ↓reduceIte]
    exact .throw _
  simp only [missing, Bool.false_eq_true, ↓reduceIte]
  apply Run.Alike.lift_bind
  intro _
  apply Run.Alike.lift_bind
  intro keyConditions
  have sent : ∀ start : Request, Run.Alike R _ _ := fun start =>
    .lift_bind (conditionsNamed "QueryFilter" options.filter) fun filter =>
      (alike.store.send .query
        ([("TableName", table), ("KeyConditions", keyConditions),
          ("ScanIndexForward", options.forward)] ++
        sentUnlessNull "Limit" options.limit ++
        sentUnlessNull "ConsistentRead" options.consistent ++
        sentUnlessNull "IndexName" options.index ++ start ++ filter)).bind fun response =>
      .lift_bind (response.getD "Items" (.list [])) fun found =>
      .lift_bind found.elements fun natives => .lift (Item.decodeAll natives)
  split
  · exact .lift_bind _ sent
  · apply Run.Alike.lift_bind
    intro start
    exact .lift_bind _ sent

theorem countPages (stores : first.store.Alike R second.store) (pages : Nat) (request : Request)
    (total : Int) :
    Run.Alike R (Client.countPages first.store pages request total)
      (Client.countPages second.store pages request total) := by
  induction pages generalizing request total with
  | zero => exact .throw _
  | succ pages ih =>
      apply (stores.send .query _).bind
      intro response
      apply Run.Alike.lift_bind
      intro found
      apply Run.Alike.lift_bind
      intro number
      apply Run.Alike.lift_bind
      intro last
      split
      · exact ih _ _
      · exact .pure _

theorem count (alike : first.Alike R second) (table conditions index : Value) :
    Run.Alike R (first.count table conditions index) (second.count table conditions index) := by
  unfold Client.count
  split
  · exact .throw _
  apply Run.Alike.lift_bind
  intro keyConditions
  exact alike.store.limit.bind fun pages => countPages alike.store pages _ 0

theorem readBatch (alike : first.Alike R second) {cancelled : Option (Run ω Bool)}
    {cancelled' : Option (Run ω' Bool)} (polls : Option.Rel (Run.Alike R) cancelled cancelled')
    (table keys : Value) (consistent : Bool) (order : Value) :
    Run.Alike R (first.readBatch table keys consistent order cancelled)
      (second.readBatch table keys consistent order cancelled') :=
  Batch.read_alike alike.store (alike.control polls) table keys consistent order

theorem writeBatch (alike : first.Alike R second) {cancelled : Option (Run ω Bool)}
    {cancelled' : Option (Run ω' Bool)} (polls : Option.Rel (Run.Alike R) cancelled cancelled')
    (table items : Value) (mode : Batch.Mode) :
    Run.Alike R (first.writeBatch table items mode cancelled)
      (second.writeBatch table items mode cancelled') :=
  Batch.write_alike alike.store (alike.control polls) table items _

/-! ### Tables -/

theorem describe (alike : first.Alike R second) (table : Value) :
    Run.Alike R (first.describe table) (second.describe table) :=
  alike.store.send .describeTable _

theorem tableExists (alike : first.Alike R second) (table : Value) :
    Run.Alike R (first.tableExists table) (second.tableExists table) :=
  ((alike.describe table).bind fun _ => .pure true).excusing _ false

theorem rest (alike : first.Alike R second) : Run.Alike R first.rest second.rest := by
  unfold Client.rest
  rw [alike.pollInterval]
  generalize hooks : first.pause = pause, hooks' : second.pause = pause'
  have pauses := alike.pause
  rw [hooks, hooks'] at pauses
  cases pauses with
  | none => exact .pure ()
  | some pausing => exact pausing _

/-- Asking until the answer is decisive is the same for both clients. -/
theorem poll (alike : first.Alike R second) {decisive : Run ω Bool} {decisive' : Run ω' Bool}
    (asked : Run.Alike R decisive decisive') (late : Fault) (deadline : Binary64)
    (questions : Nat) :
    Run.Alike R (first.poll decisive late deadline questions)
      (second.poll decisive' late deadline questions) := by
  induction questions with
  | zero => exact .throw _
  | succ questions ih =>
      unfold Client.poll
      apply Run.Alike.world_bind
      intro world world' related
      rw [alike.clock world world' related]
      split
      · exact .throw _
      apply asked.bind
      intro answer
      split
      · exact .pure ()
      · exact alike.rest.bind fun _ => ih

theorem await (alike : first.Alike R second) {decisive : Run ω Bool} {decisive' : Run ω' Bool}
    (asked : Run.Alike R decisive decisive') (late : Fault) :
    Run.Alike R (first.await decisive late) (second.await decisive' late) := by
  unfold Client.await
  rw [alike.waitTimeout]
  apply Run.Alike.lift_bind
  intro timeout
  apply Run.Alike.world_bind
  intro world world' related
  rw [alike.clock world world' related]
  exact alike.store.limit.bind fun questions => alike.poll asked late _ questions

theorem isActive (alike : first.Alike R second) (table : Value) :
    Run.Alike R (first.isActive table) (second.isActive table) := by
  apply ((alike.describe table).excusing Rejection.isTableMissing (.map [])).bind
  intro description
  exact .lift_bind _ fun status => .pure _

theorem awaitActive (alike : first.Alike R second) (table : Value) :
    Run.Alike R (first.awaitActive table) (second.awaitActive table) :=
  alike.await (alike.isActive table) _

theorem awaitDeleted (alike : first.Alike R second) (table : Value) :
    Run.Alike R (first.awaitDeleted table) (second.awaitDeleted table) :=
  alike.await ((alike.tableExists table).bind fun stands => .pure (!stands)) _

theorem createTable (alike : first.Alike R second) (layout : Layout) (wait : Bool) :
    Run.Alike R (first.createTable layout wait) (second.createTable layout wait) := by
  apply Run.Alike.lift_bind
  intro request
  have sent := (alike.store.send .createTable request).bind fun _ => .pure ()
  apply (sent.excusing (fun rejection => rejection.code == Rejection.tableInUse) ()).bind
  intro _
  split
  · exact alike.awaitActive _
  · exact .pure ()

theorem deleteTable (alike : first.Alike R second) (table : Value) (wait ignoreMissing : Bool) :
    Run.Alike R (first.deleteTable table wait ignoreMissing)
      (second.deleteTable table wait ignoreMissing) := by
  have sent := (alike.store.send .deleteTable [("TableName", table)]).bind fun _ => .pure true
  apply (sent.excusing (fun rejection => ignoreMissing && rejection.isTableMissing) false).bind
  intro deleted
  split
  · exact alike.awaitDeleted table
  · exact .pure ()

theorem gatherKeys (stores : first.store.Alike R second.store) (names : List String) (pages : Nat)
    (request : Request) :
    Run.Alike R (Client.gatherKeys first.store names pages request)
      (Client.gatherKeys second.store names pages request) := by
  induction pages generalizing request with
  | zero => exact .throw _
  | succ pages ih =>
      apply (stores.send .scan _).bind
      intro response
      apply Run.Alike.lift_bind
      intro found
      apply Run.Alike.lift_bind
      intro natives
      apply Run.Alike.lift_bind
      intro keys
      apply Run.Alike.lift_bind
      intro last
      split
      · exact (ih _).bind fun others => .pure _
      · exact .pure _

theorem emptyTable (alike : first.Alike R second) (table : Value) :
    Run.Alike R (first.emptyTable table) (second.emptyTable table) := by
  unfold Client.emptyTable
  apply (alike.describe table).bind
  intro description
  apply Run.Alike.lift_bind
  intro names
  split
  · exact .throw _
  apply alike.store.limit.bind
  intro pages
  apply (gatherKeys alike.store names pages _).bind
  intro keys
  exact Batch.deleteNative_alike alike.store (alike.control .none) table keys

end Alike

end Client

end TokenTable
