import TokenTable.Proofs.Batch.LastPage
import TokenTable.Proofs.Client.Emptying
import TokenTable.Proofs.Item.RoundTrip

/-! # Tables that are not emptied

A table is emptied with the keys as the store spells them, and a deletion that gives up reports them
in token form. A reported key is read back as itself exactly when each of its names fits the kind of
its value; the names are those of the table's schema, which are never read as tokens
(`reported_of_wellFormed`). Keys that fit may be handed to a deletion once more, and it begins with
just these. Main statement: `emptyTable_gives_up`.
-/

namespace TokenTable

open Run

variable {ω : Type}

/-- The native form of a single text, number or byte string. -/
def Value.IsSingle (v : Value) : Prop :=
  ∃ (element : ScalarKind) (payload : Value), element.Admits payload ∧
    v = (Attribute.scalar element payload).toNative

theorem Value.IsSingle.isTyped {v : Value} (single : v.IsSingle) : v.IsTyped := by
  obtain ⟨element, payload, admits, same⟩ := single
  exact ⟨.scalar element payload, admits, same⟩

/-- An item all of whose names are read back from their tokens under the kinds of their values. -/
def NativeItem.Fits (item : NativeItem) : Prop := ∀ field ∈ item, Token.Fits ⟨field.1, field.2.kind⟩

namespace Client

open Batch

/-- The request to delete under a key. -/
def deletion (key : NativeItem) : Value := Mode.delete.request key.toValue

/-- A key in token form, as it is reported: it is the same key once more exactly when its names
fit. -/
structure Reported (names : List String) (key : NativeItem) (source : Value) : Prop where
  wellFormed : key.WellFormed
  named : ∀ name, name ∈ key.map Prod.fst ↔ name ∈ names
  spelled : Item.toTokens key.toValue = .ok source
  same_iff : (∃ back, Item.toNative source = .ok back ∧ key.toValue.same back = true) ↔ key.Fits
  exact : key.Fits → Item.toNative source = .ok key.toValue

theorem encode_of_fits {key : NativeItem} {source : Value} (wellFormed : key.WellFormed)
    (fits : key.Fits) (spelled : Item.toTokens key.toValue = .ok source) :
    Item.encode source = .ok key := by
  rw [Item.toTokens_toValue wellFormed fits] at spelled
  cases spelled
  exact Item.encode_tokens wellFormed fits

theorem reported_of_wellFormed {names : List String} {key : NativeItem} {source : Value}
    (wellFormed : key.WellFormed) (named : ∀ name, name ∈ key.map Prod.fst ↔ name ∈ names)
    (spelled : Item.toTokens key.toValue = .ok source) : Reported names key source := by
  have exact : key.Fits → Item.toNative source = .ok key.toValue := fun fits =>
    (bind_eq_ok_iff _ _ _).mpr ⟨key, encode_of_fits wellFormed fits spelled, rfl⟩
  refine ⟨wellFormed, named, spelled, ⟨?_, fun fits => ?_⟩, exact⟩
  · rintro ⟨back, read, agree⟩
    have done : Item.throughTokens key.toValue = .ok back :=
      (bind_eq_ok_iff _ _ _).mpr ⟨source, spelled, read⟩
    exact Item.fits_of_throughTokens done agree
  · exact ⟨key.toValue, exact fits, NativeItem.same_toValue_self wellFormed⟩

/-- What is reported of some entries to delete are their keys in token form. -/
structure FromKey (names : List String) (entry : Entry) (key : NativeItem) : Prop where
  native : entry.native = deletion key
  reported : Reported names key entry.source

theorem exists_key_of_deleteEntries {names : List String} {natives keys : List Value}
    {entries : List Entry} (keyed : natives.mapM (keyOf names) = .ok keys)
    (single : ∀ native ∈ natives, ∀ name ∈ names, ∀ value, native.index name = .ok value →
      value.IsSingle)
    (made : deleteEntries keys = .ok entries) :
    ∀ entry ∈ entries, ∃ key, FromKey names entry key := by
  intro entry member
  obtain ⟨key, inside, done⟩ := exists_of_mem_mapM made member
  obtain ⟨source, spelled, done⟩ := (bind_eq_ok_iff _ _ _).mp done
  cases done
  obtain ⟨native, scanned, projected⟩ := exists_of_mem_mapM keyed inside
  obtain ⟨item, rfl, wellFormed, named⟩ :=
    exists_item_of_isKeyOf (isKeyOf_of_keyOf projected) fun name among value found =>
      (single native scanned name among value found).isTyped
  exact ⟨item, rfl, reported_of_wellFormed wellFormed named spelled⟩

theorem FromKey.hasPlainMark {names : List String} {entry : Entry} {key : NativeItem}
    (fromKey : FromKey names entry key) : entry.HasPlainMark := by
  intro value done
  rw [fromKey.native] at done
  exact isPlain_fingerprint_request .delete key
    (fun field member => Attribute.encoded_of_wellTyped
      (fromKey.reported.wellFormed.typed field member)) value done

theorem ordinary_send {store : Store ω} {method : Method}
    (answers : ∀ request, Run.Ordinary (store.answer method request)) (request : Request) :
    Run.Ordinary (store.send method request) := by
  intro world
  rw [Store.outcome_send]
  split
  · exact answers request world
  · exact .error rfl

/-- Gathering keys never ends with the report of a batch. -/
theorem ordinary_gatherKeys {store : Store ω}
    (answers : ∀ request, Run.Ordinary (store.answer .scan request)) (names : List String)
    (pages : Nat) (request : Request) : Run.Ordinary (gatherKeys store names pages request) := by
  induction pages generalizing request with
  | zero => exact fun _ => .error rfl
  | succ pages ih =>
      have project : ∀ native, FailsOnly Fault.Ordinary (keyOf names native) := fun native =>
        (FailsOnly.mapM fun name _ =>
          (Value.ordinary_index native name).bind fun _ => .pure _).bind fun _ => .pure _
      apply (ordinary_send answers request).bind
      intro response
      apply (Run.Ordinary.lift (Value.ordinary_findD _ _ _)).bind
      intro items
      apply (Run.Ordinary.lift (Value.ordinary_elements _)).bind
      intro natives
      apply (Run.Ordinary.lift (FailsOnly.mapM fun native _ => project native)).bind
      intro keys
      apply (Run.Ordinary.lift (Value.ordinary_findD _ _ _)).bind
      intro last
      split
      · exact (ih _).bind fun _ => .pure _
      · exact .pure _

/-- A deletion adds calls behind those made before. -/
theorem exists_added_of_deleteNative {store : Store ω} {table : String} {keys : List Value}
    {control : Control ω} {before after : Journaled ω Exchange} {result : Except Fault Nat}
    (run : (deleteNative store.journaled (.text table) keys control.journaled).outcome before =
      (result, after)) : ∃ added, Event.calls after.2 = Event.calls before.2 ++ added := by
  have appends : SendsOnly (fun _ _ => True)
      (deleteNative store.journaled (.text table) keys control.journaled) := by
    apply (SendsOnly.lift _).bind
    intro entries
    split
    · apply SendsOnly.bind
      · intro world
        obtain ⟨added, same, _⟩ := sendsOnly_writeEntries store table entries control world
        exact ⟨added, same, fun _ _ => trivial⟩
      · exact fun _ => SendsOnly.pure _
    · exact SendsOnly.pure _
  obtain ⟨added, same, _⟩ := appends before
  rw [run] at same
  refine ⟨Event.calls added, ?_⟩
  rw [← Event.calls_append, ← same]

theorem mem_scannedIn_iff (scans : List Exchange) (native : Value) :
    native ∈ scannedIn scans ↔ ∃ scan ∈ scans, native ∈ scannedIn [scan] := by
  simp [scannedIn]

/-- Lists of members among which a function tells members apart are the same if their images
are. -/
theorem eq_of_map_eq {α β : Type} {f : α → β} {among first second : List α}
    (apart : ∀ a ∈ among, ∀ b ∈ among, f a = f b → a = b) (inFirst : ∀ a ∈ first, a ∈ among)
    (inSecond : ∀ a ∈ second, a ∈ among) (same : first.map f = second.map f) : first = second := by
  induction first generalizing second with
  | nil => exact (List.map_eq_nil_iff.mp same.symm).symm
  | cons a rest ih =>
      cases second with
      | nil => cases same
      | cons b others =>
          rw [List.forall_mem_cons] at inFirst inSecond
          obtain ⟨head, tail⟩ := List.cons.inj same
          rw [apart a inFirst.1 b inSecond.1 head, ih inFirst.2 inSecond.2 tail]

/-- What a table that could not be emptied reports, beside the last page of deletions and what the
store replied to it. -/
structure GivesUpOn (client : Client ω) (table : String) (names : List String) (page : List Value)
    (reply : Reply) (left : List NativeItem) (unprocessed : List Value) : Prop where
  /-- The keys that are left are on the page, no place of which is used twice. -/
  among : (left.map deletion).Subperm page
  /-- They are, one by one and by fingerprint, what the store left unprocessed. -/
  marked : reply.returned.map mark = (left.map deletion).map mark
  returned : (∀ first ∈ page, ∀ second ∈ page, mark first = mark second → first = second) →
    (∀ native ∈ reply.returned, native ∈ page) → reply.returned = left.map deletion
  reported : List.Forall₂ (Reported names) left unprocessed
  /-- Handed to a deletion once more, they are sent at once. -/
  resubmitted : (∀ key ∈ left, key.Fits) →
    BeginsWith ((Operation.write .delete).Carries table (left.map deletion))
      (client.journaled.writeBatch (.text table) (.list unprocessed) .delete none)

/-- What is left of a page, handed to a deletion once more, is sent at once. -/
theorem beginsWith_writeBatch {client : Client ω} {table : String} {names : List String}
    {entries page left : List Entry} {last : Exchange} {reply : Reply} {keys : List NativeItem}
    (allowed : ∀ answers, ∃ retries, retriesOf answers client.retries = .ok retries)
    (givesUp : (Operation.write .delete).GivesUp client.store table entries page left last reply)
    (each : List.Forall₂ (FromKey names) left keys) (fits : ∀ key ∈ keys, key.Fits) :
    BeginsWith ((Operation.write .delete).Carries table (keys.map deletion))
      (client.journaled.writeBatch (.text table) (.list (left.map Entry.source)) .delete none) := by
  have encoded : ((Value.list (left.map Entry.source)).elements >>= fun sources =>
      sources.mapM Item.encode) = .ok keys := by
    refine (bind_eq_ok_iff _ _ _).mpr ⟨_, rfl, mapM_of_forall₂ ?_⟩
    have both := (List.forall₂_and_left keys left).mpr ⟨fits, each.flip⟩
    refine List.forall₂_map_left_iff.mpr (both.flip.imp fun entry key held => ?_)
    exact encode_of_fits held.2.reported.wellFormed held.1 held.2.reported.spelled
  obtain ⟨again, translates, natives⟩ :=
    (Operation.write .delete).entriesOf_of_encode encoded
  have count : again.length = left.length := by
    rw [← List.length_map (f := Entry.native), natives, List.length_map, each.length_eq]
  have some : again ≠ [] := by
    rw [← List.length_pos_iff, count]
    exact List.length_pos_iff.mpr givesUp.proper
  have few : again.length ≤ (Operation.write .delete).pageSize := by
    have within := givesUp.isPage.within
    rw [List.length_map] at within
    rw [count]
    exact givesUp.part.length_le.trans within
  have checked : (Operation.write .delete).check (.list (left.map Entry.source)) = .ok () := by
    have given : (Value.list (left.map Entry.source)).isGiven = true := by
      rw [Value.isGiven, Bool.not_eq_true', List.isEmpty_eq_false_iff, ne_eq, List.map_eq_nil_iff]
      exact givesUp.proper
    rw [Operation.check, if_pos given]
  have begins : BeginsWith
      ((Operation.write .delete).Carries table (again.map Entry.native))
      ((Operation.write .delete).perform client.store.journaled table
        (.list (left.map Entry.source)) (client.control none).journaled) :=
    Operation.beginsWith_perform translates checked allowed givesUp.served rfl some few
  rw [natives] at begins
  exact BeginsWith.of_map begins

theorem givesUpOn_of_givesUp {client : Client ω} {table : String} {names : List String}
    {entries page left : List Entry} {last : Exchange} {reply : Reply}
    (fromKeys : ∀ entry ∈ entries, ∃ key, FromKey names entry key)
    (allowed : ∀ answers, ∃ retries, retriesOf answers client.retries = .ok retries)
    (givesUp : (Operation.write .delete).GivesUp client.store table entries page left last reply) :
    ∃ keys : List NativeItem, GivesUpOn client table names (page.map Entry.native) reply keys
      (left.map Entry.source) := by
  obtain ⟨keys, each⟩ : ∃ keys : List NativeItem, List.Forall₂ (FromKey names) left keys :=
    exists_forall₂ fun entry member =>
      fromKeys entry (givesUp.inside entry (givesUp.part.subset member))
  have natives : left.map Entry.native = keys.map deletion := by
    clear givesUp
    induction each with
    | nil => rfl
    | cons first _ ih => rw [List.map_cons, List.map_cons, first.native, ih]
  have among : (keys.map deletion).Subperm (page.map Entry.native) := by
    obtain ⟨chosen, perm, sub⟩ := givesUp.part
    rw [← natives]
    exact ⟨chosen.map Entry.native, perm.map Entry.native, sub.map Entry.native⟩
  have marked : reply.returned.map mark = (keys.map deletion).map mark := by
    rw [givesUp.marked, ← natives, List.map_map]
    rfl
  refine ⟨keys, among, marked, fun apart sent => eq_of_map_eq apart sent among.subset marked, ?_,
    fun fits => ?_⟩
  · exact List.forall₂_map_right_iff.mpr (each.flip.imp fun _ _ fromKey => fromKey.reported)
  · exact beginsWith_writeBatch allowed givesUp each fits

/-- **A table that is not emptied.** Let a table be described, let its keys be single values, and
let the store hand back no deletion, by fingerprint, that it was not sent. If emptying the table
gives up, it does so after a page of deletions: the keys it reports are those that the reply to this
page left, one for each that came back. The token form of a key is the same key once more exactly
when every name of the schema fits the kind of its value; and if all fit, a deletion under the
reported keys begins with just these. -/
theorem emptyTable_gives_up (client : Client ω) (table : String) {description : Value}
    {names : List String} {world described : ω}
    (describes : (client.describe (.text table)).outcome world = (.ok description, described))
    (schema : keyNames description = .ok names)
    (honest : (Operation.write .delete).Honest client.store table)
    (own : ∀ method, OwnFaults client.store method (client.control none))
    {name : String} {unprocessed reported : List Value} {after : Journaled ω Exchange}
    (run : (client.journaled.emptyTable (.text table)).outcome (world, []) =
      (.error (.partialBatch name unprocessed reported), after))
    (single : ∀ scan ∈ Event.calls after.2, ∀ native ∈ scannedIn [scan], ∀ key ∈ names, ∀ value,
      native.index key = .ok value → value.IsSingle) :
    ∃ earlier last page reply left, Event.calls after.2 = earlier ++ [last] ∧
      (Operation.write .delete).Exchanged client.store table page last reply ∧
        GivesUpOn client table names page reply left unprocessed := by
  rw [emptyTable, outcome_bind, outcome_describe_journaled describes] at run
  cases named : names.isEmpty with
  | true =>
      simp only [outcome_bind, outcome_lift, schema, named, ↓reduceIte, outcome_throw] at run
      cases run
  | false =>
      simp only [outcome_bind, outcome_lift, schema, named, Bool.false_eq_true, ↓reduceIte,
        Store.outcome_limit] at run
      split at run
      · rename_i keys middle gathering
        obtain ⟨scans, journal, gathers⟩ := gathers_of_outcome gathering
        obtain ⟨_, projected⟩ := gathers.scanned_of_ok rfl
        change (deleteNative client.store.journaled (.text table) keys
          (client.control none).journaled).outcome middle = _ at run
        have called : Event.calls middle.2 =
            ⟨.describeTable, [("TableName", .text table)], .ok description⟩ :: scans := by
          rw [journal, Event.calls_append, Event.calls_map_called]
          rfl
        obtain ⟨added, appended⟩ := exists_added_of_deleteNative run
        have fromKeys : ∀ entries, deleteEntries keys = .ok entries →
            ∀ entry ∈ entries, ∃ key, FromKey names entry key := by
          refine fun entries made => exists_key_of_deleteEntries projected ?_ made
          intro native member
          obtain ⟨scan, inside, scanned⟩ := (mem_scannedIn_iff scans native).mp member
          refine single scan ?_ native scanned
          rw [appended, called]
          exact List.mem_append_left _ (List.mem_cons_of_mem _ inside)
        have plain : ∀ entries, deleteEntries keys = .ok entries →
            ∀ entry ∈ entries, entry.HasPlainMark := by
          intro entries made entry member
          obtain ⟨key, fromKey⟩ := fromKeys entries made entry member
          exact fromKey.hasPlainMark
        obtain ⟨entries, made, ⟨answers, retries, allowed⟩, earlier, last, reply, page, left, calls,
          givesUp, rfl⟩ := exists_givesUp_of_deleteNative honest (own .writeBatch) plain run
        obtain ⟨kept, leaves⟩ :=
          givesUpOn_of_givesUp (fromKeys entries made) (exists_retries allowed) givesUp
        exact ⟨_, last, _, reply, kept, calls, givesUp.exchanged, leaves⟩
      · rename_i fault middle gathering
        cases run
        have answers := fun request => (own .scan).journaled.answer request
        cases (ordinary_gatherKeys answers names _ _).of_outcome gathering

theorem honest_emptiedStore (description : Value) :
    (Operation.write .delete).Honest (emptiedStore description) "t" :=
  fun page exchange reply exchanged =>
    Operation.honest_scheduledStore (.write .delete) "t" page exchange reply
      (exchanged_of_emptiedStore exchanged)

theorem ownFaults_emptiedStore (description : Value) (method : Method) (maxRetries : Value) :
    OwnFaults (emptiedStore description) method ⟨maxRetries, none, none⟩ where
  answer request := by
    intro world
    cases method with
    | scan =>
        rcases world with ⟨_ | ⟨response, rest⟩, schedule⟩
        · exact .error rfl
        · exact .ok response
    | writeBatch =>
        have own := Operation.ownFaults_scheduledStore (.write .delete) "t" maxRetries
        exact own.answer request world.2
    | _ => exact .ok description
  pause pause hook := by cases hook
  poll poll hook := by cases hook

/-- Whether a native holds a single text or number under a name, or nothing. -/
def holdsSingle (name : String) (native : Value) : Bool :=
  match native.index name with
  | .ok (.map [(.text "S", .text _)]) | .ok (.map [(.text "N", .text _)]) => true
  | .ok _ => false
  | .error _ => true

theorem isSingle_of_holdsSingle {name : String} {native value : Value}
    (holds : holdsSingle name native = true) (found : native.index name = .ok value) :
    value.IsSingle := by
  rw [holdsSingle, found] at holds
  split at holds
  · rename_i same
    cases same
    exact ⟨.text, _, ⟨_, rfl⟩, rfl⟩
  · rename_i same
    cases same
    exact ⟨.number, _, ⟨_, rfl⟩, rfl⟩
  · cases holds
  · rename_i same
    cases same

def schemaNamed (name : String) : Value :=
  .record [("Table", .record [("KeySchema", .list [.record [("AttributeName", .text name)]])])]

/-- A client that does not retry, of a store whose table has one key attribute with a name. -/
def stubbornClient (name : String) : Client (List Value × List Nat) :=
  { emptyingClient with store := emptiedStore (schemaNamed name), retries := .int 0 }

/-- A table with one item, whose key is a number under a name, and whose first deletion comes
back. -/
def numberUnder (name : String) : List Value × List Nat :=
  ([pageResponse [.record [(name, .record [("N", .text "7")])]] .null], [1])

/-- Empties that table. -/
def emptyNumber (name : String) :
    Except Fault Nat × Journaled (List Value × List Nat) Exchange :=
  ((stubbornClient name).journaled.emptyTable (.text "t")).outcome (numberUnder name, [])

/-- Whether the report of a batch that gave up is that of a number under a token. -/
def reportsToken (token : String) : Except Fault Nat → Bool
  | .error (.partialBatch _ [.map [(.text found, .text "7")]] _) => found == token
  | _ => false

theorem exists_of_reportsToken {token : String} {ending : Except Fault Nat}
    (reports : reportsToken token ending = true) : ∃ name reported,
      ending = .error (.partialBatch name [.map [(.text token, .text "7")]] reported) := by
  unfold reportsToken at reports
  split at reports
  · rw [beq_iff_eq] at reports
    subst reports
    exact ⟨_, _, rfl⟩
  · cases reports

/-- A key under an ordinary name is reported so that it can be deleted under once more. -/
theorem emptyTable_gives_up_id :
    ∃ name reported after,
      emptyNumber "id" =
        (.error (.partialBatch name [.map [(.text "id::N", .text "7")]] reported), after) ∧
      ∃ earlier last page reply left, Event.calls after.2 = earlier ++ [last] ∧
        (Operation.write .delete).Exchanged (stubbornClient "id").store "t" page last reply ∧
          GivesUpOn (stubbornClient "id") "t" ["id"] page reply left
            [.map [(.text "id::N", .text "7")]] := by
  have gives : reportsToken "id::N" (emptyNumber "id").1 = true := by decide +kernel
  obtain ⟨name, reported, gives⟩ := exists_of_reportsToken gives
  have run : emptyNumber "id" =
    (.error (.partialBatch name [.map [(.text "id::N", .text "7")]] reported), _) :=
      Prod.ext gives rfl
  refine ⟨name, reported, _, run, ?_⟩
  have schema : keyNames (schemaNamed "id") = .ok ["id"] := rfl
  refine emptyTable_gives_up (stubbornClient "id") "t" rfl schema (honest_emptiedStore _)
    (fun method => ownFaults_emptiedStore _ method _) run ?_
  have all : ((Event.calls (emptyNumber "id").2.2).all fun scan =>
      (scannedIn [scan]).all (holdsSingle "id")) = true := by decide +kernel
  intro scan called native scanned key named value found
  rw [List.mem_singleton] at named
  subst named
  have holds := List.all_eq_true.mp (List.all_eq_true.mp all scan called) native scanned
  exact isSingle_of_holdsSingle holds found

/-- A key under a name with a separator is reported under a token that is read as another name: what
it is translated to is not the key that the store left. -/
theorem reported_key_of_another_name :
    ∃ name reported after,
      emptyNumber "id::x" =
        (.error (.partialBatch name [.map [(.text "id::x::N", .text "7")]] reported), after) ∧
      Item.toNative (.map [(.text "id::x::N", .text "7")]) =
        .ok (.record [("id", .record [("S", .text "7")])]) ∧
      (Value.record [("id::x", .record [("N", .text "7")])]).same
        (.record [("id", .record [("S", .text "7")])]) = false := by
  have gives : reportsToken "id::x::N" (emptyNumber "id::x").1 = true := by decide +kernel
  obtain ⟨name, reported, gives⟩ := exists_of_reportsToken gives
  exact ⟨name, reported, _, Prod.ext gives rfl, rfl, by decide +kernel⟩

end Client

end TokenTable
