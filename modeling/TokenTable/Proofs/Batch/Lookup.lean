import TokenTable.Proofs.Batch.Conservation
import TokenTable.Proofs.Batch.Ranking

/-! # Reading as a table lookup

A store may answer a page of keys in parts and in any order. What a read returns does not tell: it
is what a plain lookup in the store's table gives for the keys in the order in which they were
given, and a read that is cancelled or gives up reports the lookup of the keys that were answered
(`read_eq_lookup`). What was gathered so far are always the items under the fingerprints accepted
so far, and sorting them by the positions of their keys undoes every order of arrival.
-/

namespace TokenTable.Batch

open Classical

variable {ω : Type}

namespace KeyedTable

variable {table : KeyedTable}

/-- The items of a table under some fingerprints, in no order. -/
noncomputable def itemsUnder (table : KeyedTable) (values : Multiset (Option Value)) :
    Multiset Value := values.filterMap fun value => value.bind table.find

/-- What a read reports of some keys: the items of the table under them are decoded in the order of
the keys, and put into the requested order. -/
def Answers (table : KeyedTable) (keys : List NativeItem) (order : Value)
    (reported : List Value) : Prop :=
  ∃ decoded, List.Forall₂ (fun native item => Item.decode native = .ok (some item))
      (table.lookup keys) decoded ∧
    orderItems decoded order = .ok reported

/-- Without an order, the decoded items are reported as they are. -/
theorem answers_null_iff (keys : List NativeItem) (reported : List Value) :
    table.Answers keys .null reported ↔
      List.Forall₂ (fun native item => Item.decode native = .ok (some item)) (table.lookup keys)
        reported := by
  constructor
  · rintro ⟨decoded, each, ordered⟩
    rw [orderItems_none] at ordered
    cases ordered
    exact each
  · intro each
    exact ⟨reported, each, orderItems_none reported⟩

theorem itemsUnder_add (first second : Multiset (Option Value)) :
    table.itemsUnder (first + second) = table.itemsUnder first + table.itemsUnder second :=
  Multiset.filterMap_add _ _ _

theorem itemsUnder_marks (natives : List Value) :
    table.itemsUnder (marks natives) =
      Multiset.ofList (natives.filterMap fun native => (mark native).bind table.find) := by
  rw [itemsUnder, marks, Multiset.filterMap_coe, List.filterMap_map]
  rfl

theorem itemsUnder_keys (keys : List NativeItem) :
    table.itemsUnder (marks (keys.map NativeItem.toValue)) =
      Multiset.ofList (table.lookup keys) := by
  rw [itemsUnder_marks, List.filterMap_map]
  rfl

/-- The store answers a page with the table's items under some of its keys, in any order, and hands
the other keys back in any order and spelling. -/
def ServedBy (table : KeyedTable) (operation : Operation) (store : Store ω) (name : String) :
    Prop :=
  ∀ page exchange reply, operation.Exchanged store name page exchange reply →
    ∃ answered left, page.Perm (answered ++ left) ∧
      reply.gathered.Perm (answered.filterMap fun key => (mark key).bind table.find) ∧
      marks reply.returned = marks left

variable {operation : Operation} {store : Store ω} {name : String}

theorem ServedBy.honest (served : table.ServedBy operation store name) :
    operation.Honest store name := by
  intro page exchange reply exchanged
  obtain ⟨answered, left, whole, _, returned⟩ := served page exchange reply exchanged
  rw [returned, marks_eq_of_perm whole, marks_append]
  exact Multiset.le_add_left _ _

/-- A reply gathers the items under what the call accepted. -/
theorem ServedBy.gathered (served : table.ServedBy operation store name) {page : List Value}
    {exchange : Exchange} {reply : Reply}
    (exchanged : operation.Exchanged store name page exchange reply) :
    Multiset.ofList reply.gathered = table.itemsUnder (operation.accepted name exchange) := by
  obtain ⟨answered, left, whole, items, returned⟩ := served page exchange reply exchanged
  have accepted := Operation.accepted_add_returned served.honest exchanged
  rw [returned, marks_eq_of_perm whole, marks_append] at accepted
  rw [add_right_cancel accepted, itemsUnder_marks]
  exact Multiset.coe_eq_coe.mpr items

/-- Between any two pages, what was gathered are the items under what was accepted. -/
theorem ServedBy.gathered_of_passes (served : table.ServedBy operation store name) {items : Value}
    {control : Control ω} {entries : List Entry}
    (translates : operation.entriesOf items = .ok entries) {world after : ω} {progress : Progress}
    {journal : List (Event Exchange)}
    (passes : operation.Passes store name items control world progress after journal) :
    Multiset.ofList progress.gathered =
      table.itemsUnder (operation.acceptedIn name (Event.calls journal)) := by
  refine passes.induct translates (motive := fun progress calls =>
    Multiset.ofList progress.gathered = table.itemsUnder (operation.acceptedIn name calls)) rfl ?_
  intro page later gathered calls exchange reply next before exchanged follows
  have both : Multiset.ofList (gathered ++ reply.gathered) =
      table.itemsUnder (operation.acceptedIn name (calls ++ [exchange])) := by
    rw [← Multiset.coe_add, before, served.gathered exchanged, Operation.acceptedIn_append,
      itemsUnder_add]
  cases follows with
  | finished complete => exact both
  | retried given left matched => exact both

/-- What an operation that ends with a report makes its report of are the items under all that was
accepted, and only entries of the caller were accepted. -/
theorem ServedBy.gathered_of_report (served : table.ServedBy operation store name) {items : Value}
    {control : Control ω} {entries : List Entry}
    (translates : operation.entriesOf items = .ok entries)
    (own : OwnFaults store operation.method control) {world after : ω} {reporter : String}
    {pending reported : List Value} {fault : Fault}
    (shape : fault = .cancelledBatch reporter pending reported ∨
      fault = .partialBatch reporter pending reported)
    (failed : (operation.perform store name items control).outcome world = (.error fault, after)) :
    ∃ gathered, operation.report items gathered = .ok reported ∧
      Multiset.ofList gathered =
        table.itemsUnder (operation.acceptedBy store name items control world) ∧
      operation.acceptedBy store name items control world ≤ marksOf entries := by
  have report : ¬ fault.Ordinary := by
    rcases shape with rfl | rfl <;> simp [Fault.Ordinary, Fault.endsBatch]
  obtain ⟨page, later, gathered, middle, journal, passes, ending⟩ :=
    Operation.passes_of_report translates own report failed
  have before := served.gathered_of_passes translates passes
  have balance := (Operation.conserved_of_passes translates served.honest passes).balance
  unfold Operation.acceptedBy
  rcases ending with ⟨made, calls, reports, same⟩ | exhausted
  · have equal : made = reported := by
      rcases shape with rfl | rfl <;> cases same
      rfl
    subst equal
    rw [calls, ← balance]
    exact ⟨gathered, reports, before, Multiset.le_add_right _ _⟩
  · obtain ⟨exchange, reply, left, made, exchanged, calls, _, _, reports, same⟩ := exhausted
    have equal : made = reported := by
      rcases shape with rfl | rfl <;> cases same
      rfl
    subst equal
    rw [calls, Operation.acceptedIn_append]
    refine ⟨gathered ++ reply.gathered, reports, ?_, ?_⟩
    · rw [← Multiset.coe_add, before, served.gathered exchanged, itemsUnder_add]
    · have page_eq := Operation.accepted_add_returned served.honest exchanged
      rw [← balance, Operation.marksOf_cons, marksOf, ← page_eq, add_assoc]
      exact add_le_add_right (Multiset.le_add_right _ _) _

/-- Some of the fingerprints of a table's keys are those of some of the keys, in order. -/
theorem Keys.exists_sublist {keys : List NativeItem} (typed : table.Keys keys)
    {values : Multiset (Option Value)}
    (within : values ≤ marks (keys.map NativeItem.toValue)) :
    ∃ answered : List NativeItem, answered.Sublist keys ∧
      marks (answered.map NativeItem.toValue) = values := by
  have all : marks (keys.map NativeItem.toValue) =
      Multiset.ofList (keys.map fun key => mark key.toValue) := by
    rw [marks, List.map_map]
    rfl
  have distinct : (marks (keys.map NativeItem.toValue)).Nodup := by
    rw [all]
    exact typed.apart
  refine ⟨keys.filter fun key => mark key.toValue ∈ values, List.filter_sublist, ?_⟩
  have some : marks ((keys.filter fun key => mark key.toValue ∈ values).map NativeItem.toValue) =
      Multiset.ofList ((keys.filter fun key => mark key.toValue ∈ values).map
        fun key => mark key.toValue) := by
    rw [marks, List.map_map]
    rfl
  have part : (Multiset.ofList ((keys.filter fun key => mark key.toValue ∈ values).map
      fun key => mark key.toValue)).Nodup :=
    typed.apart.sublist (List.filter_sublist.map _)
  rw [some, part.ext (Multiset.nodup_of_le within distinct)]
  intro value
  rw [Multiset.mem_coe, List.mem_map]
  constructor
  · rintro ⟨key, inside, rfl⟩
    exact of_decide_eq_true (List.mem_filter.mp inside).2
  · intro member
    have there := Multiset.mem_of_le within member
    rw [all, Multiset.mem_coe, List.mem_map] at there
    obtain ⟨key, inside, rfl⟩ := there
    exact ⟨key, List.mem_filter.mpr ⟨inside, decide_eq_true member⟩, rfl⟩

theorem forall₂_of_decodeAll {natives decoded : List Value}
    (held : ∀ native ∈ natives, ∃ item, Item.decode native = .ok (some item))
    (done : Item.decodeAll natives = .ok decoded) :
    List.Forall₂ (fun native item => Item.decode native = .ok (some item)) natives decoded := by
  obtain ⟨items, several, collected⟩ := (bind_eq_ok_iff _ _ _).mp done
  cases collected
  have each := forall₂_of_mapM several
  clear several done
  induction each with
  | nil => exact .nil
  | @cons native item rest items single _ ih =>
      obtain ⟨decoded, found⟩ := held native List.mem_cons_self
      rw [found] at single
      cases single
      exact .cons found (ih fun other member => held other (List.mem_cons_of_mem _ member))

/-- Arranging the items under some of the keys reports those keys. -/
theorem Keys.answers_of_arrange {keys answered : List NativeItem} (typed : table.Keys keys)
    (part : answered.Sublist keys) {gathered reported : List Value} {order : Value}
    (items : Multiset.ofList gathered =
      table.itemsUnder (marks (answered.map NativeItem.toValue)))
    (arranged : arrange keys order gathered = .ok reported) :
    table.Answers answered order reported := by
  obtain ⟨natives, sorted, arranged⟩ := (bind_eq_ok_iff _ _ _).mp arranged
  obtain ⟨decoded, done, ordered⟩ := (bind_eq_ok_iff _ _ _).mp arranged
  rw [itemsUnder_keys] at items
  have same := typed.inKeyOrder_eq_lookup part (Multiset.coe_eq_coe.mp items) sorted
  subst same
  refine ⟨decoded, forall₂_of_decodeAll ?_ done, ordered⟩
  intro native member
  obtain ⟨key, _, held⟩ := List.mem_filterMap.mp member
  obtain ⟨value, _, found⟩ := Option.bind_eq_some_iff.mp held
  exact table.decodes value native found

end KeyedTable

/-- The typed forms of translated keys are keys of a table if they have its names and no two have
one fingerprint. -/
theorem keys_of_typedKeys {table : KeyedTable} {items : Value} {pairs : List (Value × NativeItem)}
    (typed : typedKeys items = .ok pairs)
    (named : ∀ pair ∈ pairs, (pair.2.map Prod.fst).Perm table.names)
    (apart : (pairs.map fun pair => mark pair.2.toValue).Nodup) :
    table.Keys (pairs.map Prod.snd) := by
  obtain ⟨keys, _, typed⟩ := (bind_eq_ok_iff _ _ _).mp typed
  constructor
  · intro key member
    obtain ⟨pair, inside, rfl⟩ := List.mem_map.mp member
    exact named pair inside
  · rw [List.map_map]
    exact apart
  · intro key member
    obtain ⟨pair, inside, rfl⟩ := List.mem_map.mp member
    obtain ⟨map, _, single⟩ := exists_of_mem_mapM typed inside
    obtain ⟨native, encoded, single⟩ := (bind_eq_ok_iff _ _ _).mp single
    cases single
    exact Item.encoded_of_encode map native encoded

/-- **A read is a table lookup.** For keys of a table that are apart, a read that returns gives the
items that the table holds under the keys, decoded, in the order of the keys and then in the
requested order. A read that is cancelled or gives up reports the same of those keys that the store
has answered. Pages, retries and the order of arrival do not show. -/
theorem read_eq_lookup (table : KeyedTable) (consistent : Bool) (order : Value) (store : Store ω)
    (name : String) (items : Value) (control : Control ω) (pairs : List (Value × NativeItem))
    (typed : typedKeys items = .ok pairs)
    (named : ∀ pair ∈ pairs, (pair.2.map Prod.fst).Perm table.names)
    (apart : (pairs.map fun pair => mark pair.2.toValue).Nodup)
    (served : table.ServedBy (.read consistent order) store name)
    (own : OwnFaults store .readBatch control) (world : ω) :
    (∀ result after,
        (read store (.text name) items consistent order control).outcome world =
            (.ok result, after) →
          table.Answers (pairs.map Prod.snd) order result) ∧
      ∀ operation entries reported after fault,
        fault = .cancelledBatch operation entries reported ∨
            fault = .partialBatch operation entries reported →
          (read store (.text name) items consistent order control).outcome world =
              (.error fault, after) →
            ∃ answered : List NativeItem, answered.Sublist (pairs.map Prod.snd) ∧
              marks (answered.map NativeItem.toValue) =
                (Operation.read consistent order).acceptedBy store name items control world ∧
              table.Answers answered order reported := by
  have keys := keys_of_typedKeys typed named apart
  have natives : Operation.nativesOf items = pairs.map Prod.snd := by
    rw [Operation.nativesOf, typed]
  have translates : (Operation.read consistent order).entriesOf items =
      .ok (pairs.map keyEntry) := (bind_eq_ok_iff _ _ _).mpr ⟨pairs, typed, rfl⟩
  have all : marksOf (pairs.map keyEntry) =
      marks ((pairs.map Prod.snd).map NativeItem.toValue) := by
    rw [marksOf, List.map_map, List.map_map]
    rfl
  constructor
  · intro result after done
    obtain ⟨gathered, passes, reports⟩ := Operation.passes_of_ok translates done
    have items_eq := served.gathered_of_passes translates passes
    have balance := (Operation.conserved_of_passes translates served.honest passes).balance
    have empty : marksOf (Progress.entries ⟨[], gathered⟩) = 0 := rfl
    rw [empty, add_zero, all] at balance
    rw [balance] at items_eq
    rw [Operation.report, natives] at reports
    exact keys.answers_of_arrange (List.Sublist.refl _) items_eq reports
  · intro operation entries reported after fault shape failed
    obtain ⟨gathered, reports, items_eq, within⟩ :=
      served.gathered_of_report translates own shape failed
    rw [all] at within
    obtain ⟨answered, part, same⟩ := keys.exists_sublist within
    rw [← same] at items_eq
    rw [Operation.report, natives] at reports
    exact ⟨answered, part, same, keys.answers_of_arrange part items_eq reports⟩

/-- A store that reads a table. It hands back so many keys of each page as its schedule says, in
reverse order, and returns the items under the others in reverse order. -/
def KeyedTable.scheduledStore (table : KeyedTable) (name : String) : Store (List Nat) where
  serves _ := true
  answer _ request := .ofOutcome fun schedule =>
    match (Operation.read false .null).pageOf name request with
    | .ok page =>
      let answered := page.drop (schedule.headD 0)
      let items := answered.filterMap fun key => (mark key).bind table.find
      let left := page.take (schedule.headD 0)
      (.ok (Operation.readAnswer name items.reverse left.reverse), schedule.tail)
    | .error _ => (.error .wrongShape, schedule)
  patience := List.length

theorem KeyedTable.servedBy_scheduledStore (table : KeyedTable) (name : String) (consistent : Bool)
    (order : Value) :
    table.ServedBy (.read consistent order) (table.scheduledStore name) name := by
  intro page exchange reply exchanged
  obtain ⟨response, _, replied, schedule, after, answered⟩ := exchanged.answered
  have carried : (Operation.read consistent order).pageOf name exchange.request = .ok page :=
    Operation.pageOf_request exchanged.requested
  have alike : (Operation.read false .null).pageOf name exchange.request = .ok page := carried
  simp only [scheduledStore, Run.outcome_ofOutcome, alike, Prod.mk.injEq, Except.ok.injEq]
    at answered
  obtain ⟨rfl, _⟩ := answered
  have heard := (Operation.readReply_readAnswer _ _ _).symm.trans replied
  cases heard
  refine ⟨page.drop (schedule.headD 0), page.take (schedule.headD 0), ?_, List.reverse_perm _, ?_⟩
  · have whole : (page.take (schedule.headD 0) ++ page.drop (schedule.headD 0)).Perm
        (page.drop (schedule.headD 0) ++ page.take (schedule.headD 0)) := List.perm_append_comm
    rwa [List.take_append_drop] at whole
  · exact marks_eq_of_perm (List.reverse_perm _)

theorem KeyedTable.ownFaults_scheduledStore (table : KeyedTable) (name : String)
    (maxRetries : Value) :
    OwnFaults (table.scheduledStore name) .readBatch ⟨maxRetries, none, none⟩ where
  answer request := by
    intro schedule
    simp only [scheduledStore, Run.outcome_ofOutcome]
    cases (Operation.read false .null).pageOf name request with
    | ok page => exact .ok _
    | error fault => exact .error rfl
  pause pause hook := by cases hook
  poll poll hook := by cases hook

def textKey (s : String) : NativeItem := [("id", .scalar .text (.text s))]

theorem mark_textKey (s : String) :
    mark (textKey s).toValue =
      some (.tuple [.tuple [.text "id", .tuple [.tuple [.text "S", .text s]]]]) := by
  have payload : markOf (.text "S") (.text s) = .ok (.text s) := rfl
  have whole := markOf_record_singleton .null (markOf_record_singleton (.text "id") payload)
  have taken : fingerprint (textKey s).toValue =
      .ok (.tuple [.tuple [.text "id", .tuple [.tuple [.text "S", .text s]]]]) := by
    obtain ⟨marks, several, sorted⟩ := (bind_eq_ok_iff _ _ _).mp whole
    refine (bind_eq_ok_iff _ _ _).mpr ⟨marks, several, ?_⟩
    exact (bind_eq_ok_iff _ _ _).mpr ⟨_, sorted, rfl⟩
  rw [mark_of_fingerprint taken]
  rfl

def textItem (s : String) : Value :=
  .record [("id", .record [("S", .text s)]), ("payload", .record [("S", .text ("v" ++ s))])]

/-- A table with an item under every text but the empty one. -/
def textTable : KeyedTable where
  names := ["id"]
  distinct := List.nodup_singleton _
  find
    | .tuple [.tuple [.text "id", .tuple [.tuple [.text "S", .text s]]]] =>
      if s = "" then none else some (textItem s)
    | _ => none
  decodes value native found := by
    split at found
    · rename_i s
      by_cases empty : s = ""
      · rw [if_pos empty] at found
        cases found
      · rw [if_neg empty] at found
        cases found
        exact ⟨.map [(.text "id", .text s), (.text "payload", .text ("v" ++ s))], rfl⟩
    · cases found
  keyed value native found := by
    split at found
    · rename_i s
      by_cases empty : s = ""
      · rw [if_pos empty] at found
        cases found
      · rw [if_neg empty] at found
        cases found
        exact ⟨(textKey s).toValue, rfl, mark_textKey s⟩
    · cases found

/-- Two keys, the first of which holds nothing. -/
def twoKeys : Value := .list [.map [(.text "id", .text "")], .map [(.text "id", .text "a")]]

/-- Two keys of which the first is handed back once give the one item that the table holds. -/
theorem read_twoKeys :
    ∃ after, (read (textTable.scheduledStore "t") (.text "t") twoKeys false .null
        ⟨.int 3, none, none⟩).outcome [1, 0] =
      (.ok [.map [(.text "id", .text "a"), (.text "payload", .text "va")]], after) := by
  have typed : typedKeys twoKeys = .ok [(.map [(.text "id", .text "")], textKey ""),
      (.map [(.text "id", .text "a")], textKey "a")] := rfl
  obtain ⟨result, returns⟩ : ∃ result, ((read (textTable.scheduledStore "t") (.text "t") twoKeys
      false .null ⟨.int 3, none, none⟩).outcome [1, 0]).1 = .ok result :=
    exists_of_isOk (by decide +kernel)
  have lookups := (read_eq_lookup textTable false .null (textTable.scheduledStore "t") "t" twoKeys
    ⟨.int 3, none, none⟩ _ typed (by decide) (by simp [mark_textKey])
    (textTable.servedBy_scheduledStore "t" false .null)
    (textTable.ownFaults_scheduledStore "t" (.int 3)) [1, 0]).1
  have answers := (KeyedTable.answers_null_iff _ _).mp (lookups result _ (Prod.ext returns rfl))
  have held : textTable.lookup [textKey "", textKey "a"] = [textItem "a"] := by
    simp [KeyedTable.lookup, KeyedTable.under, mark_textKey, textTable]
  have decoded : Item.decode (textItem "a") =
      .ok (some (.map [(.text "id", .text "a"), (.text "payload", .text "va")])) := rfl
  rw [List.map_cons, List.map_cons, List.map_nil, held] at answers
  refine ⟨_, Prod.ext ?_ rfl⟩
  rw [returns]
  cases answers with
  | cons single several =>
      rw [decoded] at single
      cases single
      cases several
      rfl

end TokenTable.Batch
