import TokenTable.Client.Tables
import TokenTable.Proofs.Batch.Deleting
import TokenTable.Proofs.Client.Scanned
import TokenTable.Proofs.Fields

/-! # Emptying a table

A table is emptied by gathering the keys of all its natives and deleting under them. How keys are
gathered is told by the calls that are made for it (`gathers_of_outcome`): it ends with the first
call that returns no page, with the first native without a key, or with the last page. Nothing is
deleted unless all keys are gathered (`empties_of_error`, `empties_of_ok`). The keys of encoded
items are settled, whatever the items hold (`hasSettledKeys_of_keyOf`). Main statement:
`emptyTable_deletes`.
-/

namespace TokenTable

open Run

variable {ω : Type}

/-- The native form of a well-typed attribute. -/
def Value.IsTyped (v : Value) : Prop :=
  ∃ typed : Attribute, typed.WellTyped ∧ v = typed.toNative

namespace Client

open Batch

/-- The page that a call of a scan returned. -/
def scannedPage (exchange : Exchange) : Except Fault Scan.Page :=
  exchange.answer >>= Scan.readPage

/-- The natives of the pages that some calls returned, in order. -/
def scannedIn (scans : List Exchange) : List Value :=
  scans.flatMap fun exchange =>
    match scannedPage exchange with
    | .ok page => page.natives
    | .error _ => []

/-- Every call returned a page, and the last of these pages, and no other, says that it is the
last. -/
def IsOver (scans : List Exchange) : Prop :=
  ∃ pages, scans.mapM scannedPage = .ok pages ∧ Scan.Linked pages

@[simp] theorem scannedIn_nil : scannedIn [] = [] := rfl

theorem scannedIn_cons_of_read {exchange : Exchange} {page : Scan.Page}
    (read : scannedPage exchange = .ok page) (later : List Exchange) :
    scannedIn (exchange :: later) = page.natives ++ scannedIn later := by
  rw [scannedIn, List.flatMap_cons, read]
  rfl

theorem scannedIn_cons_of_unread {exchange : Exchange} {fault : Fault}
    (unread : scannedPage exchange = .error fault) (later : List Exchange) :
    scannedIn (exchange :: later) = scannedIn later := by
  rw [scannedIn, List.flatMap_cons, unread]
  rfl

/-- The calls that gather the keys of all natives, and how that ends. -/
inductive Gathers (names : List String) : List Exchange → Except Fault (List Value) → Prop
  | unasked (fault : Fault) : Gathers names [] (.error fault)
  | unread (scan : Exchange) (fault : Fault) (method : scan.method = .scan)
      (failed : scannedPage scan = .error fault) : Gathers names [scan] (.error fault)
  | keyless (scan : Exchange) (page : Scan.Page) (fault : Fault) (method : scan.method = .scan)
      (read : scannedPage scan = .ok page)
      (failed : page.natives.mapM (keyOf names) = .error fault) :
      Gathers names [scan] (.error fault)
  | last (scan : Exchange) (page : Scan.Page) (keys : List Value) (method : scan.method = .scan)
      (read : scannedPage scan = .ok page)
      (projected : page.natives.mapM (keyOf names) = .ok keys)
      (ends : page.resume.isGiven = false) : Gathers names [scan] (.ok keys)
  | more (scan : Exchange) (page : Scan.Page) (keys : List Value) (later : List Exchange)
      (result : Except Fault (List Value)) (method : scan.method = .scan)
      (read : scannedPage scan = .ok page)
      (projected : page.natives.mapM (keyOf names) = .ok keys)
      (given : page.resume.isGiven = true) (goesOn : Gathers names later result) :
      Gathers names (scan :: later) (result.map (keys ++ ·))

/-- A response that holds natives says whether there is a next page. -/
theorem exists_resume {response items : Value} {name : String} {default : Value}
    (found : response.getD name default = .ok items) (other : String) :
    ∃ resume, response.get other = .ok resume := by
  cases response with
  | map entries => exact ⟨_, rfl⟩
  | _ => cases found

/-- The keys of a page are gathered once the page is read. -/
theorem gatherKeys_succ (store : Store ω) (names : List String) (pages : Nat) (request : Request) :
    gatherKeys store names (pages + 1) request =
      (store.send .scan request >>= fun response =>
        liftM (Scan.readPage response) >>= fun page =>
          liftM (page.natives.mapM (keyOf names)) >>= fun keys =>
            if page.resume.isGiven then do
              return keys ++ (← gatherKeys store names pages
                (upsertField "ExclusiveStartKey" page.resume request))
            else return keys) := by
  rw [gatherKeys]
  congr 1
  funext response
  apply Run.ext
  intro world
  cases held : response.getD "Items" (.list []) with
  | error fault =>
      have unread : Scan.readPage response = .error fault := by
        rw [Scan.readPage, held]
        rfl
      simp only [outcome_bind, outcome_lift, unread]
  | ok items =>
      obtain ⟨resume, told⟩ := exists_resume held "LastEvaluatedKey"
      cases listed : items.elements with
      | error fault =>
          have unread : Scan.readPage response = .error fault := by
            rw [Scan.readPage, held]
            simp only [bind, Except.bind, listed]
          simp only [outcome_bind, outcome_lift, listed, unread]
      | ok natives =>
          have read : Scan.readPage response = .ok ⟨natives, resume⟩ := by
            rw [Scan.readPage, held]
            simp only [bind, Except.bind, listed, told]
            rfl
          simp only [outcome_bind, outcome_lift, listed, read, told]

/-- A page that was read adds its call in front of the calls for the pages after it. -/
theorem gathers_of_read {store : Store ω} {names : List String} {pages : Nat} {request : Request}
    {response : Value} {page : Scan.Page} {before after : Journaled ω Exchange}
    {result : Except Fault (List Value)} (read : Scan.readPage response = .ok page)
    (goesOn : ∀ rest, (gatherKeys store.journaled names pages
        (upsertField "ExclusiveStartKey" page.resume request)).outcome before = (rest, after) →
      ∃ scans : List Exchange, after.2 = before.2 ++ scans.map .called ∧
        Gathers names scans rest)
    (run : (liftM (page.natives.mapM (keyOf names)) >>= fun keys =>
      if page.resume.isGiven then do
        return keys ++ (← gatherKeys store.journaled names pages
          (upsertField "ExclusiveStartKey" page.resume request))
      else return keys : Run (Journaled ω Exchange) (List Value)).outcome before =
        (result, after)) :
    ∃ scans : List Exchange, after.2 = before.2 ++ scans.map .called ∧
      Gathers names (⟨.scan, request, .ok response⟩ :: scans) result := by
  rw [outcome_bind, outcome_lift] at run
  cases projected : page.natives.mapM (keyOf names) with
  | error fault =>
      rw [projected] at run
      cases run
      exact ⟨[], (List.append_nil _).symm, .keyless _ page fault rfl read projected⟩
  | ok keys =>
      rw [projected] at run
      cases given : page.resume.isGiven with
      | false =>
          simp only [given, Bool.false_eq_true, ↓reduceIte, outcome_pure] at run
          cases run
          exact ⟨[], (List.append_nil _).symm,
            .last _ page keys rfl read projected given⟩
      | true =>
          simp only [given, ↓reduceIte, outcome_bind] at run
          rcases rest : (gatherKeys store.journaled names pages
            (upsertField "ExclusiveStartKey" page.resume request)).outcome before with
            ⟨gathered, beside⟩
          have same : (result, after) = (gathered.map (keys ++ ·), beside) := by
            rw [← run, rest]
            cases gathered with
            | error fault | ok others => rfl
          cases same
          obtain ⟨later, journal, others⟩ := goesOn gathered rest
          exact ⟨later, journal,
            .more _ page keys later gathered rfl read projected given others⟩

/-- How keys are gathered is told by the calls that are made for it. The induction is on the pages
that may still be asked for. -/
theorem gathers_of_outcome {store : Store ω} {names : List String} {pages : Nat} {request : Request}
    {before after : Journaled ω Exchange} {result : Except Fault (List Value)}
    (run : (gatherKeys store.journaled names pages request).outcome before = (result, after)) :
    ∃ scans : List Exchange, after.2 = before.2 ++ scans.map .called ∧
      Gathers names scans result := by
  induction pages generalizing request before after result with
  | zero =>
      cases run
      exact ⟨[], (List.append_nil _).symm, .unasked _⟩
  | succ pages ih =>
      rw [gatherKeys_succ, outcome_bind, Store.outcome_send_journaled] at run
      by_cases served : store.serves .scan = true
      · rw [if_pos served] at run
        rcases answered : (store.answer .scan request).outcome before.1 with
          ⟨fault | response, world⟩
        · rw [answered] at run
          cases run
          exact ⟨[⟨.scan, request, .error fault⟩], rfl, .unread _ fault rfl rfl⟩
        · rw [answered] at run
          simp only [outcome_bind _ _ (world, _), outcome_lift] at run
          cases read : Scan.readPage response with
          | error fault =>
              rw [read] at run
              cases run
              exact ⟨[⟨.scan, request, .ok response⟩], rfl, .unread _ fault rfl read⟩
          | ok page =>
              rw [read] at run
              obtain ⟨scans, journal, gathers⟩ := gathers_of_read read (fun _ rest => ih rest) run
              refine ⟨⟨.scan, request, .ok response⟩ :: scans, ?_, gathers⟩
              rw [journal, List.map_cons]
              exact (List.append_cons _ _ _).symm
      · rw [if_neg served] at run
        cases run
        exact ⟨[], (List.append_nil _).symm, .unasked _⟩

namespace Gathers

variable {names : List String} {scans : List Exchange} {result : Except Fault (List Value)}

theorem method (gathers : Gathers names scans result) :
    ∀ scan ∈ scans, scan.method = .scan := by
  induction gathers with
  | unasked => exact fun scan member => by cases member
  | unread _ _ method | keyless _ _ _ method | last _ _ _ method =>
      intro scan member
      rwa [List.mem_singleton.mp member]
  | more _ _ _ _ _ method _ _ _ _ ih => exact List.forall_mem_cons.mpr ⟨method, ih⟩

/-- A call that returns no page is the last one, and its fault is passed on. -/
theorem error_of_unread (gathers : Gathers names scans result) {scan : Exchange}
    (member : scan ∈ scans) {fault : Fault} (unread : scannedPage scan = .error fault) :
    result = .error fault := by
  induction gathers with
  | unasked => cases member
  | unread _ _ _ failed =>
      rw [List.mem_singleton.mp member, failed] at unread
      cases unread
      rfl
  | keyless _ _ _ _ read | last _ _ _ _ read =>
      rw [List.mem_singleton.mp member, read] at unread
      cases unread
  | more _ _ _ _ _ _ read _ _ _ ih =>
      rcases List.mem_cons.mp member with rfl | later
      · rw [read] at unread
        cases unread
      · rw [ih later]
        rfl

/-- A native without a key is among the last that are read, and its fault is passed on. -/
theorem error_of_keyless (gathers : Gathers names scans result) {fault : Fault}
    (failed : (scannedIn scans).mapM (keyOf names) = .error fault) : result = .error fault := by
  induction gathers with
  | unasked => cases failed
  | unread _ _ _ unread =>
      rw [scannedIn_cons_of_unread unread] at failed
      cases failed
  | keyless _ _ _ _ read keyless =>
      rw [scannedIn_cons_of_read read, scannedIn_nil, List.append_nil, keyless] at failed
      cases failed
      rfl
  | last _ _ _ _ read projected =>
      rw [scannedIn_cons_of_read read, scannedIn_nil, List.append_nil, projected] at failed
      cases failed
  | more _ _ _ _ _ _ read projected _ _ ih =>
      rw [scannedIn_cons_of_read read, mapM_append_eq_error_iff, projected] at failed
      rcases failed with early | ⟨_, _, late⟩
      · cases early
      · rw [ih late]
        rfl

/-- Keys are returned once the scan is over, and they are those of all natives. -/
theorem scanned_of_ok (gathers : Gathers names scans result) {keys : List Value}
    (done : result = .ok keys) :
    IsOver scans ∧ (scannedIn scans).mapM (keyOf names) = .ok keys := by
  induction gathers generalizing keys with
  | unasked | unread | keyless => cases done
  | last _ page _ _ read projected ends =>
      cases done
      constructor
      · refine ⟨[page], (mapM_cons_eq_ok_iff _ _ _ _).mpr ⟨page, [], read, rfl, rfl⟩, ?_⟩
        rw [Scan.Linked, ends]
        rfl
      · rwa [scannedIn_cons_of_read read, scannedIn_nil, List.append_nil]
  | more _ page found _ rest _ read projected given _ ih =>
      cases rest with
      | error fault => cases done
      | ok others =>
          cases done
          obtain ⟨⟨pages, several, linked⟩, keyed⟩ := ih rfl
          constructor
          · refine ⟨page :: pages,
              (mapM_cons_eq_ok_iff _ _ _ _).mpr ⟨page, pages, read, several, rfl⟩, ?_⟩
            rwa [Scan.Linked, if_pos given]
          · rw [scannedIn_cons_of_read read]
            exact (mapM_append_eq_ok_iff _ _ _ _).mpr ⟨found, others, projected, keyed, rfl⟩

/-- A scan that is over returns the keys of all natives, unless one has none. -/
theorem result_of_isOver (gathers : Gathers names scans result) (ended : IsOver scans) :
    result = (scannedIn scans).mapM (keyOf names) := by
  induction gathers with
  | unasked =>
      obtain ⟨pages, several, linked⟩ := ended
      cases (mapM_nil_eq_ok_iff _ _).mp several
      cases linked
  | unread _ _ _ failed =>
      obtain ⟨pages, several, _⟩ := ended
      obtain ⟨page, _, read, _⟩ := (mapM_cons_eq_ok_iff _ _ _ _).mp several
      cases failed.symm.trans read
  | keyless _ _ _ _ read failed =>
      rw [scannedIn_cons_of_read read, scannedIn_nil, List.append_nil, failed]
  | last _ _ _ _ read projected =>
      rw [scannedIn_cons_of_read read, scannedIn_nil, List.append_nil, projected]
  | more _ page found later rest _ read projected given _ ih =>
      obtain ⟨pages, several, linked⟩ := ended
      obtain ⟨first, others, single, remaining, rfl⟩ := (mapM_cons_eq_ok_iff _ _ _ _).mp several
      cases read.symm.trans single
      rw [Scan.Linked, if_pos given] at linked
      rw [ih ⟨others, remaining, linked⟩, scannedIn_cons_of_read read, List.mapM_append, projected]
      rfl

end Gathers

/-- A key holds what the native holds under each of some names, and nothing else. -/
def IsKeyOf (names : List String) (native key : Value) : Prop :=
  ∃ fields : List (String × Value), key = .record fields ∧ (fields.map Prod.fst).Nodup ∧
    (∀ name, name ∈ fields.map Prod.fst ↔ name ∈ names) ∧
      ∀ field ∈ fields, native.index field.1 = .ok field.2

theorem isKeyOf_of_keyOf {names : List String} {native key : Value}
    (keyed : keyOf names native = .ok key) : IsKeyOf names native key := by
  obtain ⟨written, several, keyed⟩ := (bind_eq_ok_iff _ _ _).mp keyed
  cases keyed
  have back : ∀ (name : String) (field : String × Value),
      (do return (name, ← native.index name) : Except Fault (String × Value)) = .ok field →
        field.1 = name ∧ native.index field.1 = .ok field.2 := by
    intro name field single
    obtain ⟨value, found, single⟩ := (bind_eq_ok_iff _ _ _).mp single
    cases single
    exact ⟨rfl, found⟩
  have all : written.map Prod.fst = names :=
    map_eq_of_mapM (fun name field single => (back name field single).1) several
  refine ⟨writeFields written, rfl, nodup_names_writeFields written, fun name => ?_,
    fun field member => ?_⟩
  · rw [mem_names_writeFields, all]
  · have stays := (lookup_eq_some_iff_mem (nodup_names_writeFields written) _ _).mpr member
    rw [lookup_writeFields] at stays
    obtain ⟨before, after, same, _⟩ := List.lookup_eq_some_iff.mp stays
    have given : field ∈ written := by
      rw [← List.mem_reverse, same]
      exact List.mem_append_right _ List.mem_cons_self
    obtain ⟨name, _, single⟩ := exists_of_mem_mapM several given
    exact (back name field single).2

/-- A key of typed values is a well-formed item under the names of the schema. -/
theorem exists_item_of_isKeyOf {names : List String} {native key : Value}
    (keyed : IsKeyOf names native key)
    (typed : ∀ name ∈ names, ∀ value, native.index name = .ok value → value.IsTyped) :
    ∃ item : NativeItem, key = item.toValue ∧ item.WellFormed ∧
      ∀ name, name ∈ item.map Prod.fst ↔ name ∈ names := by
  obtain ⟨fields, rfl, distinct, among, held⟩ := keyed
  obtain ⟨item, each⟩ : ∃ item : NativeItem, List.Forall₂ (fun field made =>
      field = (made.1, made.2.toNative) ∧ made.2.WellTyped) fields item := by
    apply exists_forall₂
    intro field member
    have inside := (among field.1).mp (List.mem_map_of_mem member)
    obtain ⟨attr, wellTyped, same⟩ := typed field.1 inside field.2 (held field member)
    exact ⟨(field.1, attr), Prod.ext rfl same, wellTyped⟩
  have whole : fields = item.map fun made => (made.1, made.2.toNative) := by
    clear distinct among held
    induction each with
    | nil => rfl
    | cons first _ ih => rw [List.map_cons, ← ih, first.1]
  have names : fields.map Prod.fst = item.map Prod.fst := by
    rw [whole, List.map_map]
    rfl
  refine ⟨item, by rw [whole, NativeItem.toValue], ⟨?_, fun made member => ?_⟩, fun name => ?_⟩
  · rwa [← names]
  · obtain ⟨_, _, typed⟩ := exists_of_mem_forall₂ each made member
    exact typed.2
  · rw [← names]
    exact among name

/-- What an encoded item has under a name is typed. -/
theorem isTyped_of_index {item : NativeItem} (wellFormed : item.WellFormed) {name : String}
    {value : Value} (found : item.toValue.index name = .ok value) : value.IsTyped := by
  rw [NativeItem.toValue, Value.record, Value.index, Value.lookup_record] at found
  split at found
  · rename_i held there
    cases found
    obtain ⟨before, after, same, _⟩ := List.lookup_eq_some_iff.mp there
    have member : (name, value) ∈ item.map fun entry => (entry.1, entry.2.toNative) := by
      rw [same]
      exact List.mem_append_right _ List.mem_cons_self
    obtain ⟨field, inside, made⟩ := List.mem_map.mp member
    exact ⟨field.2, wellFormed.typed field inside, (Prod.mk.inj made).2.symm⟩
  · cases found

/-- The fingerprints of the keys of encoded items are plain, so each is matched by all of its
class. -/
theorem hasSettledKeys_of_keyOf {names : List String} {natives keys : List Value}
    (encoded : ∀ native ∈ natives, ∃ item : NativeItem, item.WellFormed ∧ native = item.toValue)
    (projected : natives.mapM (keyOf names) = .ok keys) : HasSettledKeys keys := by
  intro key inside value done
  obtain ⟨native, scanned, single⟩ := exists_of_mem_mapM projected inside
  obtain ⟨item, wellFormed, rfl⟩ := encoded native scanned
  obtain ⟨part, rfl, partWellFormed, _⟩ := exists_item_of_isKeyOf (isKeyOf_of_keyOf single)
    fun _ _ _ => isTyped_of_index wellFormed
  have typed : ∀ field ∈ part, field.2.Encoded := fun field member =>
    Attribute.encoded_of_wellTyped (partWellFormed.typed field member)
  exact Value.settled_of_isPlain (isPlain_fingerprint_request .delete part typed value done)

/-- The calls with which a table is emptied, and how that ends: first the table is scanned, then
requests to delete are sent. -/
structure Empties (table : String) (names : List String) (scans writes : List Exchange)
    (result : Except Fault Nat) : Prop where
  scanning : ∀ scan ∈ scans, scan.method = .scan
  writing : ∀ write ∈ writes, write.method = .writeBatch
  ended : writes ≠ [] → IsOver scans
  /-- A call of the scan that fails, or returns no page, is the last call. -/
  unread : ∀ scan ∈ scans, ∀ fault, scannedPage scan = .error fault →
    result = .error fault ∧ writes = []
  /-- A native without one of the key attributes. -/
  keyless : ∀ fault, (scannedIn scans).mapM (keyOf names) = .error fault →
    result = .error fault ∧ writes = []
  /-- A key of an unsupported kind. It is noticed once the scan is over. -/
  untranslated : ∀ keys fault, (scannedIn scans).mapM (keyOf names) = .ok keys →
    keys.mapM Item.toTokens = .error fault →
      (∃ other, result = .error other) ∧ (IsOver scans → result = .error fault) ∧ writes = []
  nothing : scannedIn scans = [] → writes = []
  deleted : ∀ number, result = .ok number →
    IsOver scans ∧ number = (scannedIn scans).length ∧
      ∃ keys, (scannedIn scans).mapM (keyOf names) = .ok keys ∧
        List.Forall₂ (IsKeyOf names) (scannedIn scans) keys ∧
          (Operation.write .delete).acceptedClassesIn table writes =
            classes (keys.map Mode.delete.request)
  unchanged : ∀ keys, (scannedIn scans).mapM (keyOf names) = .ok keys → HasSettledKeys keys →
    ∀ write ∈ writes, ∃ page, (Operation.write .delete).Carries table page write ∧
      1 ≤ page.length ∧ page.Subperm (keys.map Mode.delete.request)

/-- Which calls scan the table can be told by their method. -/
theorem Empties.filter_scans {table : String} {names : List String} {scans writes : List Exchange}
    {result : Except Fault Nat} (empties : Empties table names scans writes result) :
    (scans ++ writes).filter (·.method = .scan) = scans := by
  have first : scans.filter (·.method = .scan) = scans :=
    List.filter_eq_self.mpr fun scan member => decide_eq_true (empties.scanning scan member)
  have second : writes.filter (·.method = .scan) = [] := by
    refine List.filter_eq_nil_iff.mpr fun write member => ?_
    simp [empties.writing write member]
  rw [List.filter_append, first, second, List.append_nil]

/-- If not all keys can be gathered, nothing is deleted. -/
theorem empties_of_error {names : List String} {scans : List Exchange} {fault : Fault}
    (gathers : Gathers names scans (.error fault)) (table : String) :
    Empties table names scans [] (.error fault) where
  scanning := gathers.method
  writing := nofun
  ended none := absurd rfl none
  unread scan member other unread := by
    cases gathers.error_of_unread member unread
    exact ⟨rfl, rfl⟩
  keyless other failed := by
    cases gathers.error_of_keyless failed
    exact ⟨rfl, rfl⟩
  untranslated keys other projected _ := by
    refine ⟨⟨fault, rfl⟩, fun ended => ?_, rfl⟩
    cases (gathers.result_of_isOver ended).trans projected
  nothing _ := rfl
  deleted := nofun
  unchanged := nofun

/-- Once all keys are gathered, what follows is their deletion. -/
theorem empties_of_ok {table : String} {names : List String} {scans writes : List Exchange}
    {keys : List Value} {result : Except Fault Nat} (gathers : Gathers names scans (.ok keys))
    (deletes : Deletes table keys writes result) : Empties table names scans writes result := by
  obtain ⟨ended, projected⟩ := gathers.scanned_of_ok rfl
  constructor
  · exact gathers.method
  · exact deletes.method
  · exact fun _ => ended
  · intro scan member fault unread
    cases gathers.error_of_unread member unread
  · intro fault failed
    cases gathers.error_of_keyless failed
  · intro others fault same failed
    cases projected.symm.trans same
    obtain ⟨ends, none⟩ := deletes.untranslated fault failed
    exact ⟨⟨fault, ends⟩, fun _ => ends, none⟩
  · intro none
    rw [none] at projected
    exact deletes.nothing ((mapM_nil_eq_ok_iff _ _).mp projected)
  · intro number done
    obtain ⟨count, accepted⟩ := deletes.accepted number done
    have each := forall₂_of_mapM projected
    refine ⟨ended, ?_, keys, projected, each.imp fun _ _ => isKeyOf_of_keyOf, accepted⟩
    rw [count, each.length_eq]
  · intro others same settled
    cases projected.symm.trans same
    exact deletes.unchanged settled

/-- A table that is described leaves a note of that. -/
theorem outcome_describe_journaled {client : Client ω} {table description : Value}
    {world described : ω}
    (describes : (client.describe table).outcome world = (.ok description, described)) :
    (client.journaled.describe table).outcome (world, []) =
      (.ok description,
        (described, [.called ⟨.describeTable, [("TableName", table)], .ok description⟩])) := by
  rw [describe, Store.outcome_send] at describes
  by_cases served : client.store.serves .describeTable = true
  · rw [if_pos served] at describes
    exact Store.outcome_send_noted served describes []
  · rw [if_neg served] at describes
    cases describes

/-- **Emptying a table.** Let a table be described with at least one key attribute, and let the
store hand back no class of delete requests more often than it was sent. Then all calls of the scan
come before all others, and no request to delete is sent before the scan is over, nor if some native
has no key that translates. If a number is returned, it is the number of natives scanned, and what
the store accepted are, class by class, the requests to delete under their keys. The requests are
sent as they are made from the natives, each at most once on a page. -/
theorem emptyTable_deletes (client : Client ω) (table : String) {description : Value}
    {names : List String} {world described : ω}
    (describes : (client.describe (.text table)).outcome world = (.ok description, described))
    (schema : keyNames description = .ok names) (named : names ≠ [])
    (own : (Operation.write .delete).HandsBackOwn client.store table)
    {result : Except Fault Nat} {after : Journaled ω Exchange}
    (run : (client.journaled.emptyTable (.text table)).outcome (world, []) = (result, after)) :
    ∃ scans writes, Event.calls after.2 =
        ⟨.describeTable, [("TableName", .text table)], .ok description⟩ :: (scans ++ writes) ∧
      Empties table names scans writes result := by
  have some : names.isEmpty = false := List.isEmpty_eq_false_iff.mpr named
  rw [emptyTable, outcome_bind, outcome_describe_journaled describes] at run
  simp only [outcome_bind, outcome_lift, schema, some, Bool.false_eq_true, ↓reduceIte,
    Store.outcome_limit] at run
  split at run
  · rename_i keys middle gathering
    obtain ⟨scans, journal, gathers⟩ := gathers_of_outcome gathering
    change (deleteNative client.store.journaled (.text table) keys
      (client.control none).journaled).outcome middle = (result, after) at run
    obtain ⟨writes, sent, deletes⟩ := deletes_of_outcome own run
    refine ⟨scans, writes, ?_, empties_of_ok gathers deletes⟩
    rw [sent, journal, Event.calls_append, Event.calls_map_called]
    rfl
  · rename_i fault middle gathering
    obtain ⟨scans, journal, gathers⟩ := gathers_of_outcome gathering
    cases run
    refine ⟨scans, [], ?_, empties_of_error gathers table⟩
    rw [journal, Event.calls_append, Event.calls_map_called, List.append_nil]
    rfl

/-- A store with a description of its table that is scanned with some responses, and that hands back
so many requests of each page of deletes as its schedule says. -/
def emptiedStore (description : Value) : Store (List Value × List Nat) where
  serves _ := true
  answer method request :=
    match method with
    | .scan =>
      (givingStore.within Prod.fst fun responses world => (responses, world.2)).answer .scan request
    | .writeBatch =>
      (((Operation.write .delete).scheduledStore "t").within Prod.snd
        fun schedule world => (world.1, schedule)).answer .writeBatch request
    | _ => pure description
  patience world := world.1.length + world.2.length

/-- What the store replies to a page of deletes is what its schedule alone replies. -/
theorem exchanged_of_emptiedStore {description : Value} {page : List Value} {exchange : Exchange}
    {reply : Reply}
    (exchanged :
      (Operation.write .delete).Exchanged (emptiedStore description) "t" page exchange reply) :
    (Operation.write .delete).Exchanged ((Operation.write .delete).scheduledStore "t") "t" page
      exchange reply := by
  obtain ⟨response, answered, replied, world, after, sent⟩ := exchanged.answered
  refine ⟨exchanged.requested, response, answered, replied, world.2, after.2, ?_⟩
  have answer : ((((Operation.write .delete).scheduledStore "t").answer .writeBatch
      exchange.request).outcome world.2).1 = .ok response := congrArg Prod.fst sent
  have schedule : ((((Operation.write .delete).scheduledStore "t").answer .writeBatch
      exchange.request).outcome world.2).2 = after.2 := congrArg (fun outcome => outcome.2.2) sent
  exact Prod.ext answer schedule

theorem handsBackOwn_emptiedStore (description : Value) :
    (Operation.write .delete).HandsBackOwn (emptiedStore description) "t" :=
  fun page exchange reply exchanged =>
    Operation.handsBackOwn_scheduledStore (.write .delete) "t" page exchange reply
      (exchanged_of_emptiedStore exchanged)

def schemaOfId : Value :=
  .record [("Table", .record [("KeySchema", .list [.record [("AttributeName", .text "id")]])])]

/-- A client of a store that is asked for its table by the name of the attribute that is its key. -/
def emptyingClient : Client (List Value × List Nat) where
  store := emptiedStore schemaOfId
  retries := .int 3
  pause := none
  clock _ := .one
  waitTimeout := .int 1
  pollInterval := .int 1

/-- Three natives on two pages, two of which are not deleted at once. -/
def threeNatives : List Value × List Nat :=
  ([pageResponse [textNative "a", textNative "b"] (textNative "b"),
    pageResponse [textNative "c"] .null], [2])

/-- Whether a native holds a text under the name of the key attribute, and nothing else. -/
def isTextNative : Value → Bool
  | .map [(.text "id", .map [(.text "S", .text _)])] => true
  | _ => false

theorem exists_item_of_isTextNative {native : Value} (isText : isTextNative native = true) :
    ∃ item : NativeItem, item.WellFormed ∧ native = item.toValue := by
  unfold isTextNative at isText
  split at isText
  · rename_i s
    have typed : ∀ field ∈ [("id", Attribute.scalar .text (.text s))], field.2.WellTyped := by
      intro field member
      rw [List.mem_singleton.mp member]
      exact ⟨s, rfl⟩
    exact ⟨[("id", .scalar .text (.text s))], ⟨List.nodup_singleton _, typed⟩, rfl⟩
  · cases isText

/-- Three natives are scanned on two pages and deleted with two calls. Their keys are settled, so
these calls carry the requests to delete under them and nothing else. -/
theorem emptyTable_threeNatives :
    ((emptyingClient.journaled.emptyTable (.text "t")).outcome (threeNatives, [])).1.toOption =
        some 3 ∧
      ∃ scans writes keys,
        Event.calls ((emptyingClient.journaled.emptyTable (.text "t")).outcome
            (threeNatives, [])).2.2 =
          ⟨.describeTable, [("TableName", .text "t")], .ok schemaOfId⟩ :: (scans ++ writes) ∧
        Empties "t" ["id"] scans writes
          ((emptyingClient.journaled.emptyTable (.text "t")).outcome (threeNatives, [])).1 ∧
        (scannedIn scans).mapM (keyOf ["id"]) = .ok keys ∧ HasSettledKeys keys ∧
        ∀ write ∈ writes, ∃ page, (Operation.write .delete).Carries "t" page write ∧
          1 ≤ page.length ∧ page.Subperm (keys.map Mode.delete.request) := by
  have describes : (emptyingClient.describe (.text "t")).outcome threeNatives =
      (.ok schemaOfId, threeNatives) := rfl
  have number : ((emptyingClient.journaled.emptyTable (.text "t")).outcome
      (threeNatives, [])).1.toOption = some 3 := by decide +kernel
  have texts : (scannedIn ((Event.calls ((emptyingClient.journaled.emptyTable (.text "t")).outcome
      (threeNatives, [])).2.2).filter (·.method = .scan))).all isTextNative = true := by
    decide +kernel
  obtain ⟨result, after, run⟩ : ∃ result after,
      (emptyingClient.journaled.emptyTable (.text "t")).outcome (threeNatives, []) =
        (result, after) := ⟨_, _, rfl⟩
  rw [run] at number texts ⊢
  have named : ["id"] ≠ [] := List.cons_ne_nil _ _
  obtain ⟨scans, writes, calls, empties⟩ :=
    emptyTable_deletes emptyingClient "t" describes rfl named (handsBackOwn_emptiedStore _) run
  rw [calls, List.filter_cons_of_neg (by simp), empties.filter_scans, List.all_eq_true] at texts
  cases result with
  | error fault => cases number
  | ok count =>
      obtain ⟨_, _, keys, projected, _⟩ := empties.deleted count rfl
      have settled := hasSettledKeys_of_keyOf
        (fun native member => exists_item_of_isTextNative (texts native member)) projected
      exact ⟨number, scans, writes, keys, calls, empties, projected, settled,
        empties.unchanged keys projected settled⟩

end Client

end TokenTable
