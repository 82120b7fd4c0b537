import TokenTable.Proofs.Batch.Conservation
import TokenTable.Proofs.Fingerprint.Native
import TokenTable.Store.Echo

/-! # The echo store is honest

An echo store cuts every page in two by the next count of its schedule. Of a page of keys, the items
that it returns have the fingerprints of the first part, in the order of the page or in the reverse
one, and what it leaves unprocessed has those of the second (`answers_honestly`). A call uses up one
count whatever it is answered, so what a call finds of the schedule is told by the number of calls
before it (`continues_after`). Whatever is on a page, a batch gets back only what it sent
(`honest_store`).
-/

namespace TokenTable

namespace Value

/-- A map that an echo store answers with an item: it has an attribute, each of its attributes has
a tag, and none has the name of the payload that the store adds. -/
def IsAskable (key : Value) : Prop :=
  ∃ entries, key = .map entries ∧ entries ≠ [] ∧ ∀ entry ∈ entries,
    entry.1 ≠ .text "payload" ∧ ∃ inner, entry.2 = .map inner ∧ inner ≠ []

/-- An item restricted to the attributes of its key: all but the payload. -/
def withoutPayload : Value → Value
  | .map entries => .map (entries.filter fun entry => !entry.1.same (.text "payload"))
  | v => v

theorem IsAskable.of_echo {key echo : Value} (askable : key.IsAskable)
    (done : canonical key = .ok echo) : echo.IsAskable := by
  obtain ⟨entries, rfl, some, each⟩ := askable
  obtain ⟨others, echoed, rfl⟩ := (canonical_map_eq_ok_iff entries echo).mp done
  refine ⟨others, rfl, ?_, fun other member => ?_⟩
  · rintro rfl
    cases echoed
    exact some rfl
  · obtain ⟨entry, inside, named, single⟩ := exists_of_mem_forall₂ echoed other member
    obtain ⟨bare, inner, same, tagged⟩ := each entry inside
    rw [same, canonicalUnder_map, canonical_map_eq_ok_iff] at single
    obtain ⟨payloads, respelled, same⟩ := single
    refine ⟨named ▸ bare, payloads, same, ?_⟩
    rintro rfl
    cases respelled
    exact tagged rfl

theorem withoutPayload_upsert {entries : Entries}
    (bare : ∀ entry ∈ entries, entry.1 ≠ .text "payload") (payload : Value) :
    withoutPayload (.map (upsert (.text "payload") payload entries)) = .map entries := by
  have kept : ∀ entry ∈ entries, (!entry.1.same (.text "payload")) = true := by
    intro entry member
    rw [Bool.not_eq_true', Bool.eq_false_iff]
    exact mt (same_text_right_iff _ _).mp (bare entry member)
  rw [upsert_of_absent bare, withoutPayload, List.filter_append, List.filter_eq_self.mpr kept]
  simp

/-- The item that answers a key is the key with a payload. -/
theorem IsAskable.exists_itemOf {key : Value} (askable : key.IsAskable) :
    ∃ item, Echo.itemOf key = .ok item ∧ item.withoutPayload = key := by
  obtain ⟨entries, rfl, some, each⟩ := askable
  obtain ⟨first, rest, rfl⟩ := List.exists_cons_of_ne_nil some
  obtain ⟨_, inner, tags, tagged⟩ := each first List.mem_cons_self
  obtain ⟨tag, others, rfl⟩ := List.exists_cons_of_ne_nil tagged
  obtain ⟨name, v⟩ := first
  cases tags
  exact ⟨_, rfl, withoutPayload_upsert (fun entry member => (each entry member).1) _⟩

end Value

/-- The part of a request for a table. -/
def partFor (table : String) (request : Request) : Except Fault Value := do
  (← (Value.record request).index "RequestItems").subscript (.text table)

/-- A request to read a page of keys from a table. -/
def CarriesKeys (table : String) (request : Request) (keys : List Value) : Prop :=
  (do (← partFor table request).index "Keys") = .ok (.list keys)

/-- A request to write a page to a table. -/
def CarriesWrites (table : String) (request : Request) (requests : List Value) : Prop :=
  partFor table request = .ok (.list requests)

/-- A call for a page of a table. -/
inductive PageCall (table : String) where
  | read (request : Request) (keys : List Value) (carries : CarriesKeys table request keys)
  | write (request : Request) (requests : List Value)
      (carries : CarriesWrites table request requests)

namespace Echo

variable {table : String}

/-- The store after a call, whatever the answer was. -/
def afterCall (echo : Echo) : PageCall table → Echo
  | .read request _ _ => ((store.answer .readBatch request).outcome echo).2
  | .write request _ _ => ((store.answer .writeBatch request).outcome echo).2

/-- The store after some calls. -/
def after (echo : Echo) (calls : List (PageCall table)) : Echo := calls.foldl afterCall echo

/-- What so many calls leave of an echo store: they use up the schedule and add to the pages it
received, and change nothing else. -/
structure Continues (echo : Echo) (calls : Nat) (after : Echo) : Prop where
  table : after.table = echo.table
  reverse : after.reverse = echo.reverse
  canonical : after.canonical = echo.canonical
  schedule : after.schedule = echo.schedule.drop calls

theorem outcome_read {echo : Echo} (named : echo.table = .text table) {request : Request}
    {keys : List Value} (carries : CarriesKeys table request keys) :
    (store.answer .readBatch request).outcome echo =
      (echo.readAnswer (.list keys), { echo with
        schedule := echo.schedule.tail, readPages := echo.readPages ++ [.list keys] }) := by
  have page : (do (← echo.requested request).index "Keys") = .ok (.list keys) := by
    rw [requested, named]
    exact carries
  simp only [store, Run.outcome_ofOutcome, if_pos, read, page]

theorem outcome_write {echo : Echo} (named : echo.table = .text table) {request : Request}
    {requests : List Value} (carries : CarriesWrites table request requests) :
    (store.answer .writeBatch request).outcome echo =
      (echo.writeAnswer (.list requests), { echo with
        schedule := echo.schedule.tail, writePages := echo.writePages ++ [.list requests] }) := by
  have page : echo.requested request = .ok (.list requests) := by
    rw [requested, named]
    exact carries
  simp [store, write, page]

/-- A call uses up one count. -/
theorem continues_afterCall {echo : Echo} (named : echo.table = .text table)
    (call : PageCall table) : echo.Continues 1 (echo.afterCall call) := by
  cases call with
  | read request keys carries =>
      rw [afterCall, outcome_read named carries]
      exact ⟨rfl, rfl, rfl, List.drop_one.symm⟩
  | write request requests carries =>
      rw [afterCall, outcome_write named carries]
      exact ⟨rfl, rfl, rfl, List.drop_one.symm⟩

/-- Calls use up one count each, whether they read or write. -/
theorem continues_after {echo : Echo} (named : echo.table = .text table)
    (calls : List (PageCall table)) : echo.Continues calls.length (echo.after calls) := by
  induction calls generalizing echo with
  | nil => exact ⟨rfl, rfl, rfl, rfl⟩
  | cons call rest ih =>
      have first := continues_afterCall named call
      have others := ih (first.table.trans named)
      exact {
        table := others.table.trans first.table
        reverse := others.reverse.trans first.reverse
        canonical := others.canonical.trans first.canonical
        schedule := by
          rw [after, List.foldl_cons, ← after, others.schedule, first.schedule, List.drop_drop,
            List.length_cons, Nat.add_comm] }

/-- How an entry of a page is echoed. -/
def echoOf (echo : Echo) (entry : Value) : Except Fault Value :=
  if echo.canonical then TokenTable.canonical entry else .ok entry

theorem echoOf_of_canonical {echo : Echo} (respells : echo.canonical = true) :
    echo.echoOf = TokenTable.canonical := funext fun _ => if_pos respells

/-- A page is echoed entry by entry before it is cut. -/
theorem split_list_eq (echo : Echo) (page : List Value) :
    echo.split (.list page) = (do
      let echoes ← page.mapM echo.echoOf
      splitPage (.list echoes) (echo.schedule.headD (.int 0))) := by
  unfold split
  by_cases respells : echo.canonical = true
  · rw [echoOf_of_canonical respells, if_pos respells, TokenTable.canonical,
      Value.canonicalList_eq_mapM, bind_assoc]
    rfl
  · have kept : page.mapM echo.echoOf = .ok page :=
      mapM_of_forall₂ (List.forall₂_same.mpr fun _ _ => if_neg respells)
    rw [kept, if_neg respells]
    rfl

theorem exists_echoes {echo : Echo} {page : List Value}
    (echoes : echo.canonical = true → ∃ echoes, page.mapM TokenTable.canonical = .ok echoes) :
    ∃ echoes, page.mapM echo.echoOf = .ok echoes := by
  by_cases respells : echo.canonical = true
  · rw [echoOf_of_canonical respells]
    exact echoes respells
  · exact exists_mapM fun entry _ => ⟨entry, if_neg respells⟩

theorem frozen_eq_of_echoOf {echo : Echo} {entry other : Value} (native : entry.IsNative)
    (done : echo.echoOf entry = .ok other) : frozen other = frozen entry := by
  unfold echoOf at done
  split at done
  · exact frozen_eq_of_echo native done
  · cases done
    rfl

/-- The echoes of a page have its fingerprints. -/
theorem frozen_echoes {echo : Echo} {page echoes marks : List Value}
    (natives : ∀ entry ∈ page, entry.IsNative) (echoed : page.mapM echo.echoOf = .ok echoes)
    (marked : page.mapM frozen = .ok marks) : echoes.mapM frozen = .ok marks := by
  rw [← marked]
  refine (mapM_eq_of_forall₂ ?_).symm
  have both := (List.forall₂_and_left _ _).mpr ⟨natives, forall₂_of_mapM echoed⟩
  exact both.imp fun entry other single => (frozen_eq_of_echoOf single.1 single.2).symm

theorem isAskable_of_echoOf {echo : Echo} {key other : Value} (askable : key.IsAskable)
    (done : echo.echoOf key = .ok other) : other.IsAskable := by
  unfold echoOf at done
  split at done
  · exact askable.of_echo done
  · cases done
    exact askable

/-- Keys are answered with an item each. -/
theorem exists_items {keys : List Value} (askable : ∀ key ∈ keys, key.IsAskable) :
    ∃ items, keys.mapM itemOf = .ok items ∧ items.map Value.withoutPayload = keys := by
  obtain ⟨items, made, same⟩ := (forall₂_read_iff Value.withoutPayload keys keys).mp <|
    List.forall₂_same.mpr fun key member => (askable key member).exists_itemOf
  exact ⟨items, mapM_of_forall₂ made, same⟩

theorem findD_single (table : String) (v default : Value) :
    (Value.map [(.text table, v)]).findD (.text table) default = .ok v := by
  simp [Value.findD, Value.entries, Value.lookup?, bind, Except.bind, pure, Except.pure]

/-- The keys that are left are found again under the table, if there are any. -/
theorem exists_leftKeys (table : String) (left : List Value) :
    ∃ unprocessed part keys,
      leftOver (.text table) (.list left) (fun keys => .record [("Keys", keys)]) =
        .ok unprocessed ∧
      unprocessed.findD (.text table) (.map []) = .ok part ∧ part.get "Keys" = .ok keys ∧
      ∀ gathered, (Batch.Reply.mk gathered keys).returned = left := by
  cases left with
  | nil => exact ⟨.map [], .map [], .null, rfl, rfl, rfl, fun _ => rfl⟩
  | cons key rest =>
      exact ⟨_, _, .list (key :: rest), rfl, findD_single table _ _, rfl, fun _ => rfl⟩

theorem exists_leftWrites (table : String) (left : List Value) :
    ∃ unprocessed, leftOver (.text table) (.list left) id = .ok unprocessed ∧
      unprocessed.findD (.text table) (.list []) = .ok (.list left) := by
  cases left with
  | nil => exact ⟨.map [], rfl, rfl⟩
  | cons request rest => exact ⟨_, rfl, findD_single table _ _⟩

/-- The answer to a page of keys holds an item for each key of its first part, and its second
part. -/
theorem exists_readReply {echo : Echo} (named : echo.table = .text table) {page : Value}
    {done left items : List Value} (cut : echo.split page = .ok (.list done, .list left))
    (made : done.mapM itemOf = .ok items) :
    ∃ answer reply, echo.readAnswer page = .ok answer ∧
      Batch.readReply (.text table) answer = .ok reply ∧
      reply.gathered = (if echo.reverse then items.reverse else items) ∧
      reply.returned = left := by
  have own (v : Value) : Value.single (.text table) v = .ok (.map [(.text table, v)]) := rfl
  obtain ⟨unprocessed, part, keys, wrapped, found, held, returned⟩ := exists_leftKeys table left
  have answered : echo.readAnswer page = .ok (.record [
      ("Responses", .map [(.text table, .list (if echo.reverse then items.reverse else items))]),
      ("UnprocessedKeys", unprocessed)]) := by
    simp [readAnswer, cut, named, made, wrapped, own, bind, Except.bind, pure, Except.pure]
  have heard : ∀ responses : List Value, Batch.readReply (.text table) (.record [
      ("Responses", .map [(.text table, .list responses)]), ("UnprocessedKeys", unprocessed)]) =
        .ok ⟨responses, keys⟩ := by
    intro responses
    simp [Batch.readReply, Value.getD_record, List.lookup_cons, findD_single, found, held, bind,
      Except.bind, pure, Except.pure]
  exact ⟨_, _, answered, heard _, rfl, returned _⟩

theorem exists_writeReply {echo : Echo} (named : echo.table = .text table) {page done : Value}
    {left : List Value} (cut : echo.split page = .ok (done, .list left)) :
    ∃ answer reply, echo.writeAnswer page = .ok answer ∧
      Batch.writeReply (.text table) answer = .ok reply ∧ reply.returned = left := by
  obtain ⟨unprocessed, wrapped, found⟩ := exists_leftWrites table left
  have answered : echo.writeAnswer page = .ok (.record [("UnprocessedItems", unprocessed)]) := by
    simp [writeAnswer, cut, named, wrapped, bind, Except.bind, pure, Except.pure]
  have heard : Batch.writeReply (.text table) (.record [("UnprocessedItems", unprocessed)]) =
      .ok ⟨[], .list left⟩ := by
    simp [Batch.writeReply, Value.getD_record, found, bind, Except.bind, pure, Except.pure]
  exact ⟨_, _, answered, heard, rfl⟩

/-- How many of so many entries a count leaves unprocessed: so many of the last or, if it is
negative, all but so many of the first. -/
def unprocessedUnder (count : Int) (length : Nat) : Nat :=
  if 0 ≤ count then min count.toNat length else length - (-count).toNat

theorem sub_splitPoint (length : Nat) (count : Int) :
    length - splitPoint length count = unprocessedUnder count length := by
  unfold splitPoint unprocessedUnder
  split_ifs <;> omega

/-- The fingerprints of a page in two parts, of which the second is what a call after so many others
leaves unprocessed: as much as its count of the schedule says, and nothing once the counts are used
up. -/
structure CutAfter (counts : List Int) (calls : Nat) (marks done left : List Value) : Prop where
  whole : done ++ left = marks
  size : left.length = unprocessedUnder (counts.getD calls 0) marks.length
  usedUp : counts.length ≤ calls → left = []

theorem cutAfter (counts : List Int) (calls : Nat) (marks : List Value) :
    CutAfter counts calls marks (marks.take (splitPoint marks.length (counts.getD calls 0)))
      (marks.drop (splitPoint marks.length (counts.getD calls 0))) where
  whole := List.take_append_drop _ marks
  size := by rw [List.length_drop, sub_splitPoint]
  usedUp late := by
    have none : counts.getD calls 0 = 0 := by simp [late]
    rw [none]
    exact List.drop_eq_nil_of_le (le_of_eq rfl)

theorem headD_schedule {schedule : List Value} {counts : List Int}
    (scheduled : schedule = counts.map Value.int) (calls : Nat) :
    (schedule.drop calls).headD (.int 0) = .int (counts.getD calls 0) := by
  rw [scheduled, List.headD_eq_head?_getD, List.head?_drop, List.getElem?_map,
    List.getD_eq_getElem?_getD]
  cases counts[calls]? <;> rfl

/-- A page of native maps is cut into echoes that have its fingerprints. -/
theorem exists_cut {echo : Echo} {count : Int} (next : echo.schedule.headD (.int 0) = .int count)
    {page marks : List Value} (natives : ∀ entry ∈ page, entry.IsNative)
    (marked : page.mapM frozen = .ok marks)
    (respelled : echo.canonical = true →
      ∃ echoes, page.mapM TokenTable.canonical = .ok echoes) :
    ∃ echoes, page.mapM echo.echoOf = .ok echoes ∧ echoes.mapM frozen = .ok marks ∧
      echo.split (.list page) = .ok (.list (echoes.take (splitPoint marks.length count)),
        .list (echoes.drop (splitPoint marks.length count))) := by
  obtain ⟨echoes, echoed⟩ := exists_echoes respelled
  have remarked := frozen_echoes natives echoed marked
  refine ⟨echoes, echoed, remarked, ?_⟩
  rw [split_list_eq, echoed, next, ← (forall₂_of_mapM remarked).length_eq]
  exact splitPage_int echoes count

section Calls

variable {echo : Echo} {count : Int} {request : Request} {page marks : List Value}

/-- A call for keys is answered with items for the first part of its page, whose fingerprints they
have without their payloads, and with the second part. -/
theorem exists_reply_of_read (named : echo.table = .text table)
    (next : echo.schedule.headD (.int 0) = .int count) (carries : CarriesKeys table request page)
    (keyed : ∀ key ∈ page, key.IsNative ∧ key.IsAskable) (marked : page.mapM frozen = .ok marks)
    (respelled : echo.canonical = true →
      ∃ echoes, page.mapM TokenTable.canonical = .ok echoes) :
    ∃ answer reply, ((store.answer .readBatch request).outcome echo).1 = .ok answer ∧
      Batch.readReply (.text table) answer = .ok reply ∧
      reply.gathered.mapM (fun item => frozen item.withoutPayload) =
        .ok (if echo.reverse then (marks.take (splitPoint marks.length count)).reverse
          else marks.take (splitPoint marks.length count)) ∧
      reply.returned.mapM frozen = .ok (marks.drop (splitPoint marks.length count)) := by
  obtain ⟨echoes, echoed, marked, cut⟩ :=
    exists_cut next (fun key member => (keyed key member).1) marked respelled
  have askable : ∀ key ∈ echoes.take (splitPoint marks.length count), key.IsAskable := by
    intro other member
    obtain ⟨key, inside, single⟩ := exists_of_mem_mapM echoed (List.mem_of_mem_take member)
    exact isAskable_of_echoOf (keyed key inside).2 single
  obtain ⟨items, made, bare⟩ := exists_items askable
  obtain ⟨answer, reply, answered, heard, gathered, returned⟩ := exists_readReply named cut made
  have forward := mapM_take marked (splitPoint marks.length count)
  rw [← bare, List.mapM_map] at forward
  refine ⟨answer, reply, ?_, heard, ?_, ?_⟩
  · rw [outcome_read named carries]
    exact answered
  · rw [gathered]
    split
    · exact mapM_reverse forward
    · exact forward
  · rw [returned]
    exact mapM_drop marked _

/-- A call that writes is answered with the second part of its page. -/
theorem exists_reply_of_write (named : echo.table = .text table)
    (next : echo.schedule.headD (.int 0) = .int count) (carries : CarriesWrites table request page)
    (natives : ∀ entry ∈ page, entry.IsNative) (marked : page.mapM frozen = .ok marks)
    (respelled : echo.canonical = true →
      ∃ echoes, page.mapM TokenTable.canonical = .ok echoes) :
    ∃ answer reply, ((store.answer .writeBatch request).outcome echo).1 = .ok answer ∧
      Batch.writeReply (.text table) answer = .ok reply ∧
      reply.returned.mapM frozen = .ok (marks.drop (splitPoint marks.length count)) := by
  obtain ⟨echoes, _, marked, cut⟩ := exists_cut next natives marked respelled
  obtain ⟨answer, reply, answered, heard, returned⟩ := exists_writeReply named cut
  refine ⟨answer, reply, ?_, heard, ?_⟩
  · rw [outcome_write named carries]
    exact answered
  · rw [returned]
    exact mapM_drop marked _

end Calls

/-- **The echo store is honest.** Whatever calls came before, a call cuts the fingerprints of its
page in two. Without their payloads, the items that are returned have those of the first part, in
the order of the page or exactly reversed; what is left unprocessed has those of the second. A call
uses up one count of the schedule, and once there is none nothing is left unprocessed. -/
theorem answers_honestly (echo : Echo) (table : String) (counts : List Int)
    (named : echo.table = .text table) (scheduled : echo.schedule = counts.map Value.int)
    (calls : List (PageCall table)) :
    (echo.after calls).schedule = (counts.drop calls.length).map Value.int ∧
      (∀ request keys marks, CarriesKeys table request keys →
        (∀ key ∈ keys, key.IsNative ∧ key.IsAskable) → keys.mapM frozen = .ok marks →
        (echo.canonical = true → ∃ echoes, keys.mapM TokenTable.canonical = .ok echoes) →
        ∃ answer reply done left,
          ((store.answer .readBatch request).outcome (echo.after calls)).1 = .ok answer ∧
          Batch.readReply (.text table) answer = .ok reply ∧
          CutAfter counts calls.length marks done left ∧
          reply.gathered.mapM (fun item => frozen item.withoutPayload) =
            .ok (if echo.reverse then done.reverse else done) ∧
          reply.returned.mapM frozen = .ok left) ∧
      ∀ request requests marks, CarriesWrites table request requests →
        (∀ entry ∈ requests, entry.IsNative) → requests.mapM frozen = .ok marks →
        (echo.canonical = true → ∃ echoes, requests.mapM TokenTable.canonical = .ok echoes) →
        ∃ answer reply done left,
          ((store.answer .writeBatch request).outcome (echo.after calls)).1 = .ok answer ∧
          Batch.writeReply (.text table) answer = .ok reply ∧
          CutAfter counts calls.length marks done left ∧ reply.returned.mapM frozen = .ok left := by
  have continues := continues_after named calls
  have known := continues.table.trans named
  have next := headD_schedule scheduled calls.length
  rw [← continues.schedule] at next
  rw [← continues.canonical, ← continues.reverse]
  refine ⟨?_, ?_, ?_⟩
  · rw [continues.schedule, scheduled, List.map_drop]
  · intro request keys marks carries keyed marked respelled
    obtain ⟨answer, reply, answered, heard, gathered, returned⟩ :=
      exists_reply_of_read known next carries keyed marked respelled
    exact ⟨answer, reply, _, _, answered, heard, cutAfter counts calls.length marks, gathered,
      returned⟩
  · intro request requests marks carries natives marked respelled
    obtain ⟨answer, reply, answered, heard, returned⟩ :=
      exists_reply_of_write known next carries natives marked respelled
    exact ⟨answer, reply, _, _, answered, heard, cutAfter counts calls.length marks, returned⟩

/-- A native key of one number. -/
def numberKey (s : String) : Value := .record [("id", .record [("N", .text s)])]

theorem isAskable_numberKey (s : String) : (numberKey s).IsAskable := by
  refine ⟨_, rfl, List.cons_ne_nil _ _, ?_⟩
  rw [List.map_cons, List.map_nil, List.forall_mem_singleton]
  exact ⟨by simp, _, rfl, List.cons_ne_nil _ _⟩

/-- Two keys, spelled with trailing zeros. -/
def numberKeys : List Value := [numberKey "1.0", numberKey "2.50"]

/-- The requests to delete under these keys. -/
def numberDeletes : List Value := numberKeys.map Batch.Mode.delete.request

/-- A store that respells numbers and turns items round. -/
def backwards : Echo :=
  { table := .text "t", reverse := true, canonical := true
    schedule := [1, -1].map Value.int, readPages := [], writePages := [] }

/-- A write of no items. -/
def emptyWrite : PageCall "t" :=
  .write [("RequestItems", .record [("t", .list [])])] [] (by rfl)

/-- After a write the second count is the next: of two keys, or of two deletions, the first is
processed. -/
theorem answers_honestly_backwards :
    (∃ marks answer reply done left, numberKeys.mapM frozen = .ok marks ∧
      ((store.answer .readBatch [("RequestItems",
        .record [("t", .record [("Keys", .list numberKeys)])])]).outcome
          (backwards.after [emptyWrite])).1 = .ok answer ∧
      Batch.readReply (.text "t") answer = .ok reply ∧ CutAfter [1, -1] 1 marks done left ∧
      reply.gathered.mapM (fun item => frozen item.withoutPayload) = .ok done.reverse ∧
      reply.returned.mapM frozen = .ok left) ∧
    ∃ marks answer reply done left, numberDeletes.mapM frozen = .ok marks ∧
      ((store.answer .writeBatch [("RequestItems",
        .record [("t", .list numberDeletes)])]).outcome (backwards.after [emptyWrite])).1 =
          .ok answer ∧
      Batch.writeReply (.text "t") answer = .ok reply ∧ CutAfter [1, -1] 1 marks done left ∧
      reply.returned.mapM frozen = .ok left := by
  have native : ∀ entry ∈ numberKeys ++ numberDeletes, entry.IsNative := by
    have fingerprinted : ∀ entry ∈ numberKeys ++ numberDeletes,
        (fingerprint entry).isOk = true := by decide +kernel
    intro entry member
    obtain ⟨mark, found⟩ := exists_of_isOk (fingerprinted entry member)
    exact isNative_of_fingerprint found
  have keyed : ∀ key ∈ numberKeys, key.IsNative ∧ key.IsAskable := by
    intro key member
    refine ⟨native key (List.mem_append_left _ member), ?_⟩
    rcases List.mem_pair.mp member with rfl | rfl
    · exact isAskable_numberKey _
    · exact isAskable_numberKey _
  obtain ⟨_, reads, writes⟩ := answers_honestly backwards "t" [1, -1] rfl rfl [emptyWrite]
  constructor
  · obtain ⟨marks, marked⟩ : ∃ marks, numberKeys.mapM frozen = .ok marks :=
      exists_of_isOk (by decide +kernel)
    obtain ⟨answer, reply, done, left, answered, heard, cut, gathered, returned⟩ :=
      reads [("RequestItems", .record [("t", .record [("Keys", .list numberKeys)])])] numberKeys
        marks rfl keyed marked fun _ => exists_of_isOk (by decide +kernel)
    exact ⟨marks, answer, reply, done, left, marked, answered, heard, cut, gathered, returned⟩
  · obtain ⟨marks, marked⟩ : ∃ marks, numberDeletes.mapM frozen = .ok marks :=
      exists_of_isOk (by decide +kernel)
    obtain ⟨answer, reply, done, left, answered, heard, cut, returned⟩ :=
      writes [("RequestItems", .record [("t", .list numberDeletes)])] numberDeletes marks rfl
        (fun entry member => native entry (List.mem_append_right _ member)) marked
        fun _ => exists_of_isOk (by decide +kernel)
    exact ⟨marks, answer, reply, done, left, marked, answered, heard, cut, returned⟩

section Batches

/-! An echo store is honest towards every batch, whatever the entries and the schedule are. -/

theorem marks_echoes {echo : Echo} {page echoes : List Value}
    (echoed : page.mapM echo.echoOf = .ok echoes) : marks echoes = marks page := by
  have same : echoes.map mark = page.map mark := by
    rw [eq_comm, ← List.forall₂_eq_eq_eq, List.forall₂_map_left_iff, List.forall₂_map_right_iff]
    refine (forall₂_of_mapM echoed).imp fun entry other single => ?_
    unfold echoOf at single
    split at single
    · rw [mark, mark, fingerprint_toOption_eq_of_echo single]
    · cases single
      rfl
  rw [marks, marks, same]

/-- By whatever count a page is cut, its second part is a suffix. -/
theorem exists_of_splitPage {entries : List Value} {count done left : Value}
    (cut : splitPage (.list entries) count = .ok (done, left)) :
    ∃ place, done = .list (entries.take place) ∧ left = .list (entries.drop place) := by
  obtain ⟨nought, _, cut⟩ := (bind_eq_ok_iff _ _ _).mp cut
  cases nought with
  | true =>
      cases cut
      exact ⟨entries.length, by rw [List.take_length], by rw [List.drop_length]⟩
  | false =>
      obtain ⟨n, _, cut⟩ := (bind_eq_ok_iff _ _ _).mp cut
      cases cut
      exact ⟨splitPoint entries.length n, rfl, by rw [Value.part, List.take_length]⟩

/-- What is left of a page has fingerprints of the page, none more often. -/
theorem marks_left_le {echo : Echo} {page : List Value} {done left : Value}
    (cut : echo.split (.list page) = .ok (done, left)) :
    ∃ echoes unprocessed, done = .list echoes ∧ left = .list unprocessed ∧
      marks unprocessed ≤ marks page := by
  rw [split_list_eq] at cut
  obtain ⟨echoes, echoed, cut⟩ := (bind_eq_ok_iff _ _ _).mp cut
  obtain ⟨place, rfl, rfl⟩ := exists_of_splitPage cut
  refine ⟨_, _, rfl, rfl, ?_⟩
  rw [← marks_echoes echoed]
  exact Multiset.coe_le.mpr ((List.drop_sublist place echoes).map mark).subperm

theorem subscript_single_eq_ok_iff (part key found : Value) :
    (Value.map [(.text table, part)]).subscript key = .ok found ↔
      key = .text table ∧ part = found := by
  rw [Value.subscript, Value.lookup?_cons]
  by_cases own : key = .text table
  · subst own
    simp [Value.isKey]
  · have apart : ¬ (Value.text table).same key = true := by rwa [Value.same_text_left_iff]
    rw [if_neg apart]
    split <;> simp [Value.lookup?, own]

/-- A request for the part of one table is answered by the store of that table only. -/
theorem requested_single_eq_ok_iff (echo : Echo) (part found : Value) :
    echo.requested [("RequestItems", .map [(.text table, part)])] = .ok found ↔
      echo.table = .text table ∧ part = found := by
  rw [← subscript_single_eq_ok_iff]
  rfl

theorem partFor_single (table : String) (part : Value) :
    partFor table [("RequestItems", .map [(.text table, part)])] = .ok part :=
  (subscript_single_eq_ok_iff part (.text table) part).mpr ⟨rfl, rfl⟩

theorem carriesKeys_of_readRequest {consistent : Bool} {page : List Value} {request : Request}
    (requested : Batch.readRequest (.text table) consistent page = .ok request) :
    CarriesKeys table request page := by
  cases requested
  rw [CarriesKeys, partFor_single]
  rfl

theorem carriesWrites_of_writeRequest {page : List Value} {request : Request}
    (requested : Batch.writeRequest (.text table) page = .ok request) :
    CarriesWrites table request page := by
  cases requested
  exact partFor_single table (.list page)

theorem named_of_answer {method : Method} {part response : Value} {echo after : Echo}
    (answered : (store.answer method [("RequestItems", .map [(.text table, part)])]).outcome echo =
      (.ok response, after)) : echo.table = .text table := by
  cases found : echo.requested [("RequestItems", .map [(.text table, part)])] with
  | error fault =>
      rw [store, Run.outcome_ofOutcome] at answered
      split at answered
      · simp [read, found, bind, Except.bind] at answered
      · simp [write, found] at answered
  | ok part => exact ((requested_single_eq_ok_iff echo _ _).mp found).1

/-- **An echo store hands back only what it was sent.** -/
theorem honest_store (operation : Batch.Operation) (table : String) :
    operation.Honest store table := by
  intro page exchange reply exchanged
  obtain ⟨response, _, replied, echo, after, answered⟩ := exchanged.answered
  have requested := exchanged.requested
  obtain ⟨method, request, answer⟩ := exchange
  cases operation with
  | read consistent order =>
      have carries := carriesKeys_of_readRequest requested
      cases requested
      have named := named_of_answer answered
      rw [Batch.Operation.method, outcome_read named carries] at answered
      have answered := congrArg Prod.fst answered
      obtain ⟨⟨done, left⟩, cut, further⟩ := (bind_eq_ok_iff _ _ _).mp answered
      obtain ⟨echoes, unprocessed, rfl, rfl, within⟩ := marks_left_le cut
      obtain ⟨members, listed, further⟩ := (bind_eq_ok_iff _ _ _).mp further
      cases listed
      obtain ⟨items, made, _⟩ := (bind_eq_ok_iff _ _ _).mp further
      obtain ⟨_, _, same, heard, _, returned⟩ := exists_readReply named cut made
      cases same.symm.trans answered
      cases heard.symm.trans replied
      rwa [returned]
  | write mode =>
      have carries := carriesWrites_of_writeRequest requested
      cases requested
      have named := named_of_answer answered
      rw [Batch.Operation.method, outcome_write named carries] at answered
      have answered := congrArg Prod.fst answered
      obtain ⟨⟨done, left⟩, cut, _⟩ := (bind_eq_ok_iff _ _ _).mp answered
      obtain ⟨echoes, unprocessed, rfl, rfl, within⟩ := marks_left_le cut
      obtain ⟨_, _, same, heard, returned⟩ := exists_writeReply named cut
      cases same.symm.trans answered
      cases heard.symm.trans replied
      rwa [returned]

end Batches

end Echo

end TokenTable
