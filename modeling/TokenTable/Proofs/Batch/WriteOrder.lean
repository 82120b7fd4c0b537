import TokenTable.Proofs.Batch.Lookup
import TokenTable.Proofs.Fingerprint.Projected

/-! # Writes in the order of the list

A store may apply the writes of a page in parts and in any order. What it hands back is sent again
before any later page is, so writes under one key that are on different pages take effect in the
order of the list. As long as no page has two writes under one key, a batch that returns leaves the
table as the writes one after another would (`write_eq_foldl`): between any two pages, applying all
that is queued would lead to that table.
-/

namespace TokenTable.Batch

open Classical

variable {ω : Type}

/-- What a table holds under each key, by the key's fingerprint. -/
abbrev Contents := Option Value → Option Value

/-- The key under which a request writes. -/
def keyOfRequest (names : List String) : Value → Option Value
  | .map [(.text "PutRequest", .map [(.text "Item", item)])] => keyOf names item
  | .map [(.text "DeleteRequest", .map [(.text "Key", key)])] => keyOf names key
  | _ => none

/-- A table after a request is applied: a put replaces what is held under the key of its item, and
a delete removes what is held under its key. -/
noncomputable def Contents.apply (names : List String) (contents : Contents) : Value → Contents
  | .map [(.text "PutRequest", .map [(.text "Item", item)])] =>
    Function.update contents (keyOf names item) (some item)
  | .map [(.text "DeleteRequest", .map [(.text "Key", key)])] =>
    Function.update contents (keyOf names key) none
  | _ => contents

/-- What a table holds under a key after an item is put there, or the item there deleted. -/
def Mode.held (mode : Mode) (item : NativeItem) : Option Value :=
  match mode with
  | .put => some item.toValue
  | .delete => none

/-- A table after one item of the caller is written, or the item under one key deleted. -/
noncomputable def Mode.writeTo (mode : Mode) (names : List String) (contents : Contents)
    (item : NativeItem) : Contents :=
  Function.update contents (keyOf names item.toValue) (mode.held item)

theorem apply_request (names : List String) (contents : Contents) (mode : Mode)
    (item : NativeItem) :
    contents.apply names (mode.request item.toValue) = mode.writeTo names contents item := by
  cases mode <;> rfl

theorem keyOfRequest_request (names : List String) (mode : Mode) (item : NativeItem) :
    keyOfRequest names (mode.request item.toValue) = keyOf names item.toValue := by
  cases mode <;> rfl

/-- A request is applied under its key, if it is one at all. -/
theorem apply_cases (names : List String) (request : Value) :
    (∃ held, ∀ contents : Contents, contents.apply names request =
        Function.update contents (keyOfRequest names request) held) ∨
      ∀ contents : Contents, contents.apply names request = contents := by
  unfold Contents.apply keyOfRequest
  split
  · exact Or.inl ⟨_, fun _ => rfl⟩
  · exact Or.inl ⟨_, fun _ => rfl⟩
  · exact Or.inr fun _ => rfl

/-- Writes under different keys may trade places. -/
theorem apply_comm {names : List String} {request other : Value}
    (apart : keyOfRequest names request ≠ keyOfRequest names other) (contents : Contents) :
    (contents.apply names request).apply names other =
      (contents.apply names other).apply names request := by
  rcases apply_cases names request with ⟨held, written⟩ | idle
  · rcases apply_cases names other with ⟨heldOther, writtenOther⟩ | idleOther
    · rw [written, writtenOther, writtenOther, written]
      exact Function.update_comm apart _ _ _
    · rw [idleOther, idleOther]
  · rw [idle, idle]

/-- Writes under distinct keys may be applied in any order. -/
theorem foldl_apply_of_perm {names : List String} {requests others : List Value}
    (perm : requests.Perm others) (distinct : (requests.map (keyOfRequest names)).Nodup)
    (contents : Contents) :
    requests.foldl (Contents.apply names) contents =
      others.foldl (Contents.apply names) contents := by
  apply perm.foldl_eq'
  intro request inside other insideOther contents
  by_cases same : request = other
  · rw [same]
  · apply apply_comm
    intro clash
    exact same (List.inj_on_of_nodup_map distinct inside insideOther clash)

/-- The store applies some requests of each page to its table, in any order, and hands the others
back in any order and spelling. -/
def AppliesWrites (names : List String) (store : Store ω) (table : String)
    (contents : ω → Contents) : Prop :=
  ∀ page request response reply before after,
    writeRequest (.text table) page = .ok request →
    (store.answer .writeBatch request).outcome before = (.ok response, after) →
    writeReply (.text table) response = .ok reply →
      ∃ applied left, page.Perm (applied ++ left) ∧ marks reply.returned = marks left ∧
        contents after = applied.foldl (Contents.apply names) (contents before)

/-- The hooks of a batch change nothing of a table. -/
structure LeavesAlone (control : Control ω) (contents : ω → Contents) : Prop where
  pause : ∀ pause, control.pause = some pause → ∀ seconds world,
    contents ((pause seconds).outcome world).2 = contents world
  poll : ∀ poll, control.cancelled = some poll → ∀ world,
    contents (poll.outcome world).2 = contents world

theorem answered_of_send {store : Store ω} {method : Method} {request : Request}
    {response : Value} {before after : ω}
    (sent : (store.send method request).outcome before = (.ok response, after)) :
    (store.answer method request).outcome before = (.ok response, after) := by
  rw [Store.outcome_send] at sent
  split at sent
  · exact sent
  · cases sent

section

variable {names : List String} {store : Store ω} {table : String} {contents : ω → Contents}
  {control : Control ω} {mode : Mode} {items : Value} {retries : Nat}

theorem contents_of_isCancelled (alone : LeavesAlone control contents) {answer : Bool}
    {before after : ω}
    (asked : ((Operation.write mode).plan store table items retries control).isCancelled.outcome
      before = (.ok answer, after)) : contents after = contents before := by
  rw [Plan.isCancelled, Operation.cancelled_plan] at asked
  cases hook : control.cancelled with
  | none =>
      rw [hook] at asked
      cases asked
      rfl
  | some poll =>
      rw [hook] at asked
      have same := alone.poll poll hook before
      rwa [asked] at same

theorem contents_of_wait (alone : LeavesAlone control contents) {attempt : Nat} {before after : ω}
    (waited : (((Operation.write mode).plan store table items retries control).wait
      attempt).outcome before = (.ok (), after)) : contents after = contents before := by
  rw [Plan.wait, Operation.pause_plan] at waited
  cases hook : control.pause with
  | none =>
      rw [hook] at waited
      cases waited
      rfl
  | some pause =>
      rw [hook] at waited
      simp only at waited
      split at waited
      · cases waited
        rfl
      · obtain ⟨seconds, middle, computed, waited⟩ :=
          (Run.outcome_bind_eq_ok_iff _ _ _ _ _).mp waited
        rw [Run.outcome_lift, Prod.mk.injEq] at computed
        obtain ⟨_, rfl⟩ := computed
        have same := alone.pause pause hook (.float seconds) before
        rwa [waited] at same

/-- A page that is answered was applied in part, and the rest handed back. -/
theorem contents_of_submits (applies : AppliesWrites names store table contents)
    (alone : LeavesAlone control contents) {page : Page} {before after : ω} {reply : Reply}
    (submits : ((Operation.write mode).plan store table items retries control).Submits page before
      reply after) :
    ∃ applied left, (page.entries.map Entry.native).Perm (applied ++ left) ∧
      marks reply.returned = marks left ∧
      contents after = applied.foldl (Contents.apply names) (contents before) := by
  obtain ⟨polled, waited, asked, paused, sent⟩ := submits
  rw [Operation.submit_plan, Run.outcome_bind_eq_ok_iff] at sent
  obtain ⟨request, _, requested, sent⟩ := sent
  rw [Run.outcome_lift, Prod.mk.injEq] at requested
  obtain ⟨requested, rfl⟩ := requested
  obtain ⟨response, answered, called, replied⟩ := (Run.outcome_bind_eq_ok_iff _ _ _ _ _).mp sent
  rw [Run.outcome_lift, Prod.mk.injEq] at replied
  obtain ⟨replied, rfl⟩ := replied
  obtain ⟨applied, left, whole, returned, written⟩ :=
    applies _ request response reply _ _ requested (answered_of_send called) replied
  rw [contents_of_wait alone paused, contents_of_isCancelled alone asked] at written
  exact ⟨applied, left, whole, returned, written⟩

end

theorem fingerprint_of_remainder {restore : Value → Except Fault Value} {entries left : List Entry}
    {unprocessed : Value} (matched : remainder restore entries unprocessed = .ok left) :
    ∀ entry ∈ entries, ∃ value, fingerprint entry.native = .ok value := by
  obtain ⟨marked, marking, _⟩ := (bind_eq_ok_iff _ _ _).mp matched
  obtain ⟨kept, each⟩ := marked_of_mapM entries marked marking
  intro entry member
  rw [← kept] at member
  obtain ⟨pair, inside, rfl⟩ := List.mem_map.mp member
  exact ⟨pair.1, each pair inside⟩

/-- Two parts of natives that are apart by fingerprint have the same members if they have the same
fingerprints. -/
theorem perm_of_marks_eq {natives first second : List Value}
    (apart : ∀ native ∈ natives, ∀ other ∈ natives, mark native = mark other → native = other)
    (distinct : natives.Nodup) (within : first.Subperm natives)
    (withinSecond : second.Subperm natives)
    (same : marks first = marks second) : first.Perm second := by
  have nodup : ∀ part : List Value, part.Subperm natives → part.Nodup := by
    rintro part ⟨chosen, perm, sub⟩
    exact perm.nodup_iff.mp (distinct.sublist sub)
  have inside : ∀ part others : List Value, part.Subperm natives → others.Subperm natives →
      marks part = marks others → part ⊆ others := by
    intro part others within withinOthers same native member
    have marked : mark native ∈ marks others := by
      rw [← same]
      exact Multiset.mem_coe.mpr (List.mem_map_of_mem member)
    obtain ⟨other, insideOthers, alike⟩ := List.mem_map.mp (Multiset.mem_coe.mp marked)
    rwa [apart native (within.subset member) other (withinOthers.subset insideOthers) alike.symm]
  rw [List.perm_ext_iff_of_nodup (nodup first within) (nodup second withinSecond)]
  intro native
  constructor
  · exact fun member => inside first second within withinSecond same member
  · exact fun member => inside second first withinSecond within same.symm member

/-- Entries of a batch that writes items, no two of one slice under one key. -/
structure Writes (names : List String) (mode : Mode) (entries : List Entry) : Prop where
  requests : ∀ entry ∈ entries, ∃ item : NativeItem, item.WellFormed ∧
    entry.native = mode.request item.toValue
  apart : ∀ n, ((nthSlice writePageSize entries n).map fun entry =>
    keyOfRequest names entry.native).Nodup
  plain : ∀ entry ∈ entries, entry.HasPlainMark

/-- Between two pages, the queue is trimmed and leads the table to where it shall be. -/
structure LeadsTo (names : List String) (entries : List Entry) (final : Contents)
    (progress : Progress) (contents : Contents) : Prop where
  trimmed : Trimmed writePageSize entries progress.queue
  target : (progress.entries.map Entry.native).foldl (Contents.apply names) contents = final

section

variable {names : List String} {mode : Mode} {entries : List Entry} {page : List Entry} {n : Nat}

/-- The requests of a part of a slice are under distinct keys, and apart by fingerprint once each
has one. -/
theorem Writes.page_apart (writes : Writes names mode entries)
    (part : page.Subperm (nthSlice writePageSize entries n)) :
    ((page.map Entry.native).map (keyOfRequest names)).Nodup ∧
      ((∀ entry ∈ page, ∃ value, fingerprint entry.native = .ok value) →
        ∀ native ∈ page.map Entry.native, ∀ other ∈ page.map Entry.native,
          mark native = mark other → native = other) := by
  have distinct : ((page.map Entry.native).map (keyOfRequest names)).Nodup := by
    obtain ⟨chosen, perm, sub⟩ := part
    rw [List.map_map, ← (perm.map _).nodup_iff]
    exact (writes.apart n).sublist (sub.map _)
  refine ⟨distinct, ?_⟩
  intro taken native member other memberOther same
  have inside : ∀ entry ∈ page, entry ∈ entries := fun entry member =>
    List.mem_of_mem_drop (List.mem_of_mem_take (part.subset member))
  obtain ⟨entry, present, rfl⟩ := List.mem_map.mp member
  obtain ⟨entryOther, presentOther, rfl⟩ := List.mem_map.mp memberOther
  obtain ⟨item, wellFormed, request⟩ := writes.requests entry (inside entry present)
  obtain ⟨itemOther, wellFormedOther, requestOther⟩ :=
    writes.requests entryOther (inside entryOther presentOther)
  obtain ⟨value, fingerprinted⟩ := taken entry present
  have marked := mark_of_fingerprint fingerprinted
  have markedOther := same.symm.trans marked
  rw [request] at marked
  rw [requestOther] at markedOther
  have keys := keyOf_eq_of_mark_request wellFormed wellFormedOther marked markedOther names
  apply List.inj_on_of_nodup_map distinct member memberOther
  rw [request, requestOther, keyOfRequest_request, keyOfRequest_request, keys]

/-- What is left of a part of a slice are the very requests that the store did not apply. -/
theorem Writes.perm_of_remainder (writes : Writes names mode entries)
    (part : page.Subperm (nthSlice writePageSize entries n))
    {restore : Value → Except Fault Value} {reply : Reply} {left : List Entry}
    (matched : remainder restore page reply.unprocessed = .ok left) {applied back : List Value}
    (whole : (page.map Entry.native).Perm (applied ++ back))
    (returned : marks reply.returned = marks back) :
    left.Subperm page ∧ (page.map Entry.native).Perm (applied ++ left.map Entry.native) := by
  obtain ⟨distinct, apart⟩ := writes.page_apart part
  have plain : ∀ entry ∈ page, entry.HasPlainMark := fun entry member =>
    writes.plain entry (List.mem_of_mem_drop (List.mem_of_mem_take (part.subset member)))
  have within : marks reply.returned ≤ marksOf page := by
    rw [returned, marksOf, marks_eq_of_perm whole, marks_append]
    exact Multiset.le_add_left _ _
  obtain ⟨keeps, _⟩ := remainder_of_le _ _ _ reply plain within matched
  have same := marksOf_remainder plain within matched
  have unapplied : (left.map Entry.native).Perm back := by
    apply perm_of_marks_eq (apart (fingerprint_of_remainder matched))
    · exact distinct.of_map _
    · obtain ⟨chosen, perm, sub⟩ := keeps
      exact ⟨chosen.map Entry.native, perm.map _, sub.map _⟩
    · exact (List.sublist_append_right _ _).subperm.trans whole.symm.subperm
    · exact same.trans returned
  exact ⟨keeps, whole.trans (unapplied.symm.append_left applied)⟩

end

/-- A page that is answered, and what it leaves to do, still lead to the same table. -/
theorem LeadsTo.advances {names : List String} {mode : Mode} {entries : List Entry}
    (writes : Writes names mode entries) {store : Store ω} {table : String}
    {contents : ω → Contents} (applies : AppliesWrites names store table contents)
    {control : Control ω} (alone : LeavesAlone control contents) {items : Value} {retries : Nat}
    {final : Contents} {page : Page} {later : List Page} {gathered : List Value} {before after : ω}
    {next : Progress}
    (leads : LeadsTo names entries final ⟨page :: later, gathered⟩ (contents before))
    (advances : ((Operation.write mode).plan store table items retries control).Advances page later
      gathered before next after) :
    LeadsTo names entries final next (contents after) := by
  have target := leads.target
  rw [Progress.entries, List.flatMap_cons, List.map_append, List.foldl_append] at target
  obtain ⟨n, part, rest⟩ : ∃ n, page.entries.Subperm (nthSlice writePageSize entries n) ∧
      later = Plan.untried ((slicesOf writePageSize entries).drop (n + 1)) := by
    cases leads.trimmed with
    | under n page part => exact ⟨n, part, rfl⟩
  have distinct := (writes.page_apart part).1
  cases advances with
  | finished reply _ submits complete =>
      obtain ⟨applied, left, whole, returned, written⟩ := contents_of_submits applies alone submits
      rw [Reply.returned_of_not_given reply complete, marks_nil] at returned
      have none : left = [] := by
        have count := congrArg Multiset.card returned
        rw [marks, Multiset.coe_card, List.length_map, Multiset.card_zero] at count
        exact List.length_eq_zero_iff.mp count.symm
      rw [none, List.append_nil] at whole
      constructor
      · rw [rest]
        exact Trimmed.untried _ _ _
      · rw [written, ← foldl_apply_of_perm whole distinct]
        exact target
  | retried reply _ submits given left matched allowed =>
      obtain ⟨applied, back, whole, returned, written⟩ := contents_of_submits applies alone submits
      obtain ⟨keeps, all⟩ := writes.perm_of_remainder part matched whole returned
      have resumed : (left.map Entry.native).foldl (Contents.apply names)
            (applied.foldl (Contents.apply names) (contents before)) =
          (page.entries.map Entry.native).foldl (Contents.apply names) (contents before) := by
        rw [← List.foldl_append, ← foldl_apply_of_perm all distinct]
      constructor
      · rw [rest]
        exact Trimmed.under n ⟨left, page.attempt + 1⟩ (keeps.trans part)
      · rw [Progress.entries, List.flatMap_cons, List.map_append, List.foldl_append, written,
          resumed]
        exact target

/-- A run of a batch of writes leads to the same table from each point between two pages. -/
theorem LeadsTo.reaches {names : List String} {mode : Mode} {entries : List Entry}
    (writes : Writes names mode entries) {store : Store ω} {table : String}
    {contents : ω → Contents} (applies : AppliesWrites names store table contents)
    {control : Control ω} (alone : LeavesAlone control contents) {items : Value} {retries : Nat}
    {final : Contents} {before after : Progress × ω}
    (leads : LeadsTo names entries final before.1 (contents before.2))
    (reaches : ((Operation.write mode).plan store table items retries control).Reaches before
      after) : LeadsTo names entries final after.1 (contents after.2) := by
  induction reaches with
  | refl => exact leads
  | @tail middle point _ step ih =>
      obtain ⟨page, later, queue, turned⟩ := step
      obtain ⟨⟨queued, gathered⟩, world⟩ := middle
      cases queue
      exact ih.advances writes applies alone (Plan.advances_of_turn _ _ _ _ _ _ _ turned)

theorem nthSlice_map {α β : Type} (f : α → β) (size : Nat) (items : List α) (n : Nat) :
    nthSlice size (items.map f) n = (nthSlice size items n).map f := by
  rw [nthSlice, nthSlice, ← List.map_drop, ← List.map_take]

theorem writes_of_translates {names : List String} {mode : Mode} {items : Value}
    {natives : List NativeItem} {entries : List Entry}
    (translates : (items.elements >>= fun maps => maps.mapM Item.encode) = .ok natives)
    (apart : ∀ n, ((nthSlice writePageSize natives n).map fun item =>
      keyOf names item.toValue).Nodup)
    (made : (Operation.write mode).entriesOf items = .ok entries)
    (same : entries.map Entry.native = natives.map fun item => mode.request item.toValue) :
    Writes names mode entries where
  requests := by
    intro entry member
    have request : entry.native ∈ natives.map fun item => mode.request item.toValue := by
      rw [← same]
      exact List.mem_map_of_mem member
    obtain ⟨item, inside, equal⟩ := List.mem_map.mp request
    exact ⟨item, Operation.wellFormed_of_translates translates item inside, equal.symm⟩
  apart := by
    intro n
    have slices : (nthSlice writePageSize entries n).map Entry.native =
        (nthSlice writePageSize natives n).map fun item => mode.request item.toValue := by
      rw [← nthSlice_map, ← nthSlice_map, same]
    have keys : ((nthSlice writePageSize entries n).map fun entry =>
        keyOfRequest names entry.native) =
        (nthSlice writePageSize natives n).map fun item => keyOf names item.toValue := by
      have mapped := congrArg (List.map (keyOfRequest names)) slices
      rw [List.map_map, List.map_map] at mapped
      simpa only [Function.comp_def, keyOfRequest_request] using mapped
    rw [keys]
    exact apart n
  plain := Operation.hasPlainMark_of_entriesOf made

/-- What is written last under a key is what the table holds there. -/
theorem foldl_writeTo_of_last (names : List String) (mode : Mode) {before later : List NativeItem}
    {item : NativeItem}
    (last : ∀ other ∈ later, keyOf names other.toValue ≠ keyOf names item.toValue)
    (contents : Contents) :
    (before ++ item :: later).foldl (mode.writeTo names) contents (keyOf names item.toValue) =
      mode.held item := by
  rw [List.foldl_append, List.foldl_cons]
  have written : (mode.writeTo names (before.foldl (mode.writeTo names) contents) item)
      (keyOf names item.toValue) = mode.held item := Function.update_self _ _ _
  rw [← written]
  generalize mode.writeTo names (before.foldl (mode.writeTo names) contents) item = start
  clear written
  induction later generalizing start with
  | nil => rfl
  | cons other rest ih =>
      rw [List.forall_mem_cons] at last
      rw [List.foldl_cons, ih last.2]
      exact Function.update_of_ne (Ne.symm last.1) _ _

/-- **Writes take effect in the order of the list.** If no two items of one page have the same key,
then whatever a store applies of each page and hands back, a batch that returns leaves its table as
the caller's writes one after another would. So under every key the last write of the list
counts, also if an earlier one was retried. -/
theorem write_eq_foldl (names : List String) (store : Store ω) (table : String)
    (contents : ω → Contents) (items : Value) (mode : Mode) (control : Control ω)
    (natives : List NativeItem)
    (translates : (items.elements >>= fun maps => maps.mapM Item.encode) = .ok natives)
    (apart : ∀ n, ((nthSlice writePageSize natives n).map fun item =>
      keyOf names item.toValue).Nodup)
    (applies : AppliesWrites names store table contents) (alone : LeavesAlone control contents)
    (world after : ω)
    (returns : (write store (.text table) items (.text mode.name) control).outcome world =
      (.ok (), after)) :
    contents after = natives.foldl (mode.writeTo names) (contents world) ∧
      ∀ before item later, natives = before ++ item :: later →
        (∀ other ∈ later, keyOf names other.toValue ≠ keyOf names item.toValue) →
          contents after (keyOf names item.toValue) = mode.held item := by
  obtain ⟨entries, made, same⟩ := (Operation.write mode).entriesOf_of_encode translates
  have requests : entries.map Entry.native = natives.map fun item => mode.request item.toValue :=
    same
  have writes := writes_of_translates translates apart made requests
  have done : ((Operation.write mode).perform store table items control).outcome world =
      (.ok [], after) := by
    rw [Operation.perform, Run.outcome_bind, returns]
    rfl
  obtain ⟨retries, _, carried⟩ :=
    Operation.exists_carryOut_of_perform made (fun fault failed => by cases failed) done
  obtain ⟨gathered, _, drained, reported⟩ := (Run.outcome_bind_eq_ok_iff _ _ _ _ _).mp carried
  rw [Run.outcome_lift, Prod.mk.injEq] at reported
  rw [reported.2] at drained
  have reached := Plan.reaches_of_drain_ok _ _ _ _ _ _ drained
  have begins : LeadsTo names entries
      ((entries.map Entry.native).foldl (Contents.apply names) (contents world))
      ((Operation.write mode).start entries) (contents world) := by
    constructor
    · exact (Operation.write mode).trimmed_start entries
    · rw [Operation.entries_start]
  have final : contents after =
      (entries.map Entry.native).foldl (Contents.apply names) (contents world) :=
    (begins.reaches writes applies alone reached).target
  have folded : contents after = natives.foldl (mode.writeTo names) (contents world) := by
    rw [requests, List.foldl_map] at final
    simpa only [apply_request] using final
  refine ⟨folded, ?_⟩
  rintro before item later rfl last
  rw [folded]
  exact foldl_writeTo_of_last names mode last (contents world)

/-- A store that hands back so many requests of each page as its schedule says, in reverse order,
and applies the others to its table. -/
noncomputable def tableStore (names : List String) (table : String) :
    Store (List Nat × Contents) where
  serves _ := true
  answer _ request := .ofOutcome fun world =>
    match (Operation.write .put).pageOf table request with
    | .ok page =>
      let left := page.take (world.1.headD 0)
      (.ok ((Operation.write .put).handingBack table left.reverse),
        (world.1.tail, (page.drop (world.1.headD 0)).foldl (Contents.apply names) world.2))
    | .error _ => (.error .wrongShape, world)
  patience world := world.1.length

theorem appliesWrites_tableStore (names : List String) (table : String) :
    AppliesWrites names (tableStore names table) table Prod.snd := by
  intro page request response reply before after requested answered replied
  have carried : (Operation.write .put).pageOf table request = .ok page :=
    Operation.pageOf_request requested
  simp only [tableStore, Run.outcome_ofOutcome, carried, Prod.mk.injEq, Except.ok.injEq]
    at answered
  obtain ⟨rfl, rfl⟩ := answered
  have heard := ((Operation.write .put).reply_handingBack table _).symm.trans replied
  cases heard
  refine ⟨page.drop (before.1.headD 0), page.take (before.1.headD 0), ?_, ?_, rfl⟩
  · have whole : (page.take (before.1.headD 0) ++ page.drop (before.1.headD 0)).Perm
        (page.drop (before.1.headD 0) ++ page.take (before.1.headD 0)) := List.perm_append_comm
    rwa [List.take_append_drop] at whole
  · exact marks_eq_of_perm (List.reverse_perm _)

theorem leavesAlone_of_none (contents : ω → Contents) (maxRetries : Value) :
    LeavesAlone ⟨maxRetries, none, none⟩ contents where
  pause pause hook := by cases hook
  poll poll hook := by cases hook

/-- A later version of the first of some items. -/
def laterVersion : NativeItem :=
  [("id", .scalar .text (.text "0")), ("v", .scalar .text (.text "new"))]

/-- A full page of items, and a later version of the first. -/
def versions : Value :=
  .list ((List.range 25).map (fun n => .map [(.text "id", .text (toString n))]) ++
    [.map [(.text "id", .text "0"), (.text "v", .text "new")]])

def typedVersions : List NativeItem :=
  (List.range 25).map (fun n => textKey (toString n)) ++ [laterVersion]

theorem translates_versions :
    (versions.elements >>= fun maps => maps.mapM Item.encode) = .ok typedVersions := by
  refine (bind_eq_ok_iff _ _ _).mpr ⟨_, rfl, mapM_of_forall₂ ?_⟩
  refine List.rel_append ?_ (.cons rfl .nil)
  rw [List.forall₂_map_left_iff, List.forall₂_map_right_iff, List.forall₂_same]
  exact fun _ _ => rfl

theorem keyOf_textKey (s : String) :
    keyOf ["id"] (textKey s).toValue = mark (textKey s).toValue := by
  rw [keyOf, NativeItem.toValue, project_record]
  rfl

theorem keyOf_laterVersion : keyOf ["id"] laterVersion.toValue = mark (textKey "0").toValue := by
  rw [keyOf, NativeItem.toValue, project_record]
  rfl

theorem apart_versions (n : Nat) :
    ((nthSlice writePageSize typedVersions n).map fun item => keyOf ["id"] item.toValue).Nodup := by
  have size : writePageSize = 25 := rfl
  match n with
  | 0 =>
      have first : nthSlice writePageSize typedVersions 0 =
          (List.range 25).map fun n => textKey (toString n) := rfl
      have names : ((List.range 25).map fun n => toString n).Nodup := by decide +kernel
      have injective : Function.Injective fun s => mark (textKey s).toValue := by
        intro s t same
        simpa [mark_textKey] using same
      have keys := names.map injective
      rw [List.map_map] at keys
      rw [first, List.map_map]
      simpa only [Function.comp_def, keyOf_textKey] using keys
  | 1 => exact List.nodup_singleton _
  | n + 2 =>
      have beyond : nthSlice writePageSize typedVersions (n + 2) = [] := by
        have count : typedVersions.length = 26 := rfl
        rw [nthSlice, List.drop_eq_nil_of_le, List.take_nil]
        rw [count, size]
        omega
      rw [beyond]
      exact List.nodup_nil

/-- The first of twenty-six writes is retried, and the last, under the same key, still wins. -/
theorem write_versions :
    ∃ after, (write (tableStore ["id"] "t") (.text "t") versions (.text "put")
        ⟨.int 3, none, none⟩).outcome ([1], fun _ => none) = (.ok (), after) ∧
      after.2 (keyOf ["id"] (textKey "0").toValue) = some laterVersion.toValue := by
  obtain ⟨result, returns⟩ : ∃ result,
      ((write (tableStore ["id"] "t") (.text "t") versions (.text "put")
        ⟨.int 3, none, none⟩).outcome ([1], fun _ => none)).1 = .ok result :=
    exists_of_isOk (by decide +kernel)
  have done : (write (tableStore ["id"] "t") (.text "t") versions (.text "put")
      ⟨.int 3, none, none⟩).outcome ([1], fun _ => none) = (.ok (), _) := Prod.ext returns rfl
  obtain ⟨_, last⟩ := write_eq_foldl ["id"] (tableStore ["id"] "t") "t" Prod.snd versions .put
    ⟨.int 3, none, none⟩ typedVersions translates_versions apart_versions
    (appliesWrites_tableStore ["id"] "t")
    (leavesAlone_of_none Prod.snd (.int 3)) _ _ done
  have won := last _ laterVersion [] rfl fun _ member => by cases member
  rw [keyOf_laterVersion] at won
  rw [keyOf_textKey]
  exact ⟨_, done, won⟩

end TokenTable.Batch
