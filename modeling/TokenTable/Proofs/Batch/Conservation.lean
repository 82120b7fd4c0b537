import Mathlib.Algebra.Order.Group.Multiset
import TokenTable.Proofs.Batch.Course
import TokenTable.Proofs.Batch.Entries
import TokenTable.Proofs.Batch.Slices

/-! # Conservation of entries

A store accepts what it is sent and does not hand back. As long as it hands back, by fingerprint,
nothing that it was not sent, what it accepted and what is queued together are the entries of the
caller between any two pages (`conserved_of_passes`): a turn moves a page from the queue to what was
accepted, but for what comes back, and that is matched with entries of the page.
-/

namespace TokenTable.Batch

open Classical

variable {ω : Type}

namespace Operation

/-- The page that a request carries. -/
def pageOf (operation : Operation) (table : String) (request : Request) :
    Except Fault (List Value) := do
  let part ← (← (Value.record request).index "RequestItems").index table
  match operation with
  | .read .. => (← part.index "Keys").elements
  | .write _ => part.elements

theorem pageOf_request {operation : Operation} {table : String} {page : List Value}
    {request : Request} (requested : operation.request table page = .ok request) :
    operation.pageOf table request = .ok page := by
  have here : ∀ (name : String) (value : Value) (others : Value.Entries),
      (Value.map ((.text name, value) :: others)).index name = .ok value := by
    intro name value others
    simp [Value.index, Value.lookup?]
  unfold pageOf
  cases operation with
  | read consistent order =>
      cases requested
      simp only [Value.record, List.map_cons, List.map_nil, here, bind, Except.bind]
      rfl
  | write mode =>
      cases requested
      simp only [Value.record, List.map_cons, List.map_nil, here, bind, Except.bind]
      rfl

/-- The fingerprints that the store accepted in a call: those of the page, but for those that it
handed back. -/
noncomputable def accepted (operation : Operation) (table : String) (exchange : Exchange) :
    Multiset (Option Value) :=
  match operation.pageOf table exchange.request, exchange.answer >>= operation.reply table with
  | .ok page, .ok reply => marks page - marks reply.returned
  | _, _ => 0

/-- The fingerprints that the store accepted in some calls. -/
noncomputable def acceptedIn (operation : Operation) (table : String) (calls : List Exchange) :
    Multiset (Option Value) := (calls.map (operation.accepted table)).sum

/-- The store hands back nothing, by fingerprint, that the page of the call did not hold as
often. -/
def Honest (operation : Operation) (store : Store ω) (table : String) : Prop :=
  ∀ page exchange reply, operation.Exchanged store table page exchange reply →
    marks reply.returned ≤ marks page

/-- What was accepted in a call and what came back are the page. -/
theorem accepted_add_returned {operation : Operation} {store : Store ω} {table : String}
    (honest : operation.Honest store table) {page : List Value} {exchange : Exchange}
    {reply : Reply}
    (exchanged : operation.Exchanged store table page exchange reply) :
    operation.accepted table exchange + marks reply.returned = marks page := by
  obtain ⟨response, answered, replied, _⟩ := exchanged.answered
  have heard : exchange.answer >>= operation.reply table = .ok reply := by
    rw [answered]
    exact replied
  rw [accepted, pageOf_request exchanged.requested, heard]
  exact Multiset.sub_add_cancel (honest page exchange reply exchanged)

theorem acceptedIn_append (operation : Operation) (table : String) (calls : List Exchange)
    (exchange : Exchange) :
    operation.acceptedIn table (calls ++ [exchange]) =
      operation.acceptedIn table calls + operation.accepted table exchange := by
  unfold acceptedIn
  rw [List.map_append, List.sum_append, List.map_singleton, List.sum_singleton]

theorem flatMap_entries_untried (slices : List (List Entry)) :
    (Plan.untried slices).flatMap Page.entries = slices.flatten := by
  rw [Plan.untried, List.flatMap_map, List.flatMap_id']

end Operation

/-- A queue whose first page is part of a slice of the entries, and whose other pages are the slices
that come after that one. -/
inductive Trimmed (size : Nat) (entries : List Entry) : List Page → Prop
  | done : Trimmed size entries []
  | under (n : Nat) (page : Page) (part : page.entries.Subperm (nthSlice size entries n)) :
      Trimmed size entries (page :: Plan.untried ((slicesOf size entries).drop (n + 1)))

namespace Trimmed

theorem untried (size : Nat) (entries : List Entry) (n : Nat) :
    Trimmed size entries (Plan.untried ((slicesOf size entries).drop n)) := by
  by_cases inside : n < (slicesOf size entries).length
  · have slice := slicesOf_getElem size entries n inside
    rw [List.drop_eq_getElem_cons inside, slice]
    exact under n ⟨nthSlice size entries n, 0⟩ (List.Subperm.refl _)
  · have none : (slicesOf size entries).drop n = [] := List.drop_eq_nil_of_le (by omega)
    rw [none]
    exact done

/-- What is queued are entries of the caller, no place of which is used twice. -/
theorem subperm {size : Nat} {entries : List Entry} {queue : List Page} (positive : 0 < size)
    (trimmed : Trimmed size entries queue) : (queue.flatMap Page.entries).Subperm entries := by
  cases trimmed with
  | done => exact List.nil_subperm
  | under n page part =>
      rw [List.flatMap_cons, Operation.flatMap_entries_untried,
        flatten_drop_slicesOf size entries positive]
      have within := part.append (List.Subperm.refl (entries.drop ((n + 1) * size)))
      rw [nthSlice_append_drop] at within
      exact within.trans (List.drop_sublist _ _).subperm

/-- The first page of such a queue holds entries of the caller. -/
theorem mem {size : Nat} {entries : List Entry} {page : Page} {later : List Page}
    {entry : Entry} (positive : 0 < size) (trimmed : Trimmed size entries (page :: later))
    (member : entry ∈ page.entries) : entry ∈ entries := by
  apply (trimmed.subperm positive).subset
  rw [List.flatMap_cons]
  exact List.mem_append_left _ member

end Trimmed

namespace Operation

/-- Between two pages: how the queue is made up, and that nothing is lost or accepted twice. -/
structure Conserved (operation : Operation) (table : String) (entries : List Entry)
    (progress : Progress) (calls : List Exchange) : Prop where
  trimmed : Trimmed operation.pageSize entries progress.queue
  balance : operation.acceptedIn table calls + marksOf progress.entries = marksOf entries

theorem marksOf_cons (page : Page) (later : List Page) (gathered : List Value) :
    marksOf (Progress.entries ⟨page :: later, gathered⟩) =
      marksOf page.entries + marksOf (later.flatMap Page.entries) := by
  rw [Progress.entries, List.flatMap_cons, marksOf_append]

theorem trimmed_start (operation : Operation) (entries : List Entry) :
    Trimmed operation.pageSize entries (operation.start entries).queue := by
  have slices := chunks_eq_slicesOf operation.pageSize entries operation.pageSize_pos
  rw [start, slices]
  exact Trimmed.untried operation.pageSize entries 0

/-- An operation starts with all entries, in order. -/
theorem entries_start (operation : Operation) (entries : List Entry) :
    (operation.start entries).entries = entries := by
  rw [Progress.entries, start, flatMap_entries_untried]
  exact flatten_chunks operation.pageSize entries operation.pageSize_pos

theorem conserved_start (operation : Operation) (table : String) (entries : List Entry) :
    operation.Conserved table entries (operation.start entries) [] := by
  constructor
  · exact operation.trimmed_start entries
  · rw [operation.entries_start entries]
    exact zero_add _

/-- What comes back of a page of entries is, by fingerprint, matched with entries of the page. -/
theorem left_of_exchanged {operation : Operation} {store : Store ω} {table : String}
    (honest : operation.Honest store table) {entries left : List Entry} {exchange : Exchange}
    {reply : Reply} (plain : ∀ entry ∈ entries, entry.HasPlainMark)
    (exchanged : operation.Exchanged store table (entries.map Entry.native) exchange reply)
    (matched : remainder operation.restore entries reply.unprocessed = .ok left) :
    left.Subperm entries ∧ operation.accepted table exchange + marksOf left = marksOf entries := by
  have within := honest _ exchange reply exchanged
  have part := remainder_of_le operation.restore entries left reply plain within matched
  refine ⟨part.1, ?_⟩
  rw [marksOf_remainder plain within matched]
  exact accepted_add_returned honest exchanged

/-- A reply that leaves entries of the page only keeps how the queue is made up. -/
theorem trimmed_of_follows {operation : Operation} {entries : List Entry} {page : Page}
    {later : List Page} {gathered : List Value} {reply : Reply} {next : Progress}
    (trimmed : Trimmed operation.pageSize entries (page :: later))
    (part : ∀ left, remainder operation.restore page.entries reply.unprocessed = .ok left →
      left.Subperm page.entries)
    (follows : Follows operation page later gathered reply next) :
    Trimmed operation.pageSize entries next.queue := by
  cases trimmed with
  | under n page among =>
      cases follows with
      | finished complete => exact Trimmed.untried _ _ _
      | retried given left matched =>
          exact Trimmed.under n ⟨left, page.attempt + 1⟩ ((part left matched).trans among)

/-- A call, its reply and what the reply leaves to do keep the balance. -/
theorem Conserved.follows {operation : Operation} {store : Store ω} {table : String}
    (honest : operation.Honest store table) {entries : List Entry}
    (plain : ∀ entry ∈ entries, entry.HasPlainMark) {page : Page} {later : List Page}
    {gathered : List Value} {calls : List Exchange} {exchange : Exchange} {reply : Reply}
    {next : Progress}
    (conserved : operation.Conserved table entries ⟨page :: later, gathered⟩ calls)
    (exchanged : operation.Exchanged store table (page.entries.map Entry.native) exchange reply)
    (follows : Follows operation page later gathered reply next) :
    operation.Conserved table entries next (calls ++ [exchange]) := by
  have inside : ∀ entry ∈ page.entries, entry.HasPlainMark := fun entry member =>
    plain entry (conserved.trimmed.mem operation.pageSize_pos member)
  have kept : ∀ left, remainder operation.restore page.entries reply.unprocessed = .ok left →
      left.Subperm page.entries ∧
        operation.accepted table exchange + marksOf left = marksOf page.entries :=
    fun left matched => left_of_exchanged honest inside exchanged matched
  refine ⟨trimmed_of_follows conserved.trimmed (fun left matched => (kept left matched).1) follows,
    ?_⟩
  have balance := conserved.balance
  rw [marksOf_cons] at balance
  cases follows with
  | finished complete =>
      have whole := accepted_add_returned honest exchanged
      rw [Reply.returned_of_not_given reply complete, marks_nil, add_zero] at whole
      rw [acceptedIn_append, whole, add_assoc]
      exact balance
  | retried given left matched =>
      have shared := (kept left matched).2
      rw [acceptedIn_append, marksOf_cons, add_assoc, ← add_assoc _ (marksOf left), shared]
      exact balance

/-- The balance holds between any two pages. -/
theorem conserved_of_passes {operation : Operation} {store : Store ω} {table : String}
    {items : Value} {control : Control ω} {entries : List Entry}
    (translates : operation.entriesOf items = .ok entries) (honest : operation.Honest store table)
    {world after : ω} {progress : Progress} {journal : List (Event Exchange)}
    (passes : operation.Passes store table items control world progress after journal) :
    operation.Conserved table entries progress (Event.calls journal) := by
  have plain := hasPlainMark_of_entriesOf translates
  apply passes.induct translates (operation.conserved_start table entries)
  intro page later gathered calls exchange reply next conserved exchanged follows
  exact conserved.follows honest plain exchanged follows

/-- The fingerprints that the store accepted while an operation ran that started in a world. -/
noncomputable def acceptedBy (operation : Operation) (store : Store ω) (table : String)
    (items : Value) (control : Control ω) (world : ω) : Multiset (Option Value) :=
  operation.acceptedIn table (Event.calls (operation.journalOf store table items control world))

/-- The answer to a page of keys that returns some items and hands some keys back. -/
def readAnswer (table : String) (items left : List Value) : Value :=
  .record [("Responses", .record [(table, .list items)]),
    ("UnprocessedKeys", .record [(table, .record [("Keys", .list left)])])]

theorem readReply_readAnswer (table : String) (items left : List Value) :
    readReply (.text table) (readAnswer table items left) = .ok ⟨items, .list left⟩ := by
  simp [readReply, readAnswer, Value.getD, Value.get, Value.findD, Value.entries, Value.record,
    Value.lookup?, Value.elements, bind, Except.bind, pure, Except.pure]

def handingBack (operation : Operation) (table : String) (left : List Value) : Value :=
  match operation with
  | .read .. => readAnswer table [] left
  | .write _ => .record [("UnprocessedItems", .record [(table, .list left)])]

theorem reply_handingBack (operation : Operation) (table : String) (left : List Value) :
    operation.reply table (operation.handingBack table left) = .ok ⟨[], .list left⟩ := by
  cases operation with
  | read consistent order => exact readReply_readAnswer table [] left
  | write mode =>
      simp [Operation.reply, handingBack, writeReply, Value.getD, Value.findD, Value.entries,
        Value.record, Value.lookup?, bind, Except.bind, pure, Except.pure]

/-- A store that hands back so many natives of each page as its schedule says, in reverse order. -/
def scheduledStore (operation : Operation) (table : String) : Store (List Nat) where
  serves _ := true
  answer _ request := .ofOutcome fun schedule =>
    match operation.pageOf table request with
    | .ok page =>
      (.ok (operation.handingBack table (page.take (schedule.headD 0)).reverse), schedule.tail)
    | .error _ => (.error .wrongShape, schedule)
  patience := List.length

theorem returned_of_scheduledStore {operation : Operation} {table : String} {page : List Value}
    {exchange : Exchange} {reply : Reply}
    (exchanged : operation.Exchanged (operation.scheduledStore table) table page exchange reply) :
    ∃ count, reply.returned = (page.take count).reverse := by
  obtain ⟨response, _, replied, schedule, after, answered⟩ := exchanged.answered
  simp only [scheduledStore, Run.outcome_ofOutcome, pageOf_request exchanged.requested,
    Prod.mk.injEq, Except.ok.injEq] at answered
  obtain ⟨rfl, _⟩ := answered
  rw [reply_handingBack] at replied
  cases replied
  exact ⟨schedule.headD 0, rfl⟩

theorem honest_scheduledStore (operation : Operation) (table : String) :
    operation.Honest (operation.scheduledStore table) table := by
  intro page exchange reply exchanged
  obtain ⟨count, same⟩ := returned_of_scheduledStore exchanged
  have perm := (List.reverse_perm (page.take count)).map mark
  rw [same]
  exact Multiset.coe_le.mpr (perm.subperm.trans ((List.take_sublist _ _).map mark).subperm)

theorem ownFaults_scheduledStore (operation : Operation) (table : String) (maxRetries : Value) :
    OwnFaults (operation.scheduledStore table) operation.method ⟨maxRetries, none, none⟩ where
  answer request := by
    intro schedule
    simp only [scheduledStore, Run.outcome_ofOutcome]
    cases operation.pageOf table request with
    | ok page => exact .ok _
    | error fault => exact .error rfl
  pause pause hook := by cases hook
  poll poll hook := by cases hook

/-- **Nothing is lost and nothing is accepted twice.** As long as the store hands back only what it
was sent, what it accepted and what is queued are the caller's entries between any two pages. An
operation that returns had every entry accepted exactly once, and one that is cancelled reports
entries of the caller that complete what was accepted, no place of which is used twice. -/
theorem accepted_add_queued (operation : Operation) (store : Store ω) (table : String)
    (items : Value) (control : Control ω) (entries : List Entry)
    (translates : operation.entriesOf items = .ok entries) (honest : operation.Honest store table)
    (own : OwnFaults store operation.method control) (world : ω) :
    items.elements = .ok (entries.map Entry.source) ∧
      (∀ progress after journal,
        operation.Passes store table items control world progress after journal →
          operation.acceptedIn table (Event.calls journal) + marksOf progress.entries =
            marksOf entries) ∧
      (∀ result after,
        (operation.perform store table items control).outcome world = (.ok result, after) →
          operation.acceptedBy store table items control world = marksOf entries) ∧
      ∀ name pending reported after,
        (operation.perform store table items control).outcome world =
            (.error (.cancelledBatch name pending reported), after) →
          ∃ kept : List Entry, kept.Subperm entries ∧ pending = kept.map Entry.source ∧
            operation.acceptedBy store table items control world + marksOf kept =
              marksOf entries := by
  have everywhere : ∀ progress after journal,
      operation.Passes store table items control world progress after journal →
        operation.Conserved table entries progress (Event.calls journal) :=
    fun progress after journal passes => conserved_of_passes translates honest passes
  refine ⟨elements_of_entriesOf translates,
    fun progress after journal passes => (everywhere _ _ _ passes).balance, ?_, ?_⟩
  · intro result after done
    obtain ⟨gathered, passes, _⟩ := passes_of_ok translates done
    have balance := (everywhere _ _ _ passes).balance
    have empty : marksOf (Progress.entries ⟨[], gathered⟩) = 0 := rfl
    rwa [empty, add_zero] at balance
  · intro name pending reported after failed
    have report : ¬ (Fault.cancelledBatch name pending reported).Ordinary := by
      simp [Fault.Ordinary, Fault.endsBatch]
    obtain ⟨page, later, gathered, middle, journal, passes, cancelled | exhausted⟩ :=
      passes_of_report translates own report failed
    · obtain ⟨_, calls, _, same⟩ := cancelled
      cases same
      have conserved := everywhere _ _ _ passes
      refine ⟨(page :: later).flatMap Page.entries,
        conserved.trimmed.subperm operation.pageSize_pos, ?_, ?_⟩
      · rw [Plan.sources, List.map_flatMap]
      · rw [acceptedBy, calls]
        exact conserved.balance
    · obtain ⟨_, _, _, _, _, _, _, _, _, same⟩ := exhausted
      cases same

/-- Two spellings of one item. -/
def twoSpellings : Value :=
  .list [.map [(.text "id::N", .text "1")], .map [(.text "id::N", .text "1.0")]]

/-- Two spellings of one item, one of which comes back from the first page and from the second, are
accepted once each. -/
theorem accepted_twoSpellings :
    ∃ entries result after, (write .put).entriesOf twoSpellings = .ok entries ∧
      ((write .put).perform ((write .put).scheduledStore "t") "t" twoSpellings
        ⟨.int 3, none, none⟩).outcome [1, 1] = (.ok result, after) ∧
      (write .put).acceptedBy ((write .put).scheduledStore "t") "t" twoSpellings
        ⟨.int 3, none, none⟩ [1, 1] = marksOf entries := by
  obtain ⟨entries, translates⟩ : ∃ entries, (write .put).entriesOf twoSpellings = .ok entries :=
    exists_of_isOk (by decide +kernel)
  obtain ⟨result, returns⟩ : ∃ result,
      (((write .put).perform ((write .put).scheduledStore "t") "t" twoSpellings
        ⟨.int 3, none, none⟩).outcome [1, 1]).1 = .ok result :=
    exists_of_isOk (by decide +kernel)
  obtain ⟨_, _, completes, _⟩ :=
    accepted_add_queued (write .put) ((write .put).scheduledStore "t") "t" twoSpellings
      ⟨.int 3, none, none⟩ entries translates (honest_scheduledStore _ _)
      (ownFaults_scheduledStore _ _ _) [1, 1]
  have done : ((write .put).perform ((write .put).scheduledStore "t") "t" twoSpellings
      ⟨.int 3, none, none⟩).outcome [1, 1] = (.ok result, _) := Prod.ext returns rfl
  exact ⟨entries, result, _, translates, done, completes result _ done⟩

end Operation

end TokenTable.Batch
