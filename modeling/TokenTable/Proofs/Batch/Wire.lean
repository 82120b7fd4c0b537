import TokenTable.Proofs.Batch.Conservation
import TokenTable.Proofs.Client.Sent

/-! # What a batch sends

A retry page is made of what the store hands back, not of the page that was sent. As long as the
store hands back, by fingerprint, no more than it was sent, every page in the queue is still made of
the caller's own entries, is not empty and is no larger than a page may be (`Sendable.follows`). So
this holds of every call of a batch, whatever ends it. Main statement: `sent_pages`.
-/

namespace TokenTable

open Run

variable {ω : Type}

/-- An operation that is the same beside a journal and calls nothing is as it is said. -/
theorem Run.SendsOnly.of_silent {α : Type} {said : Method → Request → Prop}
    {full : Run (Journaled ω Exchange) α} {bare : Run ω α} (keeps : Keeps full bare)
    (silent : Silent full) : SendsOnly said full := by
  intro world
  obtain ⟨added, same⟩ := keeps world.1 world.2
  have calls := silent world
  rw [same, Event.calls_append, List.append_right_eq_self] at calls
  refine ⟨added, congrArg (fun outcome => outcome.2.2) same, fun exchange member => ?_⟩
  rw [calls] at member
  cases member

namespace Batch.Operation

variable {operation : Operation} {store : Store ω} {table : String} {items : Value}
  {control : Control ω} {retries : Nat} {entries : List Entry}

/-- A page of natives of some entries, no place of which is used twice: it holds at least one and no
more than an operation sends at once. -/
structure IsPage (operation : Operation) (entries : List Entry) (page : List Value) : Prop where
  proper : page ≠ []
  within : page.length ≤ operation.pageSize
  part : page.Subperm (entries.map Entry.native)

/-- A queue of trimmed slices of some entries, none of which is empty. -/
structure Sendable (operation : Operation) (entries : List Entry) (queue : List Page) : Prop where
  trimmed : Trimmed operation.pageSize entries queue
  proper : ∀ page ∈ queue, page.entries ≠ []

theorem sendable_start (operation : Operation) (entries : List Entry) :
    operation.Sendable entries (operation.start entries).queue := by
  refine ⟨operation.trimmed_start entries, fun page member => ?_⟩
  obtain ⟨chunk, inside, rfl⟩ := List.mem_map.mp member
  exact ne_nil_of_mem_chunks _ _ _ inside

/-- The first page of such a queue can be sent. -/
theorem Sendable.isPage {page : Page} {later : List Page}
    (sendable : operation.Sendable entries (page :: later)) :
    operation.IsPage entries (page.entries.map Entry.native) := by
  obtain ⟨trimmed, proper⟩ := sendable
  cases trimmed with
  | under n page part =>
      have inside : (nthSlice operation.pageSize entries n).Subperm entries :=
        ((List.take_sublist _ _).trans (List.drop_sublist _ _)).subperm
      constructor
      · exact fun empty => proper page List.mem_cons_self (List.map_eq_nil_iff.mp empty)
      · rw [List.length_map]
        exact part.length_le.trans (List.length_take_le _ _)
      · obtain ⟨chosen, perm, sub⟩ := part.trans inside
        exact ⟨chosen.map Entry.native, perm.map Entry.native, sub.map Entry.native⟩

/-- What the store leaves of a page of some entries are entries of the page, whatever it answers. -/
def LeavesOwn (operation : Operation) (store : Store ω) (table : String) (entries : List Entry) :
    Prop :=
  ∀ page exchange reply left, (∀ entry ∈ page, entry ∈ entries) →
    operation.Exchanged store table (page.map Entry.native) exchange reply →
      remainder operation.restore page reply.unprocessed = .ok left → left.Subperm page

theorem leavesOwn_of_honest (honest : operation.Honest store table)
    (plain : ∀ entry ∈ entries, entry.HasPlainMark) :
    operation.LeavesOwn store table entries := by
  intro page exchange reply left inside exchanged matched
  exact (left_of_exchanged honest (fun entry member => plain entry (inside entry member)) exchanged
    matched).1

/-- What a reply leaves to do can be sent. -/
theorem Sendable.follows (leaves : operation.LeavesOwn store table entries) {page : Page}
    {later : List Page} {gathered : List Value} {exchange : Exchange} {reply : Reply}
    {next : Progress} (sendable : operation.Sendable entries (page :: later))
    (exchanged : operation.Exchanged store table (page.entries.map Entry.native) exchange reply)
    (follows : Follows operation page later gathered reply next) :
    operation.Sendable entries next.queue := by
  have inside : ∀ entry ∈ page.entries, entry ∈ entries := fun entry member =>
    sendable.trimmed.mem operation.pageSize_pos member
  have part := fun left => leaves page.entries exchange reply left inside exchanged
  refine ⟨trimmed_of_follows sendable.trimmed part follows, ?_⟩
  have others : ∀ other ∈ later, other.entries ≠ [] := fun other member =>
    sendable.proper other (List.mem_cons_of_mem _ member)
  cases follows with
  | finished complete => exact others
  | retried given left matched =>
      exact List.forall_mem_cons.mpr ⟨ne_nil_of_remainder given matched, others⟩

/-- A turn calls the store with its page only. -/
theorem sendsOnly_turn {said : Method → Request → Prop} (page : Page) (later : List Page)
    (gathered : List Value)
    (fits : ∀ request, operation.request table (page.entries.map Entry.native) = .ok request →
      said operation.method request) :
    SendsOnly said ((operation.plan store.journaled table items retries control.journaled).turn page
      later gathered) := by
  have mirrors := mirrors_plan operation store table items retries control
  have asking := Plan.silent_isCancelled
    (cancelled_plan operation store.journaled table items retries control.journaled)
  have waiting := Plan.silent_wait
    (pause_plan operation store.journaled table items retries control.journaled) page.attempt
  unfold Plan.turn
  apply (SendsOnly.of_silent mirrors.isCancelled asking).bind
  intro cancelled
  cases cancelled with
  | true => exact (SendsOnly.lift _).bind fun items => SendsOnly.throw _
  | false =>
      apply (SendsOnly.of_silent (mirrors.wait page.attempt) waiting).bind
      intro _
      apply SendsOnly.bind
      · rw [submit_plan]
        apply (SendsOnly.lift _).bind_of_ok
        intro world request after requested
        rw [outcome_lift, Prod.mk.injEq] at requested
        exact (Sends.send (fits request requested.1)).only.bind fun response => SendsOnly.lift _
      · intro reply
        cases given : reply.unprocessed.isGiven with
        | false =>
            simp only [Bool.false_eq_true, ↓reduceIte]
            exact SendsOnly.pure _
        | true =>
            simp only [↓reduceIte]
            apply (SendsOnly.lift _).bind
            intro left
            split
            · exact SendsOnly.pure _
            · exact (SendsOnly.lift _).bind fun items => SendsOnly.throw _

/-- What every reply keeps of the queue tells what is sent while it is worked through. -/
theorem sendsOnly_drain {said : Method → Request → Prop} {motive : List Page → Prop}
    (fits : ∀ page later, motive (page :: later) → ∀ request,
      operation.request table (page.entries.map Entry.native) = .ok request →
        said operation.method request)
    (keeps : ∀ page later gathered exchange reply next, motive (page :: later) →
      operation.Exchanged store table (page.entries.map Entry.native) exchange reply →
        Follows operation page later gathered reply next → motive next.queue)
    (queue : List Page) (gathered : List Value) (start : motive queue) :
    SendsOnly said
      ((operation.plan store.journaled table items retries control.journaled).drain queue
        gathered) := by
  induction queue, gathered using
    (operation.plan store.journaled table items retries control.journaled).turn_induct with
  | empty gathered =>
      rw [Plan.drain_nil]
      exact SendsOnly.pure gathered
  | turns page later gathered ih =>
      rw [Plan.drain_cons]
      apply (sendsOnly_turn page later gathered (fits page later start)).bind_of_ok
      intro world next after turned
      obtain ⟨exchange, reply, exchanged, follows, _⟩ :=
        exchanged_of_advances (Plan.advances_of_turn _ _ _ _ _ _ _ turned)
      exact ih world next after turned
        (keeps page later gathered exchange reply next start exchanged follows)

/-- Carrying out a batch calls the store with pages of its entries only, if the store leaves none
but these. -/
theorem sendsOnly_carryOut (entries : List Entry) :
    SendsOnly
      (fun method request => method = operation.method ∧
        (operation.LeavesOwn store table entries →
          ∃ page, operation.IsPage entries page ∧ operation.request table page = .ok request))
      ((operation.plan store.journaled table items retries control.journaled).carryOut
        operation.pageSize entries) := by
  apply sendsOnly_drain
    (motive := fun queue => operation.LeavesOwn store table entries →
      operation.Sendable entries queue)
  · exact fun page later sendable request requested =>
      ⟨rfl, fun leaves => ⟨_, (sendable leaves).isPage, requested⟩⟩
  · intro page later gathered exchange reply next sendable exchanged follows leaves
    exact (sendable leaves).follows leaves exchanged follows
  · exact fun _ => operation.sendable_start entries

/-- What does not translate is not sent: the operation fails at once. -/
theorem outcome_perform_of_error {fault : Fault}
    (refused : operation.entriesOf items = .error fault) (store : Store ω) (table : String)
    (control : Control ω) (world : ω) :
    ∃ earlier, (operation.perform store table items control).outcome world =
      (.error earlier, world) := by
  cases operation with
  | read consistent order =>
      have typed : typedKeys items = .error fault := by
        cases typed : typedKeys items with
        | error other =>
            rw [entriesOf, typed] at refused
            cases refused
            rfl
        | ok pairs =>
            rw [entriesOf, typed] at refused
            cases refused
      rw [perform, Batch.read]
      cases given : items.isGiven with
      | false => exact ⟨.emptyBatch "batch_get", by simp⟩
      | true =>
          cases resolved : Order.ofValue order with
          | error other => exact ⟨other, by simp⟩
          | ok resolved => exact ⟨fault, by simp [typed]⟩
  | write mode =>
      have translated : Batch.entriesOf mode items = .error fault := refused
      rw [perform, Batch.write]
      cases given : items.isGiven with
      | false => exact ⟨.emptyBatch mode.operation, by simp [Mode.ofValue_name]⟩
      | true => exact ⟨fault, by simp [Mode.ofValue_name, translated]⟩

/-- Entries are translated from items that are encoded one by one. -/
theorem encode_of_entriesOf (translates : operation.entriesOf items = .ok entries) :
    ∃ natives, (items.elements >>= fun maps => maps.mapM Item.encode) = .ok natives ∧
      entries.map Entry.native = natives.map operation.wire := by
  obtain ⟨maps, listed, each⟩ := (operation.entriesOf_eq_ok_iff items entries).mp translates
  suffices encoded : ∃ natives, maps.mapM Item.encode = .ok natives ∧
      entries.map Entry.native = natives.map operation.wire by
    obtain ⟨natives, several, same⟩ := encoded
    exact ⟨natives, (bind_eq_ok_iff _ _ _).mpr ⟨maps, listed, several⟩, same⟩
  clear listed translates
  induction each with
  | nil => exact ⟨[], rfl, rfl⟩
  | @cons map entry _ _ single _ ih =>
      obtain ⟨item, encoded⟩ : ∃ item, Item.encode map = .ok item := by
        cases operation with
        | read consistent order =>
            obtain ⟨item, encoded, _⟩ := (bind_eq_ok_iff _ _ _).mp single
            exact ⟨item, encoded⟩
        | write mode =>
            obtain ⟨_, wired, _⟩ := (bind_eq_ok_iff _ _ _).mp single
            obtain ⟨item, encoded, _⟩ := (bind_eq_ok_iff _ _ _).mp wired
            exact ⟨item, encoded⟩
      rw [operation.entryOf_of_encode encoded] at single
      cases single
      obtain ⟨natives, several, same⟩ := ih
      refine ⟨item :: natives, ?_, ?_⟩
      · exact (mapM_cons_eq_ok_iff _ _ _ _).mpr ⟨item, natives, encoded, several, rfl⟩
      · rw [List.map_cons, List.map_cons, same]

/-- The call that carries a page: its method, its request, and how many natives it may hold. -/
def Carries (operation : Operation) (table : String) (page : List Value) (exchange : Exchange) :
    Prop :=
  match operation with
  | .read consistent _ =>
    exchange.method = .readBatch ∧ page.length ≤ 100 ∧
      exchange.request = [("RequestItems", .record [(table, .record
        (("Keys", .list page) ::
          if consistent then [("ConsistentRead", .bool true)] else []))])]
  | .write _ =>
    exchange.method = .writeBatch ∧ page.length ≤ 25 ∧
      exchange.request = [("RequestItems", .record [(table, .list page)])]

theorem carries_of_request {page : List Value} {exchange : Exchange}
    (method : exchange.method = operation.method) (within : page.length ≤ operation.pageSize)
    (requested : operation.request table page = .ok exchange.request) :
    operation.Carries table page exchange := by
  cases operation with
  | read consistent order => exact ⟨method, within, (Except.ok.inj requested).symm⟩
  | write mode => exact ⟨method, within, (Except.ok.inj requested).symm⟩

/-- An operation calls the store with pages of its entries only, if the store leaves none but
these. -/
theorem sendsOnly_perform (translates : operation.entriesOf items = .ok entries)
    (control : Control ω) :
    SendsOnly
      (fun method request => method = operation.method ∧
        (operation.LeavesOwn store table entries →
          ∃ page, operation.IsPage entries page ∧ operation.request table page = .ok request))
      (operation.perform store.journaled table items control.journaled) := by
  rw [perform_eq _ _ _ _ _ entries translates]
  apply (SendsOnly.lift _).bind
  intro _
  apply SendsOnly.bind
  · intro world
    exact ⟨[], (List.append_nil _).symm, fun _ member => by cases member⟩
  · intro answers
    apply (SendsOnly.lift _).bind
    intro retries
    exact (sendsOnly_carryOut entries).bind fun gathered => SendsOnly.lift _

/-- **What goes on the wire.** Let a store hand back, by fingerprint, no more of a page than it was
sent. Then every call of a batch carries a page of at least one and at most a hundred keys, or
twenty-five write requests, whether the page is tried for the first time or once more. The natives
on the page are those that the caller's items translate to, never the store's own spelling, and
each place of the caller's list is used at most once. A read asks for a consistent answer with all
of its pages or with none. -/
theorem sent_pages (operation : Operation) (store : Store ω) (table : String) (items : Value)
    (control : Control ω) (honest : operation.Honest store table) (world : ω) :
    ∀ exchange ∈ Event.calls (operation.journalOf store table items control world),
      ∃ natives page,
        (items.elements >>= fun maps => maps.mapM Item.encode) = .ok natives ∧
          operation.Carries table page exchange ∧ 1 ≤ page.length ∧
            page.Subperm (natives.map operation.wire) := by
  intro exchange member
  cases translates : operation.entriesOf items with
  | error fault =>
      obtain ⟨_, failed⟩ := outcome_perform_of_error translates store.journaled table
        control.journaled (world, [])
      rw [journalOf, failed] at member
      cases member
  | ok entries =>
      obtain ⟨natives, encoded, same⟩ := encode_of_entriesOf translates
      obtain ⟨added, journal, said⟩ := sendsOnly_perform translates control (world, [])
      rw [journalOf, journal] at member
      obtain ⟨method, pages⟩ := said exchange member
      have plain := hasPlainMark_of_entriesOf translates
      obtain ⟨page, isPage, requested⟩ := pages (leavesOwn_of_honest honest plain)
      refine ⟨natives, page, encoded, carries_of_request method isPage.within requested,
        List.length_pos_iff.mpr isPage.proper, ?_⟩
      rw [← same]
      exact isPage.part

/-- A store that hands back so many natives of each page as its schedule says, in a spelling of its
own. -/
def respellingStore (operation : Operation) (table : String) (respell : Value → Value) :
    Store (List Nat) where
  serves _ := true
  answer _ request := .ofOutcome fun schedule =>
    match operation.pageOf table request with
    | .ok page =>
      (.ok (operation.handingBack table ((page.take (schedule.headD 0)).map respell)),
        schedule.tail)
    | .error _ => (.error .wrongShape, schedule)
  patience := List.length

theorem honest_respellingStore (operation : Operation) (table : String) {respell : Value → Value}
    (alike : ∀ native, mark (respell native) = mark native) :
    operation.Honest (operation.respellingStore table respell) table := by
  intro page exchange reply exchanged
  obtain ⟨response, _, replied, schedule, after, answered⟩ := exchanged.answered
  simp only [respellingStore, Run.outcome_ofOutcome, pageOf_request exchanged.requested,
    Prod.mk.injEq, Except.ok.injEq] at answered
  obtain ⟨rfl, _⟩ := answered
  rw [reply_handingBack] at replied
  cases replied
  have same : marks ((page.take (schedule.headD 0)).map respell) =
      marks (page.take (schedule.headD 0)) := by
    unfold marks
    rw [List.map_map]
    exact congrArg Multiset.ofList (List.map_congr_left fun native _ => alike native)
  change marks ((page.take (schedule.headD 0)).map respell) ≤ marks page
  rw [same]
  exact Multiset.coe_le.mpr ((List.take_sublist _ _).map mark).subperm

/-- Spells the number of one key without its fraction. -/
def withoutFraction : Value → Value
  | .map [(.text "id", .map [(.text "N", .text "1.0")])] =>
    .map [(.text "id", .map [(.text "N", .text "1")])]
  | native => native

/-- A consistent read of two keys, both of which come back in one spelling and then one of them once
more, sends the keys as they were given in each of its three calls. -/
theorem sent_pages_twoSpellings :
    (Event.calls ((read true .null).journalOf
        ((read true .null).respellingStore "t" withoutFraction) "t" twoSpellings
        ⟨.int 3, none, none⟩ [2, 1])).length = 3 ∧
      ∀ exchange ∈ Event.calls ((read true .null).journalOf
          ((read true .null).respellingStore "t" withoutFraction) "t" twoSpellings
          ⟨.int 3, none, none⟩ [2, 1]),
        ∃ natives page,
          (twoSpellings.elements >>= fun maps => maps.mapM Item.encode) = .ok natives ∧
            (read true .null).Carries "t" page exchange ∧ 1 ≤ page.length ∧
              page.Subperm (natives.map (read true .null).wire) := by
  have alike : ∀ native, mark (withoutFraction native) = mark native := by
    intro native
    unfold withoutFraction
    split
    · rfl
    · rfl
  exact ⟨by decide +kernel,
    sent_pages (read true .null) _ "t" twoSpellings _ (honest_respellingStore _ _ alike) [2, 1]⟩

end Batch.Operation

end TokenTable
