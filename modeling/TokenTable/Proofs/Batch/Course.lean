import TokenTable.Proofs.Batch.Operation

/-! # The course of an operation

Between two pages an operation has a queue, what it gathered, and a journal of the calls that it
made. What holds when it starts and is kept by every call and its reply holds at each of these
points (`reaches_induct` for a queue, `Passes.induct` for the operation). An operation that returns
passes the empty queue; one that is cancelled or gives up ends at one of these points, or with the
page sent there (`passes_of_ok`, `passes_of_report`).
-/

namespace TokenTable.Batch

variable {ω : Type}

theorem OwnFaults.journaled {store : Store ω} {method : Method} {control : Control ω}
    (own : OwnFaults store method control) :
    OwnFaults store.journaled method (control.journaled : Control (Journaled ω Exchange)) where
  answer request := fun world => own.answer request world.1
  pause noted hook := by
    obtain ⟨pause, given, rfl⟩ := Option.map_eq_some_iff.mp hook
    exact fun seconds world => own.pause pause given seconds world.1
  poll noted hook := by
    obtain ⟨poll, given, rfl⟩ := Option.map_eq_some_iff.mp hook
    exact fun world => own.poll poll given world.1

namespace Operation

/-- A page was sent: the exchange has its request, and its answer holds the reply. -/
structure Exchanged (operation : Operation) (store : Store ω) (table : String) (page : List Value)
    (exchange : Exchange) (reply : Reply) : Prop where
  requested : operation.request table page = .ok exchange.request
  answered : ∃ response, exchange.answer = .ok response ∧
    operation.reply table response = .ok reply ∧
    ∃ world after, (store.answer operation.method exchange.request).outcome world =
      (.ok response, after)

section

variable (operation : Operation) (store : Store ω) (table : String) (items : Value)
  (control : Control ω)

/-- The journal of an operation that starts in a world. -/
def journalOf (world : ω) : List (Event Exchange) :=
  ((operation.perform store.journaled table items control.journaled).outcome (world, [])).2.2

/-- A point between two pages of an operation that starts in a world: what is left to do, and the
world and the journal there. -/
def Passes (world : ω) (progress : Progress) (after : ω) (journal : List (Event Exchange)) : Prop :=
  ∃ entries retries, operation.entriesOf items = .ok entries ∧
    retriesOf (store.patience world + 1) control.maxRetries = .ok retries ∧
    (operation.plan store.journaled table items retries control.journaled).Reaches
      (operation.start entries, (world, [])) (progress, (after, journal))

end

variable {operation : Operation} {store : Store ω} {table : String} {items : Value}
  {control : Control ω}

theorem keeps_send (store : Store ω) (method : Method) (request : Request) :
    Run.Keeps (store.journaled.send method request) (store.send method request) := by
  let note : Except Fault Value → Event Exchange := fun answer => .called ⟨method, request, answer⟩
  have noted : Run.Keeps ((store.answer method request).noting note)
      (store.answer method request) := .noting _ _
  refine Run.Keeps.bind ?_ fun _ => noted
  unfold Store.require Store.journaled
  by_cases served : store.serves method = true
  · simp only [served, ↓reduceIte]
    exact .pure ()
  · simp only [served]
    exact .throw _

/-- A call that is answered leaves a note of itself and its answer. -/
theorem answered_of_send_journaled {method : Method} {request : Request} {response : Value}
    {before after : Journaled ω Exchange}
    (sent : (store.journaled.send method request).outcome before = (.ok response, after)) :
    (store.answer method request).outcome before.1 = (.ok response, after.1) ∧
      after.2 = before.2 ++ [.called ⟨method, request, .ok response⟩] := by
  rw [Store.outcome_send_journaled] at sent
  by_cases served : store.serves method = true
  · rw [if_pos served] at sent
    rcases answered : (store.answer method request).outcome before.1 with ⟨answer, world⟩
    rw [answered, Prod.mk.injEq] at sent
    obtain ⟨rfl, rfl⟩ := sent
    exact ⟨rfl, rfl⟩
  · rw [if_neg served] at sent
    cases sent

theorem mirrors_plan (operation : Operation) (store : Store ω) (table : String) (items : Value)
    (retries : Nat) (control : Control ω) :
    (operation.plan store.journaled table items retries control.journaled).Mirrors
      (operation.plan store table items retries control) where
  operation := by rw [operation_plan, operation_plan]
  restore := by rw [restore_plan, restore_plan]
  report := by rw [report_plan, report_plan]
  retries := by rw [retries_plan, retries_plan]
  isCancelled := by
    refine Plan.keeps_isCancelled (fun _ => .polled) ?_
    rw [cancelled_plan, cancelled_plan]
    rfl
  wait := by
    refine Plan.keeps_wait ?_
    rw [pause_plan, pause_plan]
    rfl
  submit page := by
    rw [submit_plan, submit_plan]
    apply (Run.Keeps.lift _).bind
    intro request
    exact (keeps_send store _ request).bind fun response => .lift _

theorem keeps_perform {entries : List Entry}
    (translates : operation.entriesOf items = .ok entries) :
    Run.Keeps (operation.perform store.journaled table items control.journaled)
      (operation.perform store table items control) := by
  rw [perform_eq _ _ _ _ _ entries translates, perform_eq _ _ _ _ _ entries translates]
  apply (Run.Keeps.lift _).bind
  intro _
  refine Run.Keeps.bind (fun world journal => ⟨[], by simp [Store.journaled]⟩) fun answers => ?_
  apply (Run.Keeps.lift _).bind
  intro retries
  refine Run.Keeps.bind ?_ fun gathered => .lift _
  exact (mirrors_plan operation store table items retries control).keeps_carryOut _ entries

/-- Beside its journal, an operation ends as it does without. -/
theorem outcome_perform_journaled {entries : List Entry}
    (translates : operation.entriesOf items = .ok entries) {world after : ω}
    {ending : Except Fault (List Value)}
    (done : (operation.perform store table items control).outcome world = (ending, after)) :
    (operation.perform store.journaled table items control.journaled).outcome (world, []) =
      (ending, (after, operation.journalOf store table items control world)) := by
  have keeps : Run.Keeps (operation.perform store.journaled table items control.journaled)
      (operation.perform store table items control) := keeps_perform translates
  obtain ⟨added, same⟩ := keeps world []
  unfold journalOf
  rw [same, done]

/-- Sending a page that is answered is one call. -/
theorem exchanged_of_submits {retries : Nat} {page : Page} {before after : Journaled ω Exchange}
    {reply : Reply}
    (submits : (operation.plan store.journaled table items retries control.journaled).Submits page
      before reply after) :
    ∃ exchange, operation.Exchanged store table (page.entries.map Entry.native) exchange reply ∧
      Event.calls after.2 = Event.calls before.2 ++ [exchange] := by
  obtain ⟨polled, waited, asked, paused, sent⟩ := submits
  have asking : Event.calls polled.2 = Event.calls before.2 := by
    have silent : Run.Silent
        (operation.plan store.journaled table items retries control.journaled).isCancelled :=
      Plan.silent_isCancelled (cancelled_plan _ _ _ _ _ _)
    have same := silent before
    rwa [asked] at same
  have waiting : Event.calls waited.2 = Event.calls polled.2 := by
    have silent : Run.Silent
        ((operation.plan store.journaled table items retries control.journaled).wait
          page.attempt) := Plan.silent_wait (pause_plan _ _ _ _ _ _) page.attempt
    have same := silent polled
    rwa [paused] at same
  rw [submit_plan, Run.outcome_bind_eq_ok_iff] at sent
  obtain ⟨request, _, requested, sent⟩ := sent
  rw [Run.outcome_lift, Prod.mk.injEq] at requested
  obtain ⟨requested, rfl⟩ := requested
  obtain ⟨response, answered, called, replied⟩ := (Run.outcome_bind_eq_ok_iff _ _ _ _ _).mp sent
  rw [Run.outcome_lift, Prod.mk.injEq] at replied
  obtain ⟨replied, rfl⟩ := replied
  obtain ⟨bare, noted⟩ := answered_of_send_journaled called
  refine ⟨⟨operation.method, request, .ok response⟩,
    ⟨requested, response, rfl, replied, _, _, bare⟩, ?_⟩
  rw [noted, Event.calls_append, waiting, asking]
  rfl

/-- What a page leaves to do once it was sent and replied to. -/
inductive Follows (operation : Operation) (page : Page) (later : List Page) (gathered : List Value)
    (reply : Reply) : Progress → Prop
  | finished (complete : reply.unprocessed.isGiven = false) :
      Follows operation page later gathered reply ⟨later, gathered ++ reply.gathered⟩
  | retried (given : reply.unprocessed.isGiven = true) (left : List Entry)
      (matched : remainder operation.restore page.entries reply.unprocessed = .ok left) :
      Follows operation page later gathered reply
        ⟨⟨left, page.attempt + 1⟩ :: later, gathered ++ reply.gathered⟩

/-- A turn that goes on is one call, its reply, and what the reply leaves to do. -/
theorem exchanged_of_advances {retries : Nat} {page : Page} {later : List Page}
    {gathered : List Value} {before after : Journaled ω Exchange} {next : Progress}
    (advances : (operation.plan store.journaled table items retries control.journaled).Advances page
      later gathered before next after) :
    ∃ exchange reply,
      operation.Exchanged store table (page.entries.map Entry.native) exchange reply ∧
        Follows operation page later gathered reply next ∧
          Event.calls after.2 = Event.calls before.2 ++ [exchange] := by
  cases advances with
  | finished reply _ submits complete =>
      obtain ⟨exchange, exchanged, calls⟩ := exchanged_of_submits submits
      exact ⟨exchange, reply, exchanged, .finished complete, calls⟩
  | retried reply _ submits given left matched allowed =>
      obtain ⟨exchange, exchanged, calls⟩ := exchanged_of_submits submits
      rw [restore_plan] at matched
      exact ⟨exchange, reply, exchanged, .retried given left matched, calls⟩

/-- **What every call keeps holds between all pages.** The induction is on the turns taken so
far; each turn that goes on is one call, its reply, and what the reply leaves to do. -/
theorem reaches_induct {retries : Nat} {start : Progress} {motive : Progress → List Exchange → Prop}
    (begins : motive start [])
    (goesOn : ∀ page later gathered calls exchange reply next,
      motive ⟨page :: later, gathered⟩ calls →
      operation.Exchanged store table (page.entries.map Entry.native) exchange reply →
      Follows operation page later gathered reply next → motive next (calls ++ [exchange]))
    {world : Journaled ω Exchange} {point : Progress × Journaled ω Exchange}
    (reached : (operation.plan store.journaled table items retries control.journaled).Reaches
      (start, world) point) :
    ∃ calls, Event.calls point.2.2 = Event.calls world.2 ++ calls ∧ motive point.1 calls := by
  induction reached with
  | refl => exact ⟨[], (List.append_nil _).symm, begins⟩
  | @tail before point _ step ih =>
      obtain ⟨page, later, queue, turned⟩ := step
      obtain ⟨⟨queued, gathered⟩, beside⟩ := before
      cases queue
      obtain ⟨calls, journal, ih⟩ := ih
      obtain ⟨exchange, reply, exchanged, follows, called⟩ :=
        exchanged_of_advances (Plan.advances_of_turn _ _ _ _ _ _ _ turned)
      refine ⟨calls ++ [exchange], ?_,
        goesOn page later gathered calls exchange reply _ ih exchanged follows⟩
      rw [called, journal, List.append_assoc]

theorem Passes.induct {entries : List Entry} (translates : operation.entriesOf items = .ok entries)
    {motive : Progress → List Exchange → Prop} (begins : motive (operation.start entries) [])
    (goesOn : ∀ page later gathered calls exchange reply next,
      motive ⟨page :: later, gathered⟩ calls →
      operation.Exchanged store table (page.entries.map Entry.native) exchange reply →
      Follows operation page later gathered reply next → motive next (calls ++ [exchange]))
    {world after : ω} {progress : Progress} {journal : List (Event Exchange)}
    (passes : operation.Passes store table items control world progress after journal) :
    motive progress (Event.calls journal) := by
  obtain ⟨entries', retries, translated, _, reached⟩ := passes
  rw [translates] at translated
  cases translated
  obtain ⟨calls, same, holds⟩ := reaches_induct begins goesOn reached
  have whole : Event.calls journal = calls := same
  rwa [whole]

/-- The batch of an operation that ends other than with an ordinary fault ends as the operation
does, but for what is made of what it gathered. -/
theorem exists_carryOut_of_perform {entries : List Entry}
    (translates : operation.entriesOf items = .ok entries) {world after : ω}
    {ending : Except Fault (List Value)}
    (settled : ∀ fault, ending = .error fault → ¬ fault.Ordinary)
    (done : (operation.perform store table items control).outcome world = (ending, after)) :
    ∃ retries, retriesOf (store.patience world + 1) control.maxRetries = .ok retries ∧
      ((operation.plan store table items retries control).carryOut operation.pageSize entries >>=
        fun gathered => liftM (operation.report items gathered)).outcome world =
          (ending, after) := by
  rw [perform_eq _ _ _ _ _ entries translates, Run.outcome_bind, Run.outcome_lift] at done
  cases checked : operation.check items with
  | error fault =>
      rw [checked] at done
      cases done
      exact absurd (operation.ordinary_check items fault checked) (settled fault rfl)
  | ok _ =>
      rw [checked] at done
      simp only [Run.outcome_bind _ _ world, Store.outcome_limit, Run.outcome_lift] at done
      cases allowed : retriesOf (store.patience world + 1) control.maxRetries with
      | error fault =>
          rw [allowed] at done
          cases done
          exact absurd (ordinary_retriesOf _ _ fault allowed) (settled fault rfl)
      | ok retries =>
          rw [allowed] at done
          refine ⟨retries, rfl, ?_⟩
          simpa only [Run.outcome_bind, Run.outcome_lift] using done

/-- An operation that returns has emptied its queue, and its result is made of all it gathered. -/
theorem passes_of_ok {entries : List Entry} (translates : operation.entriesOf items = .ok entries)
    {world after : ω} {result : List Value}
    (done : (operation.perform store table items control).outcome world = (.ok result, after)) :
    ∃ gathered, operation.Passes store table items control world ⟨[], gathered⟩ after
        (operation.journalOf store table items control world) ∧
      operation.report items gathered = .ok result := by
  have beside := outcome_perform_journaled translates done
  obtain ⟨retries, allowed, carried⟩ :=
    exists_carryOut_of_perform translates (fun fault failed => by cases failed) beside
  obtain ⟨gathered, _, drained, reported⟩ := (Run.outcome_bind_eq_ok_iff _ _ _ _ _).mp carried
  rw [Run.outcome_lift, Prod.mk.injEq] at reported
  obtain ⟨reported, rfl⟩ := reported
  have reached := Plan.reaches_of_drain_ok _ _ _ _ _ _ drained
  exact ⟨gathered, ⟨entries, retries, translates, allowed, reached⟩, reported⟩

/-- An operation that ends with a report ends between two pages, cancelled with all that is queued,
or after a page that it gives up. -/
theorem passes_of_report {entries : List Entry}
    (translates : operation.entriesOf items = .ok entries)
    (own : OwnFaults store operation.method control) {world after : ω} {fault : Fault}
    (report : ¬ fault.Ordinary)
    (failed : (operation.perform store table items control).outcome world = (.error fault, after)) :
    ∃ page later gathered middle journal,
      operation.Passes store table items control world ⟨page :: later, gathered⟩ middle journal ∧
      ((∃ reported,
          Event.calls (operation.journalOf store table items control world) =
            Event.calls journal ∧
          operation.report items gathered = .ok reported ∧
          fault = .cancelledBatch operation.name (Plan.sources (page :: later)) reported) ∨
        ∃ exchange reply left reported,
          operation.Exchanged store table (page.entries.map Entry.native) exchange reply ∧
          Event.calls (operation.journalOf store table items control world) =
            Event.calls journal ++ [exchange] ∧
          reply.unprocessed.isGiven = true ∧
          remainder operation.restore page.entries reply.unprocessed = .ok left ∧
          operation.report items (gathered ++ reply.gathered) = .ok reported ∧
          fault = .partialBatch operation.name (left.map Entry.source) reported) := by
  have beside := outcome_perform_journaled translates failed
  have settled : ∀ other, (.error fault : Except Fault (List Value)) = .error other →
      ¬ other.Ordinary := by
    intro other same
    cases same
    exact report
  obtain ⟨retries, allowed, carried⟩ := exists_carryOut_of_perform translates settled beside
  have ordinary := ordinary_plan own.journaled table items retries
  rw [Run.outcome_bind_eq_error_iff] at carried
  rcases carried with drained | ⟨gathered, _, _, unreported⟩
  · obtain ⟨page, later, gathered, ⟨middle, journal⟩, reached, ending⟩ :=
      Plan.reaches_of_drain_error _ _ _ _ _ _ drained
    refine ⟨page, later, gathered, middle, journal,
      ⟨entries, retries, translates, allowed, reached⟩, ?_⟩
    rcases ordinary.cases_of_ends ending with other | cancelled | exhausted
    · exact absurd other report
    · obtain ⟨reported, asked, made, rfl⟩ := cancelled
      have silent : Run.Silent
          (operation.plan store.journaled table items retries control.journaled).isCancelled :=
        Plan.silent_isCancelled (cancelled_plan _ _ _ _ _ _)
      have same := silent (middle, journal)
      rw [asked] at same
      rw [report_plan] at made
      rw [operation_plan]
      exact Or.inl ⟨reported, same, made, rfl⟩
    · obtain ⟨reply, left, reported, submits, given, matched, _, made, rfl⟩ := exhausted
      obtain ⟨exchange, exchanged, calls⟩ := exchanged_of_submits submits
      rw [report_plan] at made
      rw [restore_plan] at matched
      rw [operation_plan]
      exact Or.inr ⟨exchange, reply, left, reported, exchanged, calls, given, matched, made, rfl⟩
  · rw [Run.outcome_lift, Prod.mk.injEq] at unreported
    exact absurd (operation.ordinary_report items gathered fault unreported.1) report

end Operation

end TokenTable.Batch
