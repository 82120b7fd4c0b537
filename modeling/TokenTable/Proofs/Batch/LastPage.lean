import TokenTable.Proofs.Batch.Deleting

/-! # The page that is given up

A batch that gives up does so after its last call: what it reports is what the reply to that call
left of the page (`exists_givesUp`). What is left fits on one page, so if it is handed to the same
operation once more, the first call carries just this (`beginsWith_perform`).
-/

namespace TokenTable

open Run

variable {ω α β : Type}

/-- The first call that an operation makes is as it is said, and it does not end before that. -/
def Run.BeginsWith (said : Exchange → Prop) (action : Run (Journaled ω Exchange) α) : Prop :=
  ∀ world, ∃ first added,
    (action.outcome world).2.2 = world.2 ++ .called first :: added ∧ said first

namespace Run.BeginsWith

variable {said : Exchange → Prop}

/-- Whatever comes after an operation comes after its first call. -/
theorem bind {first : Run (Journaled ω Exchange) α} {next : α → Run (Journaled ω Exchange) β}
    (begins : BeginsWith said first) (late : ∀ a, SendsOnly (fun _ _ => True) (next a)) :
    BeginsWith said (first >>= next) := by
  intro world
  obtain ⟨call, added, same, fits⟩ := begins world
  rw [outcome_bind]
  rcases result : first.outcome world with ⟨fault | a, middle⟩
  · rw [result] at same
    exact ⟨call, added, same, fits⟩
  · rw [result] at same
    obtain ⟨others, rest, _⟩ := late a middle
    refine ⟨call, added ++ others, ?_, fits⟩
    change middle.2 = world.2 ++ .called call :: added at same
    rw [same, List.append_assoc, List.cons_append] at rest
    exact rest

/-- What becomes of the result does not matter. -/
theorem of_map {action : Run (Journaled ω Exchange) α} {further : α → β}
    (begins : BeginsWith said (action >>= fun a => pure (further a))) :
    BeginsWith said action := by
  intro world
  obtain ⟨first, added, same, fits⟩ := begins world
  refine ⟨first, added, ?_, fits⟩
  rw [outcome_bind] at same
  rcases result : action.outcome world with ⟨fault | a, after⟩
  · rw [result] at same
    exact same
  · rw [result] at same
    exact same

theorem lift_bind {result : Except Fault α} {next : α → Run (Journaled ω Exchange) β} {a : α}
    (done : result = .ok a) (begins : BeginsWith said (next a)) :
    BeginsWith said (liftM result >>= next) := by
  subst done
  exact begins

theorem limit_bind {store : Store ω} {next : Nat → Run (Journaled ω Exchange) β}
    (begins : ∀ answers, BeginsWith said (next answers)) :
    BeginsWith said (store.journaled.limit >>= next) := by
  intro world
  rw [outcome_bind, Store.outcome_limit]
  exact begins _ world

theorem send {store : Store ω} {method : Method} {request : Request}
    (served : store.serves method = true)
    (fits : ∀ answer, said ⟨method, request, answer⟩) :
    BeginsWith said (store.journaled.send method request) := by
  intro world
  rw [Store.outcome_send_journaled, if_pos served]
  exact ⟨_, [], rfl, fits _⟩

end Run.BeginsWith

namespace Batch.Operation

variable {operation : Operation} {store : Store ω} {table : String} {items : Value}
  {control : Control ω} {retries : Nat} {entries : List Entry}

/-- How a batch gives up: the page of its last call, the reply to it, and what that left of the
page. -/
structure GivesUp (operation : Operation) (store : Store ω) (table : String)
    (entries page left : List Entry) (last : Exchange) (reply : Reply) : Prop where
  inside : ∀ entry ∈ page, entry ∈ entries
  isPage : operation.IsPage entries (page.map Entry.native)
  exchanged : operation.Exchanged store table (page.map Entry.native) last reply
  served : store.serves operation.method = true
  proper : left ≠ []
  part : left.Subperm page
  /-- What is left has, one by one, the fingerprints of what came back. -/
  marked : reply.returned.map mark = left.map fun entry => mark entry.native

theorem served_of_submits {page : Page} {before after : Journaled ω Exchange} {reply : Reply}
    (submits : (operation.plan store.journaled table items retries control.journaled).Submits page
      before reply after) : store.serves operation.method = true := by
  obtain ⟨_, waited, _, _, sent⟩ := submits
  rw [submit_plan] at sent
  obtain ⟨request, middle, _, sent⟩ := (outcome_bind_eq_ok_iff _ _ _ _ _).mp sent
  obtain ⟨response, _, called, _⟩ := (outcome_bind_eq_ok_iff _ _ _ _ _).mp sent
  rw [Store.outcome_send_journaled] at called
  by_contra unserved
  rw [if_neg unserved] at called
  cases called

/-- A batch that gives up ends with the call of the page that it gives up. -/
theorem exists_givesUp (honest : operation.Honest store table)
    (own : OwnFaults store operation.method control)
    (plain : ∀ entry ∈ entries, entry.HasPlainMark) {before after : Journaled ω Exchange}
    {name : String} {unprocessed reported : List Value}
    (run : ((operation.plan store.journaled table items retries control.journaled).carryOut
      operation.pageSize entries).outcome before =
        (.error (.partialBatch name unprocessed reported), after)) :
    ∃ earlier last reply page left,
      Event.calls after.2 = Event.calls before.2 ++ earlier ++ [last] ∧
        operation.GivesUp store table entries page left last reply ∧
          unprocessed = left.map Entry.source := by
  have leaves := leavesOwn_of_honest honest plain
  obtain ⟨page, later, gathered, middle, reached, ending⟩ :=
    Plan.reaches_of_drain_error _ _ _ _ _ _ run
  obtain ⟨calls, journal, sendable⟩ := reaches_induct
    (motive := fun progress _ => operation.Sendable entries progress.queue)
    (operation.sendable_start entries)
    (fun _ _ _ _ _ _ _ queued exchanged follows => queued.follows leaves exchanged follows) reached
  rcases (ordinary_plan own.journaled table items retries).cases_of_ends ending with
    other | cancelled | exhausted
  · cases other
  · obtain ⟨_, _, _, same⟩ := cancelled
    cases same
  · obtain ⟨reply, left, _, submits, given, matched, _, _, same⟩ := exhausted
    cases same
    obtain ⟨last, exchanged, called⟩ := exchanged_of_submits submits
    have inside : ∀ entry ∈ page.entries, entry ∈ entries := fun entry member =>
      sendable.trimmed.mem operation.pageSize_pos member
    rw [restore_plan] at matched
    obtain ⟨part, marked⟩ := remainder_of_le operation.restore page.entries left reply
      (fun entry member => plain entry (inside entry member)) (honest _ last reply exchanged)
      matched
    refine ⟨calls, last, reply, page.entries, left, ?_, ?_, rfl⟩
    · rw [called, journal]
    · exact ⟨inside, sendable.isPage, exchanged, served_of_submits submits,
        ne_nil_of_remainder given matched, part, marked⟩

/-- Entries that fit on one page are one page. -/
theorem chunks_of_le {size : Nat} {entries : List Entry} (some : entries ≠ [])
    (few : entries.length ≤ size) : chunks size entries = [entries] := by
  have positive : size ≠ 0 := by
    have := List.length_pos_iff.mpr some
    omega
  rw [chunks, List.isEmpty_eq_false_iff.mpr some, List.take_of_length_le few,
    List.drop_eq_nil_of_le few, beq_false_of_ne positive, chunks]
  rfl

/-- The first turn of a batch that nothing cancels begins with the call of its page. -/
theorem beginsWith_turn (served : store.serves operation.method = true)
    (uncancelled : control.cancelled = none) (few : entries.length ≤ operation.pageSize)
    (later : List Page) (gathered : List Value) :
    BeginsWith (operation.Carries table (entries.map Entry.native))
      ((operation.plan store.journaled table items retries control.journaled).turn ⟨entries, 0⟩
        later gathered) := by
  have asked : (operation.plan store.journaled table items retries
      (control.journaled : Control (Journaled ω Exchange))).isCancelled = pure false := by
    rw [Plan.isCancelled, cancelled_plan, Control.journaled, uncancelled]
    rfl
  have waited : (operation.plan store.journaled table items retries
      (control.journaled : Control (Journaled ω Exchange))).wait 0 = pure () := by
    rw [Plan.wait]
    split
    · rfl
    · rfl
  obtain ⟨request, requested⟩ :
      ∃ request, operation.request table (entries.map Entry.native) = .ok request := by
    cases operation with
    | read | write => exact ⟨_, rfl⟩
  have carries : ∀ answer, operation.Carries table (entries.map Entry.native)
      ⟨operation.method, request, answer⟩ := fun answer =>
    carries_of_request rfl (by rwa [List.length_map]) requested
  rw [Plan.turn, asked, pure_bind]
  simp only [Bool.false_eq_true, ↓reduceIte, waited, pure_bind, submit_plan]
  apply BeginsWith.bind
  · apply BeginsWith.lift_bind requested
    exact (BeginsWith.send served carries).bind fun response => SendsOnly.lift _
  · intro reply
    split
    · apply (SendsOnly.lift _).bind
      intro left
      split
      · exact SendsOnly.pure _
      · exact (SendsOnly.lift _).bind fun items => SendsOnly.throw _
    · exact SendsOnly.pure _

/-- An operation on what fits on one page begins with the call of that page. -/
theorem beginsWith_perform (translates : operation.entriesOf items = .ok entries)
    (checked : operation.check items = .ok ())
    (allowed : ∀ answers, ∃ retries, retriesOf answers control.maxRetries = .ok retries)
    (served : store.serves operation.method = true) (uncancelled : control.cancelled = none)
    (some : entries ≠ []) (few : entries.length ≤ operation.pageSize) :
    BeginsWith (operation.Carries table (entries.map Entry.native))
      (operation.perform store.journaled table items control.journaled) := by
  rw [perform_eq _ _ _ _ _ entries translates]
  apply BeginsWith.lift_bind checked
  apply BeginsWith.limit_bind
  intro answers
  obtain ⟨retries, done⟩ := allowed answers
  apply BeginsWith.lift_bind done
  refine BeginsWith.bind ?_ fun gathered => SendsOnly.lift _
  rw [Plan.carryOut, chunks_of_le some few, List.map_singleton, Plan.drain_cons]
  apply (beginsWith_turn served uncancelled few [] []).bind
  intro next
  exact sendsOnly_drain (motive := fun _ => True) (fun _ _ _ _ _ => trivial)
    (fun _ _ _ _ _ _ _ _ _ => trivial) _ _ trivial

end Batch.Operation

namespace Batch

variable {store : Store ω} {table : String} {keys : List Value} {control : Control ω}

/-- A deletion under native keys that gives up has translated the keys, may be retried so often, and
ends with the call of the page that it gives up. -/
theorem exists_givesUp_of_deleteNative (honest : (Operation.write .delete).Honest store table)
    (own : OwnFaults store .writeBatch control)
    (plain : ∀ entries, deleteEntries keys = .ok entries → ∀ entry ∈ entries, entry.HasPlainMark)
    {before after : Journaled ω Exchange} {name : String} {unprocessed reported : List Value}
    (run : (deleteNative store.journaled (.text table) keys control.journaled).outcome before =
      (.error (.partialBatch name unprocessed reported), after)) :
    ∃ entries, deleteEntries keys = .ok entries ∧
      (∃ answers retries, retriesOf answers control.maxRetries = .ok retries) ∧
      ∃ earlier last reply page left,
        Event.calls after.2 = Event.calls before.2 ++ earlier ++ [last] ∧
          (Operation.write .delete).GivesUp store table entries page left last reply ∧
            unprocessed = left.map Entry.source := by
  rcases (outcome_bind_eq_error_iff _ _ _ _ _).mp run with failed | ⟨entries, middle, made, run⟩
  · rw [outcome_lift, Prod.mk.injEq, deleteEntries_eq_error_iff] at failed
    have ordinary : FailsOnly Fault.Ordinary (keys.mapM Item.toTokens) :=
      FailsOnly.mapM fun key _ => Item.ordinary_toTokens key
    cases ordinary _ failed.1
  rw [outcome_lift, Prod.mk.injEq] at made
  obtain ⟨made, rfl⟩ := made
  refine ⟨entries, made, ?_⟩
  cases filled : entries.isEmpty with
  | true =>
      simp only [filled, Bool.not_true, Bool.false_eq_true, ↓reduceIte, outcome_pure] at run
      cases run
  | false =>
      simp only [filled, Bool.not_false, ↓reduceIte, outcome_bind_eq_error_iff] at run
      rcases run with run | ⟨_, _, _, run⟩
      · rw [writeEntries_delete, outcome_bind, Store.outcome_limit] at run
        rcases (outcome_bind_eq_error_iff _ _ _ _ _).mp run with
          failed | ⟨retries, _, allowed, run⟩
        · rw [outcome_lift, Prod.mk.injEq] at failed
          cases ordinary_retriesOf _ _ _ failed.1
        rw [outcome_lift, Prod.mk.injEq] at allowed
        obtain ⟨allowed, rfl⟩ := allowed
        rcases (outcome_bind_eq_error_iff _ _ _ _ _).mp run with drained | ⟨_, _, _, run⟩
        · exact ⟨⟨_, retries, allowed⟩,
            Operation.exists_givesUp honest own (plain entries made) drained⟩
        · cases run
      · cases run

/-- Whether a number of retries is allowed does not depend on the store. -/
theorem exists_retries {answers retries : Nat} {maxRetries : Value}
    (allowed : retriesOf answers maxRetries = .ok retries) (others : Nat) :
    ∃ retries, retriesOf others maxRetries = .ok retries := by
  obtain ⟨negative, below, allowed⟩ := (bind_eq_ok_iff _ _ _).mp allowed
  cases negative with
  | true => cases allowed
  | false => exact ⟨_, (bind_eq_ok_iff _ _ _).mpr ⟨false, below, rfl⟩⟩

end Batch

end TokenTable
