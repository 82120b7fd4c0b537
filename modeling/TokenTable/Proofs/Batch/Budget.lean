import TokenTable.Proofs.Batch.Retries

/-! # Budgets

A token that cancels a batch after some questions is asked once before every turn and changes
nothing else. So the batch makes one call for every question that it may ask, and what the calls
return and how they leave the queue is the same as without the token. The two batches are compared
turn by turn, for all budgets at once (`cut_drain`): the one with the token ends where the other
does (`Cut.whole`), or it is cancelled where the other goes on (`Cut.stopped`). The token is asked
before the pause, so a batch that ends in a pause is cancelled before it if the budget is used up.
Main statement: `perform_within_budget`.
-/

namespace TokenTable

variable {ω : Type}

namespace Batch.Operation

open Run

/-- The natives that some calls returned, in order. -/
def gatheredIn (operation : Operation) (table : String) (calls : List Exchange) : List Value :=
  calls.flatMap fun exchange =>
    match exchange.answer >>= operation.reply table with
    | .ok reply => reply.gathered
    | .error _ => []

theorem gatheredIn_cons {operation : Operation} {table : String} {exchange : Exchange}
    {reply : Reply} (replied : (exchange.answer >>= operation.reply table) = .ok reply)
    (calls : List Exchange) :
    operation.gatheredIn table (exchange :: calls) =
      reply.gathered ++ operation.gatheredIn table calls := by
  rw [gatheredIn, List.flatMap_cons, replied]
  rfl

theorem gatheredIn_take_subset {operation : Operation} {table : String} (calls : List Exchange)
    (n : Nat) :
    operation.gatheredIn table (calls.take n) ⊆ operation.gatheredIn table calls := by
  intro native member
  obtain ⟨exchange, inside, given⟩ := List.mem_flatMap.mp member
  exact List.mem_flatMap.mpr ⟨exchange, List.mem_of_mem_take inside, given⟩

/-- A batch ended in a wait, some calls after its start: the wait was too long to be told, or the
last that the batch did was to pause. -/
structure EndsInWait (control : Control ω) (made : Nat) (result : Except Fault (List Value))
    (told : List (Event Exchange)) : Prop where
  paused : control.pause ≠ none
  last : (result = .error .outOfRange ∧ 1024 < made + (Event.calls told).length) ∨
    Event.EndsInPause told

/-- What becomes of a run with a token that cancels it after some questions: it does what the run
without the token does, or it is cancelled where that one goes on. -/
inductive Cut (operation : Operation) (table : String) (items : Value) (control : Control ω)
    (made : Nat) (gathered : List Value) (budget : Nat) (result : Except Fault (List Value))
    (after : ω) (told : List (Event Exchange)) :
    Except Fault (List Value) → Tokened ω → List (Event Exchange) → Prop
  | whole (token : CancelToken) (added : List (Event Exchange)) (same : Event.acts added = told)
      (first : Event.upTo budget told = told) (enough : (Event.calls told).length ≤ budget) :
      Cut operation table items control made gathered budget result after told result
        (after, token) added
  | stopped (pending : List Value) (world : Tokened ω) (added : List (Event Exchange))
      (same : Event.acts added = Event.upTo budget told)
      (few : budget ≤ (Event.calls told).length)
      (waiting : budget = (Event.calls told).length → EndsInWait control made result told) :
      Cut operation table items control made gathered budget result after told
        (operation.report items
            (gathered ++ operation.gatheredIn table (Event.calls (Event.upTo budget told))) >>=
          fun reported => .error (.cancelledBatch operation.name pending reported))
        world added

variable {operation : Operation} {store : Store ω} {table : String} {items : Value}
  {control : Control ω} {retries made : Nat}

theorem Worked.exists_exchange {settle : Reply → Except Fault Progress} {attempt : Nat}
    {next : Progress} {told : List (Event Exchange)}
    (worked : operation.Worked table control settle attempt (.ok next) told) :
    ∃ (seconds : List Value) (exchange : Exchange) (reply : Reply),
      told = seconds.map .paused ++ [.called exchange] ∧
        (exchange.answer >>= operation.reply table) = .ok reply ∧ settle reply = .ok next := by
  cases worked with
  | stuck _ _ _ failed => cases failed
  | called seconds exchange answered single =>
      obtain ⟨reply, replied, settled⟩ := (bind_eq_ok_iff _ _ _).mp answered.symm
      exact ⟨seconds, exchange, reply, single, replied, settled⟩

/-- A batch that ends without another call ends in a wait. -/
theorem Worked.endsInWait {settle : Reply → Except Fault Progress} {attempt : Nat} {fault : Fault}
    {told : List (Event Exchange)} (tried : attempt ≤ made)
    (worked : operation.Worked table control settle attempt (.error fault) told)
    (silent : Event.calls told = []) : EndsInWait control made (.error fault) told := by
  cases worked with
  | stuck seconds _ fails failed same =>
      cases failed
      subst same
      cases fails with
      | long paused many same =>
          exact ⟨paused, Or.inl ⟨congrArg _ same, Nat.lt_of_lt_of_le many (tried.trans (by simp))⟩⟩
      | broken paused seconds => exact ⟨paused, Or.inr ⟨[], seconds, rfl⟩⟩
  | called seconds exchange _ single =>
      rw [single, Event.calls_turn] at silent
      cases silent

/-- A turn in front does not change where a batch ends. -/
theorem EndsInWait.later {result : Except Fault (List Value)} {told : List (Event Exchange)}
    (ends : EndsInWait control (made + 1) result told) (seconds : List Value)
    (exchange : Exchange) :
    EndsInWait control made result (seconds.map .paused ++ .called exchange :: told) := by
  refine ⟨ends.paused, ?_⟩
  rcases ends.last with ⟨failed, many⟩ | ⟨earlier, last, rfl⟩
  · refine Or.inl ⟨failed, ?_⟩
    rw [Event.calls_turn, List.length_cons]
    omega
  · exact Or.inr ⟨seconds.map .paused ++ .called exchange :: earlier, last,
      (List.append_assoc _ (_ :: earlier) _).symm⟩

theorem EndsInWait.bind {result : Except Fault (List Value)} {told : List (Event Exchange)}
    (ends : EndsInWait control made result told) (next : List Value → Except Fault (List Value)) :
    EndsInWait control made (result >>= next) told := by
  refine ⟨ends.paused, ends.last.imp_left ?_⟩
  rintro ⟨rfl, many⟩
  exact ⟨rfl, many⟩

/-- A token that cancels at once stops before the first turn. -/
theorem Cut.at_once {gathered : List Value} {result : Except Fault (List Value)} {after : ω}
    {told : List (Event Exchange)} (pending : List Value) (world : Tokened ω)
    (waiting : Event.calls told = [] → EndsInWait control made result told) :
    operation.Cut table items control made gathered 0 result after told
      (operation.report items gathered >>= fun reported =>
        .error (.cancelledBatch operation.name pending reported)) world [.polled] := by
  have nothing : gathered ++ operation.gatheredIn table (Event.calls (Event.upTo 0 told)) =
      gathered := by
    rw [Event.upTo_zero]
    exact List.append_nil _
  have cut : operation.Cut table items control made gathered 0 result after told _ world
      [.polled] :=
    .stopped pending world [.polled] (Event.upTo_zero told).symm (Nat.zero_le _)
      fun none => waiting (List.eq_nil_of_length_eq_zero none.symm)
  rwa [nothing] at cut

/-- A turn in front takes one more question of the token. -/
theorem Cut.later {seconds : List Value} {exchange : Exchange} {reply : Reply}
    {gathered : List Value} {budget : Nat} {result ending : Except Fault (List Value)} {after : ω}
    {last : Tokened ω} {told added : List (Event Exchange)}
    (replied : (exchange.answer >>= operation.reply table) = .ok reply)
    (cut : operation.Cut table items control (made + 1) (gathered ++ reply.gathered) budget result
      after told ending last added) :
    operation.Cut table items control made gathered (budget + 1) result after
      (seconds.map .paused ++ .called exchange :: told) ending last
        (.polled :: (seconds.map .paused ++ .called exchange :: added)) := by
  have acts : Event.acts (.polled :: (seconds.map .paused ++ .called exchange :: added)) =
      seconds.map .paused ++ .called exchange :: Event.acts added :=
    Event.acts_turn seconds exchange added
  have calls := Event.calls_turn seconds exchange told
  have upTo := Event.upTo_turn budget seconds exchange told
  cases cut with
  | whole token _ same first enough =>
      refine .whole token _ ?_ ?_ ?_
      · rw [acts, same]
      · rw [upTo, first]
      · rw [calls]
        exact Nat.succ_le_succ enough
  | stopped pending _ _ same few waiting =>
      have collected : gathered ++ reply.gathered ++
          operation.gatheredIn table (Event.calls (Event.upTo budget told)) =
            gathered ++ operation.gatheredIn table (Event.calls (Event.upTo (budget + 1)
              (seconds.map .paused ++ .called exchange :: told))) := by
        rw [upTo, Event.calls_turn, gatheredIn_cons replied, List.append_assoc]
      rw [collected]
      refine .stopped pending _ _ ?_ ?_ fun all => ?_
      · rw [acts, same, upTo]
      · rw [calls]
        exact Nat.succ_le_succ few
      · rw [calls] at all
        exact (waiting (Nat.succ.inj all)).later seconds exchange

/-- A turn that ends the batch is the last one with a token as well. -/
theorem Worked.whole {settle : Reply → Except Fault Progress} {attempt : Nat}
    {gathered : List Value} {told : List (Event Exchange)} {fault : Fault}
    (worked : operation.Worked table control settle attempt (.error fault) told) (budget : Nat)
    (after : ω) (token : CancelToken) :
    operation.Cut table items control made gathered (budget + 1) (.error fault) after told
      (.error fault) (after, token) (.polled :: told) := by
  cases worked with
  | stuck seconds _ _ _ silent =>
      subst silent
      refine .whole token _ (Event.acts_pauses seconds) ?_ ?_
      · have whole := Event.upTo_pauses budget seconds ([] : List (Event Exchange))
        rwa [List.append_nil, Event.upTo, List.append_nil] at whole
      · rw [Event.calls_pauses]
        exact Nat.zero_le _
  | called seconds exchange _ single =>
      subst single
      refine .whole token _ (Event.acts_turn seconds exchange []) ?_ ?_
      · rw [Event.upTo_turn]
        cases budget <;> rfl
      · rw [Event.calls_turn]
        exact Nat.succ_le_succ (Nat.zero_le _)

/-- A batch that is cancelled before its next page tells nothing more than that it asked. -/
theorem tells_stop {page : Page} {later : List Page} {gathered : List Value} (world : ω) :
    ((operation.tokenPlan store table items control retries).drain (page :: later) gathered).Tells
      (world, .countdown (.int 0))
      (operation.report items gathered >>= fun reported =>
        .error (.cancelledBatch operation.name (Plan.sources (page :: later)) reported))
      (world, .countdown (.int 0)) [.polled] := by
  have stops : ∃ fault,
      (operation.tokenPlan store table items control retries).stop (page :: later) gathered =
          .error fault ∧
        (operation.report items gathered >>= fun reported =>
          .error (.cancelledBatch operation.name (Plan.sources (page :: later)) reported)) =
            (.error fault : Except Fault (List Value)) := by
    rw [Plan.stop, report_plan, operation_plan]
    cases operation.report items gathered with
    | error fault => exact ⟨fault, rfl, rfl⟩
    | ok reported => exact ⟨_, rfl, rfl⟩
  obtain ⟨fault, stopped, same⟩ := stops
  have asks := tells_isCancelled_zero operation store table items control retries world
  rw [Plan.drain_cons, Plan.turn_eq, same]
  apply Tells.bind_error
  change Tells _ _ _ _ ([.polled] ++ [])
  refine asks.bind ?_
  simp only [↓reduceIte]
  rw [stopped]
  exact Tells.lift _ _

/-- A turn with a token that does not cancel yet is asked about and is the turn without it. -/
theorem tells_turn {page : Page} {later : List Page} {gathered : List Value} {world after : ω}
    {result : Except Fault Progress} {told : List (Event Exchange)} (budget : Nat)
    (works : ((operation.tokenPlan store table items control retries).work page later
      gathered).Tells (world, .countdown (.int budget)) result (after, .countdown (.int budget))
        told) :
    ((operation.tokenPlan store table items control retries).turn page later gathered).Tells
      (world, .countdown (.int (budget + 1 : Nat))) result (after, .countdown (.int budget))
        (.polled :: told) := by
  rw [Plan.turn_eq, Int.natCast_succ]
  exact (tells_isCancelled_succ operation store table items control retries world budget).bind works

/-- A token that cancels after some questions cuts the draining of a queue, whatever their number
is. The induction is on the turns of the batch without the token; no page was tried more often than
calls were made. -/
theorem cut_drain (table : String) (items : Value) (retries : Nat)
    (serves : store.serves operation.method = true) (free : control.cancelled = none)
    (queue : List Page) (gathered : List Value) (made : Nat)
    (attempts : ∀ page ∈ queue, page.attempt ≤ made) (world : ω) :
    ∃ result after told,
      ((operation.notedPlan store table items control retries).drain queue gathered).Tells world
          result after told ∧
        ∀ budget : Nat, ∃ ending last added,
          ((operation.tokenPlan store table items control retries).drain queue gathered).Tells
            (world, .countdown (.int budget)) ending last added ∧
          operation.Cut table items control made gathered budget result after told ending last
            added := by
  induction queue, gathered using
    (operation.notedPlan store table items control retries).turn_induct
    generalizing world made with
  | empty gathered =>
      rw [Plan.drain_nil, Plan.drain_nil]
      refine ⟨_, _, _, Tells.lift (.ok gathered) world, fun budget =>
        ⟨_, _, _, Tells.lift (.ok gathered) _, ?_⟩⟩
      exact .whole _ [] rfl (by cases budget <;> rfl) (Nat.zero_le budget)
  | turns page later gathered ih =>
      obtain ⟨turned, middle, early, worked, noted, beside⟩ :=
        tells_work operation store table items control retries serves page later gathered world
      -- a token that cancels at once is the same for every turn
      suffices goesOn : ∃ result after told,
          ((operation.notedPlan store table items control retries).drain (page :: later)
            gathered).Tells world result after told ∧
          (Event.calls told = [] → EndsInWait control made result told) ∧
          ∀ budget : Nat, ∃ ending last added,
            ((operation.tokenPlan store table items control retries).drain (page :: later)
              gathered).Tells (world, .countdown (.int (budget + 1 : Nat))) ending last added ∧
            operation.Cut table items control made gathered (budget + 1) result after told ending
              last added by
        obtain ⟨result, after, told, drained, waiting, goesOn⟩ := goesOn
        refine ⟨result, after, told, drained, fun budget => ?_⟩
        cases budget with
        | zero => exact ⟨_, _, _, tells_stop world, .at_once _ _ waiting⟩
        | succ budget => exact goesOn budget
      rw [Plan.drain_cons, Plan.drain_cons, turn_notedPlan _ _ _ _ _ _ free]
      cases turned with
      | error fault =>
          exact ⟨.error fault, middle, early, noted.bind_error _,
            worked.endsInWait (attempts page List.mem_cons_self), fun budget =>
              ⟨_, _, _, (tells_turn budget (beside _)).bind_error _, worked.whole budget middle _⟩⟩
      | ok next =>
          obtain ⟨seconds, exchange, reply, single, replied, settled⟩ := worked.exists_exchange
          have turned : ((operation.notedPlan store table items control retries).turn page later
              gathered).outcome (world, []) = (.ok next, (middle, [] ++ early)) := by
            rw [turn_notedPlan _ _ _ _ _ _ free]
            exact noted []
          obtain ⟨result, after, late, drained, goesOn⟩ :=
            ih _ next _ turned (made + 1) (Plan.attempts_of_settle attempts settled) middle
          refine ⟨result, after, early ++ late, noted.bind drained, fun silent => ?_,
            fun budget => ?_⟩
          · rw [single, List.append_assoc, List.singleton_append, Event.calls_turn] at silent
            cases silent
          · obtain ⟨ending, last, added, cutDrained, cut⟩ := goesOn budget
            rw [Plan.gathered_of_settle settled] at cut
            refine ⟨ending, last, .polled :: early ++ added,
              (tells_turn budget (beside _)).bind cutDrained, ?_⟩
            rw [single, List.cons_append, List.append_assoc, List.append_assoc]
            exact cut.later replied

/-- The run of a batch that starts in a world, with its questions, pauses and calls noted. -/
def runOf (operation : Operation) (store : Store ω) (table : String) (items : Value)
    (control : Control ω) (world : ω) : Except Fault (List Value) × Journaled ω Exchange :=
  (operation.perform store.journaled table items control.journaled).outcome (world, [])

/-- What becomes of a free run under a token that cancels it after some questions. It makes the
first so many of its calls, with the same pauses before them. If there are no more calls, it ends as
it did, unless there are just as many and it ended in a wait. If there are more calls, or as many
and a last pause, it is cancelled, with a report of what the calls returned. -/
structure CutAt (operation : Operation) (table : String) (items : Value) (control : Control ω)
    (budget : Nat) (free : Except Fault (List Value) × Journaled ω Exchange)
    (cut : Except Fault (List Value) × Journaled (Tokened ω) Exchange) : Prop where
  acts : Event.acts cut.2.2 = Event.upTo budget free.2.2
  calls : Event.calls cut.2.2 = (Event.calls free.2.2).take budget
  whole : (Event.calls free.2.2).length ≤ budget →
    (budget = (Event.calls free.2.2).length → ¬ EndsInWait control 0 free.1 free.2.2) →
      cut.1 = free.1 ∧ cut.2.1.1 = free.2.1 ∧ Event.acts cut.2.2 = free.2.2
  stopped : budget < (Event.calls free.2.2).length ∨
      budget = (Event.calls free.2.2).length ∧ Event.EndsInPause free.2.2 → ∃ pending reported,
    cut.1 = .error (.cancelledBatch operation.name pending reported) ∧
      operation.report items (operation.gatheredIn table (Event.calls cut.2.2)) = .ok reported

theorem cutAt_whole {budget : Nat} {result : Except Fault (List Value)} {after : ω}
    {told added : List (Event Exchange)} (token : CancelToken) (same : Event.acts added = told)
    (first : Event.upTo budget told = told) (enough : (Event.calls told).length ≤ budget) :
    operation.CutAt table items control budget (result, (after, told))
      (result, ((after, token), added)) where
  acts := same.trans first.symm
  calls := by rw [List.take_of_length_le enough, ← Event.calls_acts, same]
  whole _ _ := ⟨rfl, rfl, same⟩
  stopped more := by
    rcases more with more | ⟨all, ends⟩
    · exact absurd enough (Nat.not_le_of_lt more)
    · exact absurd first (ends.upTo_ne all)

theorem cutAt_stopped {budget : Nat} {result : Except Fault (List Value)} {after : ω}
    {told added : List (Event Exchange)} {pending reported : List Value} {last : Tokened ω}
    (same : Event.acts added = Event.upTo budget told)
    (few : budget ≤ (Event.calls told).length)
    (waiting : budget = (Event.calls told).length → EndsInWait control 0 result told)
    (done : operation.report items
      (operation.gatheredIn table (Event.calls (Event.upTo budget told))) = .ok reported) :
    operation.CutAt table items control budget (result, (after, told))
      (.error (.cancelledBatch operation.name pending reported), (last, added)) where
  acts := same
  calls := by rw [← Event.calls_upTo, ← same, Event.calls_acts]
  whole enough free := by
    have all := Nat.le_antisymm few enough
    exact absurd (waiting all) (free all)
  stopped _ := by
    refine ⟨pending, reported, rfl, ?_⟩
    rw [← Event.calls_acts, same]
    exact done

/-- An operation whose arguments are checked does what draining its queue does. -/
theorem tells_perform {σ : Type} {entries : List Entry} (other : Store σ) (table : String)
    (hooks : Control σ) (made : operation.entriesOf items = .ok entries)
    (checked : operation.check items = .ok ()) (world : σ) {after : σ}
    (allowed : retriesOf (other.patience world + 1) hooks.maxRetries = .ok retries)
    {result : Except Fault (List Value)} {told : List (Event Exchange)}
    (drained : ((operation.notedPlan other table items hooks retries).drain
      (operation.start entries).queue []).Tells world result after told) :
    (operation.perform other.journaled table items hooks.journaled).Tells world
      (result >>= operation.report items) after told := by
  have limit : (other.journaled.limit).Tells world (.ok (other.patience world + 1)) world [] := by
    intro journal
    rw [List.append_nil]
    rfl
  have journaled : retriesOf (other.patience world + 1)
      (Control.journaled (κ := Exchange) hooks).maxRetries = .ok retries := allowed
  rw [perform_eq _ _ _ _ _ entries made, lift_bind_of_ok checked]
  refine limit.bind ?_
  rw [lift_bind_of_ok journaled]
  exact drained.bind_lift (operation.report items)

/-- An operation whose arguments are refused does nothing. -/
theorem tells_perform_of_error {σ : Type} {entries : List Entry} (other : Store σ) (table : String)
    (hooks : Control σ) (made : operation.entriesOf items = .ok entries) (world : σ) {fault : Fault}
    (refused : (operation.check items >>= fun _ =>
      retriesOf (other.patience world + 1) hooks.maxRetries) = .error fault) :
    (operation.perform other.journaled table items hooks.journaled).Tells world (.error fault) world
      [] := by
  rw [perform_eq _ _ _ _ _ entries made]
  intro journal
  rw [List.append_nil, outcome_bind, outcome_lift]
  cases checked : operation.check items with
  | error other =>
      rw [checked] at refused
      cases refused
      rfl
  | ok _ =>
      rw [checked] at refused
      have limited : retriesOf (other.patience world + 1) hooks.maxRetries = .error fault := refused
      change (Run.outcome (liftM (retriesOf (other.patience world + 1) hooks.maxRetries) >>= _)
        (world, journal)) = _
      rw [outcome_bind, outcome_lift, limited]

/-- A token that cancels after some questions cuts a batch. -/
theorem cutAt_runOf {natives : List NativeItem}
    (translates : (items.elements >>= fun maps => maps.mapM Item.encode) = .ok natives)
    (serves : store.serves operation.method = true) (free : control.cancelled = none)
    (marked : ∀ key ∈ natives, ∃ value, fingerprint key.toValue = .ok value) (world : ω)
    (legible : ∀ native ∈ operation.gatheredIn table
        (Event.calls (operation.runOf store table items control world).2.2),
      Legible (keyNames natives) native) (budget : Nat) :
    operation.CutAt table items control budget (operation.runOf store table items control world)
      (operation.runOf store.withToken table items control.withToken
        (world, .countdown (.int budget))) := by
  obtain ⟨entries, made, _⟩ := operation.entriesOf_of_encode translates
  cases settled : operation.check items >>= fun _ =>
      retriesOf (store.patience world + 1) control.maxRetries with
  | error fault =>
      have uncut := tells_perform_of_error store table control made world settled []
      have cut := tells_perform_of_error store.withToken table control.withToken made
        (world, .countdown (.int budget)) settled []
      rw [runOf, runOf, uncut, cut]
      exact cutAt_whole _ rfl (by cases budget <;> rfl) (Nat.zero_le budget)
  | ok retries =>
      obtain ⟨⟨⟩, checked, allowed⟩ := (bind_eq_ok_iff _ _ _).mp settled
      have untried : ∀ page ∈ (operation.start entries).queue, page.attempt ≤ 0 :=
        List.forall_mem_map.mpr fun _ _ => Nat.le_refl 0
      obtain ⟨result, after, told, drained, cuts⟩ :=
        cut_drain table items retries serves free _ [] 0 untried world
      obtain ⟨ending, last, added, cutDrained, cut⟩ := cuts budget
      have uncut := tells_perform store table control made checked world allowed drained []
      have short := tells_perform store.withToken table control.withToken made checked
        (world, .countdown (.int budget)) allowed cutDrained []
      rw [runOf] at legible ⊢
      rw [runOf, short]
      rw [uncut] at legible ⊢
      cases cut with
      | whole token _ same first enough => exact cutAt_whole token same first enough
      | stopped pending _ _ same few waiting =>
          have typed := nativesOf_of_encode translates
          obtain ⟨reported, done⟩ : ∃ reported, operation.report items
              (operation.gatheredIn table (Event.calls (Event.upTo budget told))) =
                .ok reported := by
            apply exists_report checked typed marked
            intro native member
            rw [Event.calls_upTo] at member
            exact legible native (gatheredIn_take_subset _ _ member)
          simp only [List.nil_append, done]
          exact cutAt_stopped same few (fun all => (waiting all).bind (operation.report items)) done

/-- **Budgets only cut a batch short.** Let the items of a batch translate, let their fingerprints
be taken, and let what the store returns be decoded and ranked. With a token that cancels after some
questions, the batch makes the first so many calls of the batch without it, with the same pauses
before them. If there are no more calls, it ends in the same way, unless there are just as many and
the batch without the token ended in a wait. If there are more calls, or as many and a pause that
failed, it is cancelled without another call or pause. And what a batch does with fewer retries is
what it does first with more of them, and all that it does if it returns. -/
theorem perform_within_budget (operation : Operation) (store : Store ω) (table : String)
    (items : Value) (pause : Option (Value → Run ω Unit)) (natives : List NativeItem)
    (translates : (items.elements >>= fun maps => maps.mapM Item.encode) = .ok natives)
    (serves : store.serves operation.method = true)
    (marked : ∀ key ∈ natives, ∃ value, fingerprint key.toValue = .ok value) (world : ω) :
    (∀ maxRetries,
      (∀ native ∈ operation.gatheredIn table (Event.calls
          (operation.runOf store table items ⟨maxRetries, pause, none⟩ world).2.2),
        Legible (keyNames natives) native) →
      ∀ budget : Nat,
        operation.CutAt table items ⟨maxRetries, pause, none⟩ budget
          (operation.runOf store table items ⟨maxRetries, pause, none⟩ world)
          (operation.runOf store.withToken table items
            (Control.withToken ⟨maxRetries, pause, none⟩) (world, .countdown (.int budget)))) ∧
      ∀ fewer more : Nat, fewer ≤ more →
        (operation.runOf store table items ⟨.int fewer, pause, none⟩ world).2.2 <+:
            (operation.runOf store table items ⟨.int more, pause, none⟩ world).2.2 ∧
          ∀ gathered after,
            operation.runOf store table items ⟨.int fewer, pause, none⟩ world =
                (.ok gathered, after) →
              operation.runOf store table items ⟨.int more, pause, none⟩ world =
                (.ok gathered, after) := by
  obtain ⟨entries, made, _⟩ := operation.entriesOf_of_encode translates
  refine ⟨fun maxRetries legible budget =>
    cutAt_runOf translates serves rfl marked world legible budget, fun fewer more less => ?_⟩
  have shortens := operation.shortens_perform store table items made less pause none
  exact ⟨shortens.journal (world, []), fun gathered after done => shortens.same_of_ok done⟩

/-- A read of two keys, the first of which comes back once, is cut short by every budget of
questions and of retries. -/
theorem perform_within_budget_twoKeys :
    (Event.calls ((read false .null).runOf (textTable.scheduledStore "t") "t" twoKeys
        ⟨.int 3, some fun _ => pure (), none⟩ [1, 0]).2.2).length = 2 ∧
      (∀ budget : Nat,
        (read false .null).CutAt "t" twoKeys ⟨.int 3, some fun _ => pure (), none⟩ budget
          ((read false .null).runOf (textTable.scheduledStore "t") "t" twoKeys
            ⟨.int 3, some fun _ => pure (), none⟩ [1, 0])
          ((read false .null).runOf (textTable.scheduledStore "t").withToken "t" twoKeys
            (Control.withToken ⟨.int 3, some fun _ => pure (), none⟩)
            ([1, 0], .countdown (.int budget)))) ∧
      ((read false .null).runOf (textTable.scheduledStore "t") "t" twoKeys
          ⟨.int 0, some fun _ => pure (), none⟩ [1, 0]).2.2 <+:
        ((read false .null).runOf (textTable.scheduledStore "t") "t" twoKeys
          ⟨.int 3, some fun _ => pure (), none⟩ [1, 0]).2.2 := by
  have marked : ∀ key ∈ [textKey "", textKey "a"],
      ∃ value, fingerprint key.toValue = .ok value := by
    simp only [textKey, List.forall_mem_cons, List.not_mem_nil, false_imp_iff, implies_true,
      and_true]
    exact ⟨exists_of_isOk (by decide +kernel), exists_of_isOk (by decide +kernel)⟩
  obtain ⟨cuts, retries⟩ := perform_within_budget (read false .null)
    (textTable.scheduledStore "t") "t" twoKeys (some fun _ => pure ())
    [textKey "", textKey "a"] rfl rfl marked [1, 0]
  refine ⟨by decide +kernel, cuts (.int 3) ?_, (retries 0 3 (Nat.zero_le 3)).1⟩
  have gathered : (read false .null).gatheredIn "t" (Event.calls ((read false .null).runOf
      (textTable.scheduledStore "t") "t" twoKeys ⟨.int 3, some fun _ => pure (), none⟩
        [1, 0]).2.2) = [textItem "a"] := by
    with_unfolding_all rfl
  rw [gathered, List.forall_mem_singleton]
  exact (readable_textItem _ "a").legible

/-- The token is asked before the pause. So a read whose first pause fails makes one call and ends
with that fault, but with a token that cancels after one question it makes the same call and is
cancelled. -/
theorem cancelled_before_failing_pause :
    let control : Control (List Nat) := ⟨.int 3, some fun _ => throw .wrongShape, none⟩
    let free := (read false .null).runOf (textTable.scheduledStore "t") "t" twoKeys control [1, 0]
    let cut := (read false .null).runOf (textTable.scheduledStore "t").withToken "t" twoKeys
      control.withToken ([1, 0], .countdown (.int 1))
    (Event.calls free.2.2).length = 1 ∧ cut.1 ≠ free.1 := by
  intro control free cut
  have failed : failsIn .wrongShape free.1 = true := by decide +kernel
  have cancelled : failsIn .wrongShape cut.1 = false := by decide +kernel
  refine ⟨by decide +kernel, fun same => ?_⟩
  rw [same, failed] at cancelled
  cases cancelled

end Batch.Operation

end TokenTable
