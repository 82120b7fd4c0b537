import Mathlib.Logic.Relation
import TokenTable.Client.Scan
import TokenTable.Proofs.Fallible
import TokenTable.Proofs.Journal

/-! # What a client sends

What an operation on a store sends is read off the journal of its calls. The laws of `Sends` and
`SendsOnly` follow the ways of putting operations together, and each operation of a client that
takes conditions or updates sends what these are translated to: with its single call
(`sends_put`, `sends_update`, `sends_query`), or with every page it asks for (`sends_count`,
`sendsOnly_next`).
-/

namespace TokenTable

namespace Run

variable {ω α β : Type} {said : Method → Request → Prop}

/-- Every call that an operation makes is as it is said. -/
def SendsOnly (said : Method → Request → Prop) (action : Run (Journaled ω Exchange) α) : Prop :=
  ∀ world, ∃ added, (action.outcome world).2.2 = world.2 ++ added ∧
    ∀ exchange ∈ Event.calls added, said exchange.method exchange.request

/-- Every call that an operation makes is as it is said, and it does not return without a call. -/
def Sends (said : Method → Request → Prop) (action : Run (Journaled ω Exchange) α) : Prop :=
  ∀ world, ∃ added, (action.outcome world).2.2 = world.2 ++ added ∧
    (∀ exchange ∈ Event.calls added, said exchange.method exchange.request) ∧
    ((action.outcome world).1.isOk = true → Event.calls added ≠ [])

theorem Sends.only {action : Run (Journaled ω Exchange) α} (sends : Sends said action) :
    SendsOnly said action := by
  intro world
  obtain ⟨added, same, each, _⟩ := sends world
  exact ⟨added, same, each⟩

theorem SendsOnly.lift (result : Except Fault α) :
    SendsOnly said (liftM result : Run (Journaled ω Exchange) α) := by
  intro world
  refine ⟨[], (List.append_nil _).symm, ?_⟩
  intro exchange member
  cases member

theorem SendsOnly.pure (a : α) : SendsOnly said (Pure.pure a : Run (Journaled ω Exchange) α) :=
  SendsOnly.lift (.ok a)

theorem SendsOnly.throw (fault : Fault) :
    SendsOnly said (MonadExcept.throw fault : Run (Journaled ω Exchange) α) :=
  SendsOnly.lift (.error fault)

/-- What follows an operation has to be as it is said only where the operation succeeds. -/
theorem SendsOnly.bind_of_ok {first : Run (Journaled ω Exchange) α}
    {next : α → Run (Journaled ω Exchange) β} (early : SendsOnly said first)
    (late : ∀ world a after, first.outcome world = (.ok a, after) → SendsOnly said (next a)) :
    SendsOnly said (first >>= next) := by
  intro world
  obtain ⟨added, same, each⟩ := early world
  rw [outcome_bind]
  rcases result : first.outcome world with ⟨fault | a, middle⟩
  · rw [result] at same
    exact ⟨added, same, each⟩
  · rw [result] at same
    obtain ⟨others, rest, eachOther⟩ := late world a middle result middle
    refine ⟨added ++ others, ?_, fun exchange member => ?_⟩
    · change middle.2 = world.2 ++ added at same
      rw [← List.append_assoc, ← same]
      exact rest
    · rw [Event.calls_append, List.mem_append] at member
      rcases member with member | member
      · exact each exchange member
      · exact eachOther exchange member

theorem SendsOnly.bind {first : Run (Journaled ω Exchange) α}
    {next : α → Run (Journaled ω Exchange) β} (early : SendsOnly said first)
    (late : ∀ a, SendsOnly said (next a)) : SendsOnly said (first >>= next) :=
  early.bind_of_ok fun _ a _ _ => late a

/-- An operation that fails at once is as it is said. -/
theorem Sends.of_error {action : Run (Journaled ω Exchange) α} (fault : Fault)
    {world : Journaled ω Exchange} (failed : action.outcome world = (.error fault, world)) :
    ∃ added, (action.outcome world).2.2 = world.2 ++ added ∧
      (∀ exchange ∈ Event.calls added, said exchange.method exchange.request) ∧
      ((action.outcome world).1.isOk = true → Event.calls added ≠ []) := by
  rw [failed]
  refine ⟨[], (List.append_nil _).symm, ?_, ?_⟩
  · intro exchange member
    cases member
  · intro succeeds
    cases succeeds

theorem Sends.throw (fault : Fault) :
    Sends said (MonadExcept.throw fault : Run (Journaled ω Exchange) α) :=
  fun world => Sends.of_error fault (outcome_throw fault world)

theorem Sends.lift_bind {result : Except Fault α} {next : α → Run (Journaled ω Exchange) β}
    (follows : ∀ a, result = .ok a → Sends said (next a)) : Sends said (liftM result >>= next) := by
  cases result with
  | error fault => exact Sends.throw fault
  | ok a => exact follows a rfl

theorem Sends.bind {first : Run (Journaled ω Exchange) α}
    {next : α → Run (Journaled ω Exchange) β} (early : Sends said first)
    (late : ∀ a, SendsOnly said (next a)) : Sends said (first >>= next) := by
  intro world
  obtain ⟨added, same, each, asked⟩ := early world
  rw [outcome_bind]
  rcases result : first.outcome world with ⟨fault | a, middle⟩
  · rw [result] at same asked
    exact ⟨added, same, each, fun succeeds => by cases succeeds⟩
  · rw [result] at same asked
    obtain ⟨others, rest, eachOther⟩ := late a middle
    refine ⟨added ++ others, ?_, fun exchange member => ?_, fun _ none => ?_⟩
    · change middle.2 = world.2 ++ added at same
      rw [← List.append_assoc, ← same]
      exact rest
    · rw [Event.calls_append, List.mem_append] at member
      rcases member with member | member
      · exact each exchange member
      · exact eachOther exchange member
    · rw [Event.calls_append, List.append_eq_nil_iff] at none
      exact asked rfl none.1

theorem said_of_mem_called {method : Method} {request : Request} (fits : said method request)
    (answer : Except Fault Value) :
    ∀ exchange ∈ Event.calls [.called (Exchange.mk method request answer)],
      said exchange.method exchange.request := by
  intro exchange member
  rw [List.mem_singleton.mp member]
  exact fits

theorem Sends.send {store : Store ω} {method : Method} {request : Request}
    (fits : said method request) : Sends said (store.journaled.send method request) := by
  intro world
  by_cases served : store.serves method = true
  · rw [Store.outcome_send_journaled, if_pos served]
    exact ⟨_, rfl, said_of_mem_called fits _, fun _ => List.cons_ne_nil _ _⟩
  · apply Sends.of_error .noSuchMember
    rw [Store.outcome_send_journaled, if_neg served]

/-- A call that is as it is said, with a handler for its rejection. -/
theorem Sends.handling_send {store : Store ω} {method : Method} {request : Request}
    (fits : said method request) (result : Value → α)
    {handler : Rejection → Run (Journaled ω Exchange) α}
    (handles : ∀ rejection, SendsOnly said (handler rejection)) :
    Sends said (handling (store.journaled.send method request >>= fun response =>
      Pure.pure (result response)) handler) := by
  intro world
  by_cases served : store.serves method = true
  · rw [outcome_handling, outcome_bind, Store.outcome_send_journaled, if_pos served]
    have single := said_of_mem_called fits ((store.answer method request).outcome world.1).1
    rcases answered : (store.answer method request).outcome world.1 with ⟨fault | response, after⟩
    · rw [answered] at single
      cases fault with
      | rejected rejection =>
          obtain ⟨added, same, each⟩ := handles rejection
            (after, world.2 ++ [.called ⟨method, request, .error (.rejected rejection)⟩])
          refine ⟨.called ⟨method, request, .error (.rejected rejection)⟩ :: added, ?_, ?_,
            fun _ => List.cons_ne_nil _ _⟩
          · exact same.trans (List.append_cons _ _ _).symm
          · intro exchange member
            rcases List.mem_cons.mp member with rfl | member
            · exact fits
            · exact each exchange member
      | _ => exact ⟨_, rfl, single, fun _ => List.cons_ne_nil _ _⟩
    · rw [answered] at single
      exact ⟨_, rfl, single, fun _ => List.cons_ne_nil _ _⟩
  · apply Sends.of_error .noSuchMember
    rw [outcome_handling, outcome_bind, Store.outcome_send_journaled, if_neg served]

end Run

open Run

namespace Scan

variable {ω : Type} {name : String}

/-- An argument of a scan's request that is the same for every page. -/
structure IsSteady (name : String) : Prop where
  notStart : name ≠ "ExclusiveStartKey"
  notLimit : name ≠ "Limit"

theorem lookup_turnPage (scan : Scan) (resume : Value) (steady : IsSteady name) :
    (scan.turnPage resume).request.lookup name = scan.request.lookup name := by
  rw [turnPage]
  split
  · exact lookup_upsertField_of_ne _ _ _ _ steady.notStart
  · rfl

theorem request_use {scan after : Scan} {rest : List Value} {resume : Value}
    (used : scan.use rest resume = .ok after) : after.request = scan.request := by
  rw [use] at used
  split at used
  · cases used
    rfl
  · obtain ⟨remaining, _, used⟩ := (bind_eq_ok_iff _ _ _).mp used
    obtain ⟨last, _, used⟩ := (bind_eq_ok_iff _ _ _).mp used
    split at used
    · cases used
      rfl
    · cases used
      rfl

theorem lookup_take {scan after : Scan} {natives : List Value} {resume : Value}
    {item : Option Value} (steady : IsSteady name)
    (taken : scan.take resume natives = .ok (item, after)) :
    after.request.lookup name = scan.request.lookup name := by
  induction natives generalizing scan with
  | nil =>
      cases taken
      exact lookup_turnPage scan resume steady
  | cons native rest ih =>
      rw [take] at taken
      obtain ⟨decoded, _, taken⟩ := (bind_eq_ok_iff _ _ _).mp taken
      cases decoded with
      | some item =>
          cases taken
          rfl
      | none =>
          obtain ⟨middle, used, taken⟩ := (bind_eq_ok_iff _ _ _).mp taken
          rw [← request_use used]
          split at taken
          · cases taken
            rfl
          · exact ih taken

theorem lookup_step {scan after : Scan} {item : Option Value} (steady : IsSteady name)
    (stepped : scan.step = .ok (item, after)) :
    after.request.lookup name = scan.request.lookup name := by
  rw [step] at stepped
  split at stepped
  · exact lookup_take steady stepped
  · obtain ⟨middle, used, stepped⟩ := (bind_eq_ok_iff _ _ _).mp stepped
    rw [← request_use used]
    split at stepped
    · cases stepped
      rfl
    · exact lookup_take steady stepped
  · cases stepped
    rfl

theorem lookup_pageRequest (scan : Scan) (steady : IsSteady name) :
    scan.pageRequest.lookup name = scan.request.lookup name := by
  rw [pageRequest]
  split
  · rfl
  · exact lookup_upsertField_of_ne _ _ _ _ steady.notLimit

theorem request_ask {scan after : Scan} {store : Store ω} {world later : ω}
    (asked : (scan.ask store).outcome world = (.ok after, later)) :
    after.request = scan.pageRequest := by
  obtain ⟨response, _, _, asked⟩ := (outcome_bind_eq_ok_iff _ _ _ _ _).mp asked
  obtain ⟨items, _, _, asked⟩ := (outcome_bind_eq_ok_iff _ _ _ _ _).mp asked
  obtain ⟨natives, _, _, asked⟩ := (outcome_bind_eq_ok_iff _ _ _ _ _).mp asked
  obtain ⟨resume, _, _, asked⟩ := (outcome_bind_eq_ok_iff _ _ _ _ _).mp asked
  cases asked
  rfl

/-- An item is handed out of the page at hand, or the next page is asked for first. -/
theorem next_cases {scan after : Scan} {store : Store ω} {pages : Nat} {world later : ω}
    {item : Option Value}
    (handed : (scan.next store pages).outcome world = (.ok (item, after), later)) :
    ∃ found middle, scan.step = .ok (found, middle) ∧
      (after = middle ∨ ∃ fewer asked between, pages = fewer + 1 ∧
        (middle.ask store).outcome world = (.ok asked, between) ∧
        (asked.next store fewer).outcome between = (.ok (item, after), later)) := by
  unfold next at handed
  obtain ⟨⟨found, middle⟩, _, single, handed⟩ := (outcome_bind_eq_ok_iff _ _ _ _ _).mp handed
  rw [outcome_lift, Prod.mk.injEq] at single
  obtain ⟨stepped, rfl⟩ := single
  refine ⟨found, middle, stepped, ?_⟩
  simp only at handed
  split at handed
  · cases handed
    exact Or.inl rfl
  · cases pages with
    | zero => cases handed
    | succ fewer =>
        obtain ⟨asked, between, page, handed⟩ := (outcome_bind_eq_ok_iff _ _ _ _ _).mp handed
        exact Or.inr ⟨fewer, asked, between, rfl, page, handed⟩

/-- Handing out an item leaves what is asked of every page alone. -/
theorem lookup_next {scan after : Scan} {store : Store ω} {pages : Nat} {world later : ω}
    {item : Option Value} (steady : IsSteady name)
    (handed : (scan.next store pages).outcome world = (.ok (item, after), later)) :
    after.request.lookup name = scan.request.lookup name := by
  induction pages generalizing scan world with
  | zero =>
      obtain ⟨found, middle, stepped, rfl | ⟨fewer, _, _, more, _⟩⟩ := next_cases handed
      · exact lookup_step steady stepped
      · cases more
  | succ pages ih =>
      obtain ⟨found, middle, stepped, rfl | ⟨fewer, asked, _, more, page, handed⟩⟩ :=
        next_cases handed
      · exact lookup_step steady stepped
      · cases more
        rw [ih handed, request_ask page, lookup_pageRequest _ steady, lookup_step steady stepped]

theorem sendsOnly_ask (scan : Scan) (store : Store ω) (held : Option Value)
    (steady : IsSteady name) (holds : scan.request.lookup name = held) :
    SendsOnly (fun method request => method = .scan ∧ request.lookup name = held)
      (scan.ask store.journaled) := by
  have sent : Sends (fun method request => method = .scan ∧ request.lookup name = held)
      (store.journaled.send .scan scan.pageRequest) :=
    Sends.send ⟨rfl, (lookup_pageRequest scan steady).trans holds⟩
  apply sent.only.bind
  intro response
  apply (SendsOnly.lift _).bind
  intro items
  apply (SendsOnly.lift _).bind
  intro natives
  apply (SendsOnly.lift _).bind
  intro resume
  exact SendsOnly.pure _

/-- Every page of a scan is asked for with what the scan holds. -/
theorem sendsOnly_next (scan : Scan) (store : Store ω) (held : Option Value) (pages : Nat)
    (steady : IsSteady name) (holds : scan.request.lookup name = held) :
    SendsOnly (fun method request => method = .scan ∧ request.lookup name = held)
      (scan.next store.journaled pages) := by
  induction pages generalizing scan with
  | zero =>
      unfold next
      apply (SendsOnly.lift _).bind
      intro found
      split
      split
      · exact SendsOnly.pure _
      · exact SendsOnly.throw _
  | succ pages ih =>
      unfold next
      apply (SendsOnly.lift _).bind_of_ok
      intro world found after stepped
      rw [outcome_lift, Prod.mk.injEq] at stepped
      split
      rename_i item middle
      have kept : middle.request.lookup name = held :=
        (lookup_step steady stepped.1).trans holds
      split
      · exact SendsOnly.pure _
      · apply (sendsOnly_ask middle store held steady kept).bind_of_ok
        intro before asked later page
        apply ih
        rw [request_ask page, lookup_pageRequest _ steady, kept]

/-- A scan that another came to by handing out items one after another. -/
def Reaches (store : Store ω) : Scan → Scan → Prop :=
  Relation.ReflTransGen fun scan after => ∃ pages world item later,
    (scan.next store pages).outcome world = (.ok (item, after), later)

theorem lookup_of_reaches {store : Store ω} {start scan : Scan} (reaches : Reaches store start scan)
    (steady : IsSteady name) : scan.request.lookup name = start.request.lookup name := by
  induction reaches with
  | refl => rfl
  | tail _ step ih =>
      obtain ⟨pages, world, item, later, handed⟩ := step
      rw [lookup_next steady handed, ih]

end Scan

namespace Client

variable {ω : Type}

/-- A client whose calls and pauses are noted. -/
def journaled (client : Client ω) : Client (Journaled ω Exchange) where
  store := client.store.journaled
  retries := client.retries
  pause := client.pause.map Batch.journaledPause
  clock world := client.clock world.1
  waitTimeout := client.waitTimeout
  pollInterval := client.pollInterval

/-- A request holds under a name what some argument is translated to. -/
def Carries (name : String) (translated : Except Fault Value) (request : Request) : Prop :=
  ∃ native, translated = .ok native ∧ request.lookup name = some native

theorem lookup_conditionsNamed {name : String} {conditions : Value} {request : Request}
    (made : conditionsNamed name conditions = .ok request) (given : conditions.isGiven = true) :
    Carries name (Condition.toNativeAll conditions) request := by
  rw [conditionsNamed, if_pos given] at made
  obtain ⟨native, translated, made⟩ := (bind_eq_ok_iff _ _ _).mp made
  cases made
  exact ⟨native, translated, List.lookup_cons_self⟩

/-- Arguments under other names do not hide the conditions behind them. -/
theorem Carries.append {name : String} {translated : Except Fault Value} {request : Request}
    (carries : Carries name translated request) {others : Request}
    (apart : others.lookup name = none) : Carries name translated (others ++ request) := by
  obtain ⟨native, same, found⟩ := carries
  refine ⟨native, same, ?_⟩
  rw [List.lookup_append, apart, found]
  rfl

theorem lookup_sentUnlessNull_of_ne {name other : String} (value : Value) (apart : other ≠ name) :
    (sentUnlessNull name value).lookup other = none := by
  have differs : (other == name) = false := beq_eq_false_iff_ne.mpr apart
  rw [sentUnlessNull, optional]
  split
  · rw [List.lookup_cons, differs]
    rfl
  · rfl

/-- Writing an item sends its conditions. -/
theorem sends_put (client : Client ω) (table item expected : Value) :
    Sends (fun method request => method = .putItem ∧ (expected.isGiven = true →
        Carries "Expected" (Condition.toNativeAll expected) request))
      (client.journaled.put table item expected) := by
  apply Sends.lift_bind
  intro native _
  apply Sends.lift_bind
  intro conditions made
  apply Sends.handling_send
  · exact ⟨rfl, fun given => (lookup_conditionsNamed made given).append rfl⟩
  · intro rejection
    split
    · exact SendsOnly.pure false
    · exact SendsOnly.throw _

/-- Updating an item sends its updates and its conditions. -/
theorem sends_update (client : Client ω) (table key updates expected returned : Value) :
    Sends (fun method request => method = .updateItem ∧
        Carries "AttributeUpdates" (Update.toNativeAll updates) request ∧
        (expected.isGiven = true → Carries "Expected" (Condition.toNativeAll expected) request))
      (client.journaled.update table key updates expected returned) := by
  rw [update]
  split
  · exact Sends.throw _
  apply Sends.lift_bind
  intro native _
  apply Sends.lift_bind
  intro changes translated
  apply Sends.lift_bind
  intro conditions made
  apply Sends.bind
  · apply Sends.handling_send
    · exact ⟨rfl, ⟨changes, translated, rfl⟩,
        fun given => (lookup_conditionsNamed made given).append rfl⟩
    · intro rejection
      split
      · exact SendsOnly.pure none
      · exact SendsOnly.throw _
  · intro response
    cases response with
    | none => exact SendsOnly.pure none
    | some response => exact (SendsOnly.lift _).bind fun _ => SendsOnly.lift _

/-- A query sends its key conditions and its filter. -/
theorem sends_query (client : Client ω) (table conditions : Value) (options : QueryOptions) :
    Sends (fun method request => method = .query ∧
        Carries "KeyConditions" (Condition.toNativeAll conditions) request ∧
        (options.filter.isGiven = true →
          Carries "QueryFilter" (Condition.toNativeAll options.filter) request))
      (client.journaled.query table conditions options) := by
  rw [query]
  split
  · exact Sends.throw _
  apply Sends.lift_bind
  intro _ _
  apply Sends.lift_bind
  intro keyConditions translated
  -- what is sent before the filter: where the page starts, if anywhere
  have asks (start : Request) (apart : start.lookup "QueryFilter" = none) :
      Sends (fun method request => method = .query ∧
          Carries "KeyConditions" (Condition.toNativeAll conditions) request ∧
          (options.filter.isGiven = true →
            Carries "QueryFilter" (Condition.toNativeAll options.filter) request))
        (do
          let filter ← (liftM (conditionsNamed "QueryFilter" options.filter) :
            Run (Journaled ω Exchange) Request)
          let response ← client.journaled.store.send .query <|
            [("TableName", table), ("KeyConditions", keyConditions),
              ("ScanIndexForward", options.forward)] ++
            sentUnlessNull "Limit" options.limit ++
            sentUnlessNull "ConsistentRead" options.consistent ++
            sentUnlessNull "IndexName" options.index ++ start ++ filter
          Item.decodeAll (← (← response.getD "Items" (.list [])).elements)) := by
    apply Sends.lift_bind
    intro filter made
    apply Sends.bind
    · apply Sends.send
      refine ⟨rfl, ⟨keyConditions, translated, rfl⟩, fun given => ?_⟩
      apply (lookup_conditionsNamed made given).append
      have limit := lookup_sentUnlessNull_of_ne options.limit
        (by decide : "QueryFilter" ≠ "Limit")
      have consistent := lookup_sentUnlessNull_of_ne options.consistent
        (by decide : "QueryFilter" ≠ "ConsistentRead")
      have index := lookup_sentUnlessNull_of_ne options.index
        (by decide : "QueryFilter" ≠ "IndexName")
      simp only [List.lookup_append, apart, limit, consistent, index]
      rfl
    · intro response
      exact (SendsOnly.lift _).bind fun _ => (SendsOnly.lift _).bind fun _ => SendsOnly.lift _
  split
  · exact asks [] rfl
  · apply Sends.lift_bind
    intro start _
    exact asks [("ExclusiveStartKey", start)] rfl

/-- Every page that is counted is asked for with what the first request holds. -/
theorem sends_countPages (store : Store ω) (name : String) (held : Value)
    (apart : name ≠ "ExclusiveStartKey") (pages : Nat) (request : Request) (total : Int)
    (carries : request.lookup name = some held) :
    Sends (fun method request => method = .query ∧ request.lookup name = some held)
      (countPages store.journaled pages request total) := by
  induction pages generalizing request total with
  | zero => exact Sends.throw _
  | succ pages ih =>
      have asked : Sends (fun method request => method = .query ∧ request.lookup name = some held)
          (store.journaled.send .query request) := Sends.send ⟨rfl, carries⟩
      rw [countPages]
      apply asked.bind
      intro response
      apply (SendsOnly.lift _).bind
      intro _
      apply (SendsOnly.lift _).bind
      intro _
      apply (SendsOnly.lift _).bind
      intro last
      split
      · apply (ih _ _ _).only
        rw [lookup_upsertField_of_ne _ _ _ _ apart]
        exact carries
      · exact SendsOnly.pure _

/-- Counting sends the key conditions with every page. -/
theorem sends_count (client : Client ω) (table conditions index : Value) :
    Sends (fun method request => method = .query ∧
        Carries "KeyConditions" (Condition.toNativeAll conditions) request)
      (client.journaled.count table conditions index) := by
  rw [count]
  split
  · exact Sends.throw _
  apply Sends.lift_bind
  intro keyConditions translated world
  rw [outcome_bind, Store.outcome_limit]
  obtain ⟨added, same, each, asked⟩ := sends_countPages client.store "KeyConditions" keyConditions
    (by decide) (client.journaled.store.patience world + 1)
    ([("TableName", table), ("KeyConditions", keyConditions), ("Select", .text "COUNT")] ++
      sentUnlessNull "IndexName" index) 0 rfl world
  refine ⟨added, same, fun exchange member => ?_, asked⟩
  exact ⟨(each exchange member).1, keyConditions, translated, (each exchange member).2⟩

/-- A scan sends its filter with every page, whatever was handed out before. -/
theorem sendsOnly_scan (client : Client ω) {table filter limit : Value} {start scan : Scan}
    (begun : Client.scan table filter limit = .ok start)
    (reaches : Scan.Reaches client.journaled.store start scan) (pages : Nat) :
    SendsOnly (fun method request => method = .scan ∧ (filter.isGiven = true →
        Carries "ScanFilter" (Condition.toNativeAll filter) request))
      (scan.next client.journaled.store pages) := by
  have steady : Scan.IsSteady "ScanFilter" := ⟨by decide, by decide⟩
  obtain ⟨_, _, begun⟩ := (bind_eq_ok_iff _ _ _).mp begun
  obtain ⟨conditions, made, begun⟩ := (bind_eq_ok_iff _ _ _).mp begun
  cases begun
  intro world
  obtain ⟨added, same, each⟩ := Scan.sendsOnly_next scan client.store _ pages steady
    (Scan.lookup_of_reaches reaches steady) world
  refine ⟨added, same, fun exchange member => ⟨(each exchange member).1, fun given => ?_⟩⟩
  obtain ⟨native, translated, found⟩ := lookup_conditionsNamed made given
  exact ⟨native, translated, (each exchange member).2.trans found⟩

end Client

end TokenTable
