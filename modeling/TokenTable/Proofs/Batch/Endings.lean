import TokenTable.Proofs.Batch.Comparable
import TokenTable.Proofs.Batch.Lookup

/-! # How a batch ends

A batch of comparable items that a store does not refuse returns, or it is given up with a report:
because a page was not processed, or because it was cancelled. Between any two pages all that is
queued can be sent and matched and all that was gathered can be reported (`Plan.Sound`), so no turn
fails in another way (`Plan.Works.settles_turn`). Main statement: `Operation.perform_settles`.
Without its conditions a batch may end in the midst with a fault
(`Operation.perform_without_report`).
-/

namespace TokenTable

variable {ω α β : Type}

/-- From every world, an operation gives something good or fails as it may. -/
def Run.Settles (good : α → Prop) (allowed : Fault → Prop) (action : Run ω α) : Prop :=
  ∀ world,
    (∃ a after, action.outcome world = (.ok a, after) ∧ good a) ∨
      ∃ fault after, action.outcome world = (.error fault, after) ∧ allowed fault

/-- From every world, an operation gives something good. -/
def Run.Returns (good : α → Prop) (action : Run ω α) : Prop :=
  ∀ world, ∃ a after, action.outcome world = (.ok a, after) ∧ good a

/-- What follows a step that succeeds is all that happens. -/
theorem Run.lift_bind_of_ok {result : Except Fault α} {a : α} (succeeds : result = .ok a)
    (next : α → Run ω β) : (liftM result >>= next) = next a := by
  apply Run.ext
  intro world
  rw [outcome_bind, outcome_lift, succeeds]

theorem Run.Returns.pure {good : α → Prop} {a : α} (fine : good a) :
    Returns good (Pure.pure a : Run ω α) := fun world => ⟨a, world, rfl, fine⟩

namespace Run.Settles

variable {good : α → Prop} {goodNext : β → Prop} {allowed : Fault → Prop} {action : Run ω α}
  {next : α → Run ω β}

theorem of_returns (returns : Returns good action) : Settles good allowed action :=
  fun world => Or.inl (returns world)

theorem throw {fault : Fault} (is_allowed : allowed fault) :
    Settles good allowed (MonadExcept.throw fault : Run ω α) :=
  fun world => Or.inr ⟨fault, world, rfl, is_allowed⟩

/-- What follows an operation has to settle only after what it gave. -/
theorem bind_of_ok (first : Settles good allowed action)
    (second : ∀ world a after, action.outcome world = (.ok a, after) → good a →
      Settles goodNext allowed (next a)) : Settles goodNext allowed (action >>= next) := by
  intro world
  rw [outcome_bind]
  rcases first world with ⟨a, middle, done, fine⟩ | ⟨fault, after, failed, is_allowed⟩
  · rw [done]
    exact second world a middle done fine middle
  · rw [failed]
    exact Or.inr ⟨fault, after, rfl, is_allowed⟩

theorem after_returns (first : Returns good action)
    (second : ∀ a, good a → Settles goodNext allowed (next a)) :
    Settles goodNext allowed (action >>= next) :=
  (of_returns first).bind_of_ok fun _ a _ _ => second a

end Run.Settles

namespace Batch

/-- The reports with which a batch is given up: some entries were not processed, or it was
cancelled and some are pending. -/
inductive Reports (operation : String) : Fault → Prop
  | unprocessed (left items : List Value) : Reports operation (.partialBatch operation left items)
  | pending (left items : List Value) : Reports operation (.cancelledBatch operation left items)

/-- A reply that can be worked with: what was not processed can be sent again, and what was gathered
can be reported. -/
structure Reply.Usable (sendable readable : Value → Prop) (reply : Reply) : Prop where
  listed : reply.unprocessed.isGiven = true →
    ∃ natives, reply.unprocessed.elements = .ok natives ∧ ∀ native ∈ natives, sendable native
  gathered : ∀ native ∈ reply.gathered, readable native

namespace Plan

variable {plan : Plan ω} {sendable readable : Value → Prop}

/-- The steps of a plan succeed on what can be sent and what can be reported. -/
structure Works (plan : Plan ω) (sendable readable : Value → Prop) : Prop where
  isCancelled : Run.Returns (fun _ => True) plan.isCancelled
  wait : ∀ attempt ≤ plan.retries, Run.Returns (fun _ => True) (plan.wait attempt)
  submit : ∀ page, (∀ native ∈ page, sendable native) →
    Run.Returns (Reply.Usable sendable readable) (plan.submit page)
  remainder : ∀ entries unprocessed natives, (∀ entry ∈ entries, sendable entry.native) →
    unprocessed.elements = .ok natives → (∀ native ∈ natives, sendable native) →
      ∃ left, Batch.remainder plan.restore entries unprocessed = .ok left ∧
        ∀ entry ∈ left, sendable entry.native
  report : ∀ gathered, (∀ native ∈ gathered, readable native) →
    ∃ items, plan.report gathered = .ok items

/-- Between two pages: all that is queued can be sent, no page was tried too often, and all that was
gathered can be reported. -/
structure Sound (plan : Plan ω) (sendable readable : Value → Prop) (progress : Progress) :
    Prop where
  sendable : ∀ page ∈ progress.queue, ∀ entry ∈ page.entries, sendable entry.native
  attempts : ∀ page ∈ progress.queue, page.attempt ≤ plan.retries
  readable : ∀ native ∈ progress.gathered, readable native

theorem Sound.finish {page : Page} {later : List Page} {gathered more : List Value}
    (sound : plan.Sound sendable readable ⟨page :: later, gathered⟩)
    (added : ∀ native ∈ more, readable native) :
    plan.Sound sendable readable ⟨later, gathered ++ more⟩ where
  sendable page member := sound.sendable page (List.mem_cons_of_mem _ member)
  attempts page member := sound.attempts page (List.mem_cons_of_mem _ member)
  readable := List.forall_mem_append.mpr ⟨sound.readable, added⟩

theorem Sound.retry {page : Page} {later : List Page} {gathered : List Value}
    (sound : plan.Sound sendable readable ⟨later, gathered⟩)
    (left : ∀ entry ∈ page.entries, sendable entry.native) (again : page.attempt ≤ plan.retries) :
    plan.Sound sendable readable ⟨page :: later, gathered⟩ where
  sendable := List.forall_mem_cons.mpr ⟨left, sound.sendable⟩
  attempts := List.forall_mem_cons.mpr ⟨again, sound.attempts⟩
  readable := sound.readable

/-- A turn goes on with a sound queue, or gives the batch up with a report. -/
theorem Works.settles_turn (works : plan.Works sendable readable) {page : Page} {later : List Page}
    {gathered : List Value} (sound : plan.Sound sendable readable ⟨page :: later, gathered⟩) :
    Run.Settles (plan.Sound sendable readable) (Reports plan.operation)
      (plan.turn page later gathered) := by
  unfold turn
  apply Run.Settles.after_returns works.isCancelled
  intro cancelled _
  cases cancelled with
  | true =>
      obtain ⟨items, reported⟩ := works.report gathered sound.readable
      simp only [↓reduceIte]
      rw [Run.lift_bind_of_ok reported]
      exact .throw (.pending _ items)
  | false =>
      apply Run.Settles.after_returns
        (works.wait page.attempt (sound.attempts page List.mem_cons_self))
      intro _ _
      have sent : ∀ native ∈ page.entries.map Entry.native, sendable native :=
        List.forall_mem_map.mpr (sound.sendable page List.mem_cons_self)
      apply Run.Settles.after_returns (works.submit _ sent)
      intro reply usable
      have finished := sound.finish usable.gathered
      cases given : reply.unprocessed.isGiven with
      | false => exact .of_returns (.pure finished)
      | true =>
          obtain ⟨natives, listed, returned⟩ := usable.listed given
          obtain ⟨left, matched, again⟩ := works.remainder page.entries _ natives
            (sound.sendable page List.mem_cons_self) listed returned
          simp only [↓reduceIte]
          rw [Run.lift_bind_of_ok matched]
          by_cases allowed : page.attempt < plan.retries
          · rw [if_pos allowed]
            exact .of_returns (.pure (finished.retry again allowed))
          · rw [if_neg allowed]
            obtain ⟨items, reported⟩ := works.report _ finished.readable
            rw [Run.lift_bind_of_ok reported]
            exact .throw (.unprocessed _ items)

/-- Draining a sound queue gathers what can be reported, or ends with a report. -/
theorem Works.settles_drain (works : plan.Works sendable readable) (queue : List Page)
    (gathered : List Value) (sound : plan.Sound sendable readable ⟨queue, gathered⟩) :
    Run.Settles (fun collected => ∀ native ∈ collected, readable native) (Reports plan.operation)
      (plan.drain queue gathered) := by
  induction queue, gathered using plan.turn_induct with
  | empty gathered =>
      rw [drain_nil]
      exact .of_returns (.pure sound.readable)
  | turns page later gathered ih =>
      rw [drain_cons]
      exact (works.settles_turn sound).bind_of_ok ih

theorem Works.settles_carryOut (works : plan.Works sendable readable) {pageSize : Nat}
    (positive : 0 < pageSize) {entries : List Entry}
    (sent : ∀ entry ∈ entries, sendable entry.native) :
    Run.Settles (fun collected => ∀ native ∈ collected, readable native) (Reports plan.operation)
      (plan.carryOut pageSize entries) := by
  apply works.settles_drain
  constructor
  · rw [List.forall_mem_map]
    intro chunk member entry inside
    apply sent
    rw [← flatten_chunks pageSize entries positive]
    exact List.mem_flatten_of_mem member inside
  · rw [List.forall_mem_map]
    exact fun _ _ => Nat.zero_le _
  · exact fun _ member => by cases member

end Plan

/-- The hooks of a batch return, whatever the world is. -/
structure Control.Returns (control : Control ω) : Prop where
  pause : ∀ pause, control.pause = some pause → ∀ seconds world,
    ∃ after, (pause seconds).outcome world = (.ok (), after)
  poll : ∀ poll, control.cancelled = some poll → ∀ world,
    ∃ answer after, poll.outcome world = (.ok answer, after)

namespace Operation

/-- The store refuses no page of comparable entries: it answers with a reply that hands such entries
back, and the items that it returns can be read. -/
structure AnsweredBy (operation : Operation) (store : Store ω) (table : String)
    (names : List String) : Prop where
  serves : store.serves operation.method = true
  answers : ∀ page request, operation.request table page = .ok request →
    (∀ native ∈ page, operation.IsEntry native) → ∀ world, ∃ response reply after,
      (store.answer operation.method request).outcome world = (.ok response, after) ∧
        operation.reply table response = .ok reply ∧
          reply.Usable operation.IsEntry (Readable names)

variable {operation : Operation} {store : Store ω} {table : String} {items : Value}
  {control : Control ω} {natives : List NativeItem}

/-- Asking whether the batch is cancelled gives an answer. -/
theorem returns_isCancelled (returns : control.Returns) (retries : Nat) :
    Run.Returns (fun _ => True)
      (operation.plan store table items retries control).isCancelled := by
  unfold Plan.isCancelled
  rw [cancelled_plan]
  cases hook : control.cancelled with
  | none => exact .pure trivial
  | some poll =>
      intro world
      obtain ⟨answer, after, asked⟩ := returns.poll poll hook world
      exact ⟨answer, after, asked, trivial⟩

/-- The wait before a retry ends, unless it would be too long to be told. -/
theorem returns_wait (returns : control.Returns) {attempt : Nat}
    (waits : control.pause = none ∨ attempt ≤ 1024) (retries : Nat) :
    Run.Returns (fun _ => True)
      ((operation.plan store table items retries control).wait attempt) := by
  unfold Plan.wait
  rw [pause_plan]
  cases hook : control.pause with
  | none => exact .pure trivial
  | some pause =>
      rw [hook] at waits
      have small : attempt ≤ 1024 := by
        rcases waits with absent | small
        · cases absent
        · exact small
      by_cases first : attempt = 0
      · simp only [first, ↓reduceIte]
        exact .pure trivial
      · simp only [first, ↓reduceIte]
        obtain ⟨seconds, computed⟩ := exists_backoff first small
        rw [Run.lift_bind_of_ok computed]
        intro world
        obtain ⟨after, paused⟩ := returns.pause pause hook (.float seconds) world
        exact ⟨(), after, paused, trivial⟩

/-- A page of comparable entries is answered. -/
theorem returns_submit {names : List String} (answered : operation.AnsweredBy store table names)
    {page : List Value} (sent : ∀ native ∈ page, operation.IsEntry native) (retries : Nat) :
    Run.Returns (Reply.Usable operation.IsEntry (Readable names))
      ((operation.plan store table items retries control).submit page) := by
  obtain ⟨request, requested⟩ := operation.exists_request table page
  rw [submit_plan, Run.lift_bind_of_ok requested]
  intro world
  obtain ⟨response, reply, after, called, replied, usable⟩ :=
    answered.answers page request requested sent world
  have served : (store.send operation.method request).outcome world = (.ok response, after) := by
    rw [Store.outcome_send, if_pos answered.serves]
    exact called
  refine ⟨reply, after, ?_, usable⟩
  simp only [Run.outcome_bind, served, Run.outcome_lift, replied]

/-- No step of an operation on comparable items fails. -/
theorem works_plan {retries : Nat} (checked : operation.check items = .ok ())
    (typed : nativesOf items = natives) (comparable : ∀ item ∈ natives, item.Comparable)
    (waits : control.pause = none ∨ retries ≤ 1024) (returns : control.Returns)
    (answered : operation.AnsweredBy store table (keyNames natives)) :
    (operation.plan store table items retries control).Works operation.IsEntry
      (Readable (keyNames natives)) where
  isCancelled := returns_isCancelled returns retries
  wait attempt tried := by
    rw [retries_plan] at tried
    exact returns_wait returns (waits.imp_right tried.trans) retries
  submit page sent := returns_submit answered sent retries
  remainder entries unprocessed natives sent listed returned := by
    rw [restore_plan]
    exact exists_remainder sent listed returned
  report gathered readable := by
    rw [report_plan]
    exact exists_report_of_readable checked typed comparable readable

/-- **A batch ends in a documented way.** Let the items of a batch translate, their number texts be
in range and each of their binary sets hold only texts or only byte strings, and let no more than a
thousand and twenty-four retries be waited for. Then, whatever a store answers that refuses no page
and hands back entries, and whatever the hooks do, the operation returns or is given up with a
report. -/
theorem perform_settles (operation : Operation) (store : Store ω) (table : String) (items : Value)
    (control : Control ω) (natives : List NativeItem) (retries : Nat)
    (translates : (items.elements >>= fun maps => maps.mapM Item.encode) = .ok natives)
    (checked : operation.check items = .ok ())
    (comparable : ∀ item ∈ natives, ∀ field ∈ item, field.2.Comparable)
    (limited : control.maxRetries = .int retries)
    (waits : control.pause = none ∨ retries ≤ 1024) (returns : control.Returns)
    (answered : operation.AnsweredBy store table (keyNames natives)) :
    Run.Settles (fun _ => True) (Reports operation.name)
      (operation.perform store table items control) := by
  have whole : ∀ item ∈ natives, item.Comparable := by
    intro item member
    exact ⟨(wellFormed_of_translates translates item member).typed, comparable item member⟩
  have typed := nativesOf_of_encode translates
  obtain ⟨entries, made, same⟩ := operation.entriesOf_of_encode translates
  have sent : ∀ entry ∈ entries, operation.IsEntry entry.native := by
    rw [← List.forall_mem_map, same, List.forall_mem_map]
    exact fun item member => ⟨item, whole item member, rfl⟩
  rw [perform_eq _ _ _ _ _ entries made, Run.lift_bind_of_ok checked]
  have limit : Run.Returns (fun _ => True) store.limit := fun world => ⟨_, world, rfl, trivial⟩
  apply Run.Settles.after_returns limit
  intro answers _
  have allowed : retriesOf answers control.maxRetries = .ok retries := by
    rw [limited]
    exact retriesOf_nat answers retries
  rw [Run.lift_bind_of_ok allowed]
  have works := works_plan checked typed whole waits returns answered
  have settles := works.settles_carryOut operation.pageSize_pos sent
  rw [operation_plan] at settles
  apply settles.bind_of_ok
  intro _ gathered _ _ readable
  obtain ⟨reported, done⟩ := exists_report_of_readable checked typed whole readable
  rw [done]
  exact .of_returns (.pure trivial)

/-- A store with a schedule refuses no page. -/
theorem answeredBy_scheduledStore (operation : Operation) (table : String) (names : List String) :
    operation.AnsweredBy (operation.scheduledStore table) table names where
  serves := rfl
  answers page request requested sent schedule := by
    let left := (page.take (schedule.headD 0)).reverse
    refine ⟨operation.handingBack table left, ⟨[], .list left⟩, schedule.tail, ?_,
      operation.reply_handingBack table left, ?_⟩
    · simp only [scheduledStore, Run.outcome_ofOutcome, pageOf_request requested, left]
    · refine ⟨fun _ => ⟨left, rfl, fun native member => ?_⟩, fun _ member => by cases member⟩
      exact sent native (List.mem_of_mem_take (List.mem_reverse.mp member))

/-- A store that reads a table of readable items refuses no page of keys. -/
theorem answeredBy_tableStore (held : KeyedTable) (table : String) (consistent : Bool)
    (order : Value) {names : List String}
    (readable : ∀ value native, held.find value = some native → Readable names native) :
    (read consistent order).AnsweredBy (held.scheduledStore table) table names where
  serves := rfl
  answers page request requested sent schedule := by
    let items := (page.drop (schedule.headD 0)).filterMap fun key => (mark key).bind held.find
    let left := (page.take (schedule.headD 0)).reverse
    have carried : (read consistent order).pageOf table request = .ok page :=
      pageOf_request requested
    have alike : (read false .null).pageOf table request = .ok page := carried
    refine ⟨readAnswer table items.reverse left, ⟨items.reverse, .list left⟩, schedule.tail, ?_,
      readReply_readAnswer table items.reverse left, ?_, ?_⟩
    · simp only [KeyedTable.scheduledStore, Run.outcome_ofOutcome, alike, items, left]
    · refine fun _ => ⟨left, rfl, fun native member => ?_⟩
      exact sent native (List.mem_of_mem_take (List.mem_reverse.mp member))
    · intro native member
      obtain ⟨key, _, found⟩ := List.mem_filterMap.mp (List.mem_reverse.mp member)
      obtain ⟨value, _, found⟩ := Option.bind_eq_some_iff.mp found
      exact readable value native found

theorem readable_textItem (names : List String) (s : String) :
    Readable names (textItem s) := by
  have comparable : NativeItem.Comparable
      [("id", .scalar .text (.text s)), ("payload", .scalar .text (.text ("v" ++ s)))] := by
    constructor
    · simp only [List.forall_mem_cons, List.not_mem_nil, false_imp_iff, implies_true, and_true]
      exact ⟨⟨s, rfl⟩, ⟨"v" ++ s, rfl⟩⟩
    · simp only [List.forall_mem_cons, List.not_mem_nil, false_imp_iff, implies_true, and_true]
      exact ⟨trivial, trivial⟩
  exact readable_toValue names comparable

theorem readable_of_find_textTable (names : List String) :
    ∀ value native, textTable.find value = some native → Readable names native := by
  intro value native found
  unfold textTable at found
  simp only at found
  split at found
  · split at found
    · cases found
    · cases found
      exact readable_textItem names _
  · cases found

/-- A number text and a set of byte strings. -/
def numberAndBytes : Value :=
  .list [.map [(.text "n::N", .text "1.0")],
    .map [(.text "x::BS", .list [.bytes .plain [98], .bytes .plain [97]])]]

def typedNumberAndBytes : List NativeItem :=
  [[("n", .scalar .number (.text "1.0"))],
    [("x", .set .binary [.bytes .plain [98], .bytes .plain [97]])]]

theorem comparable_numberAndBytes :
    ∀ item ∈ typedNumberAndBytes, ∀ field ∈ item, field.2.Comparable := by
  have inRange : Value.InRange (.text "1.0") := by
    intro s d same read
    cases same
    have spelled : Decimal.read? "1.0" = some (.finite false 10 (-1)) := by decide +kernel
    rw [spelled] at read
    cases read
    decide +kernel
  have number : Attribute.Comparable (.scalar .number (.text "1.0")) := inRange
  have bytes : Attribute.Comparable (.set .binary [.bytes .plain [98], .bytes .plain [97]]) := by
    refine Or.inr fun element member => ?_
    simp only [List.mem_cons, List.not_mem_nil, or_false] at member
    rcases member with rfl | rfl
    · exact ⟨[98], rfl⟩
    · exact ⟨[97], rfl⟩
  simp only [typedNumberAndBytes, List.forall_mem_cons, List.not_mem_nil, false_imp_iff,
    implies_true, and_true]
  exact ⟨number, bytes⟩

/-- With numbers in range and sets of byte strings alone, a write with a thousand and twenty-four
retries settles, and so does a read of texts. -/
theorem perform_settles_comparable :
    (write .put).check numberAndBytes = .ok () ∧
      Run.Settles (fun _ => True) (Reports "batch_put")
        ((write .put).perform ((write .put).scheduledStore "t") "t" numberAndBytes
          ⟨.int 1024, some fun _ => pure (), none⟩) ∧
      Run.Settles (fun _ => True) (Reports "batch_get")
        ((read false .null).perform (textTable.scheduledStore "t") "t" twoKeys
          ⟨.int 2000, none, some (pure false)⟩) := by
  refine ⟨rfl, ?_, ?_⟩
  · apply perform_settles (write .put) _ "t" numberAndBytes _ typedNumberAndBytes 1024 rfl rfl
      comparable_numberAndBytes rfl (Or.inr (Nat.le_refl _))
    · constructor
      · rintro pause ⟨⟩ seconds world
        exact ⟨world, rfl⟩
      · rintro poll ⟨⟩
    · exact answeredBy_scheduledStore _ _ _
  · apply perform_settles (read false .null) _ "t" twoKeys _ [textKey "", textKey "a"] 2000 rfl rfl
    · simp only [textKey, List.forall_mem_cons, List.not_mem_nil, false_imp_iff, implies_true,
        and_true]
      exact ⟨trivial, trivial⟩
    · rfl
    · exact Or.inl rfl
    · constructor
      · rintro pause ⟨⟩
      · rintro poll ⟨⟩ world
        exact ⟨false, world, rfl⟩
    · exact answeredBy_tableStore _ _ _ _ (readable_of_find_textTable _)

/-- A plain item and another one. -/
def afterPlain (item : Value) : Value := .list [.map [(.text "a", .text "1")], item]

/-- Writes an item after a plain one, without retries, to a store that hands the plain one back. -/
def writeAfterPlain (item : Value) : Except Fault (List Value) × List Nat :=
  ((write .put).perform ((write .put).scheduledStore "t") "t" (afterPlain item)
    ⟨.int 0, none, none⟩).outcome [1]

/-- An item translates, but the batch with it fails, in a given way, without a report. -/
def FailsAfterPlain (item : Value) (category : Fault.Category) : Prop :=
  ∃ entries fault after, (write .put).entriesOf (afterPlain item) = .ok entries ∧
    writeAfterPlain item = (.error fault, after) ∧ fault.category = category ∧
      ¬ Reports "batch_put" fault

def failsIn (category : Fault.Category) : Except Fault (List Value) → Bool
  | .error fault => fault.category == category
  | .ok _ => false

theorem failsAfterPlain_of_failsIn {item : Value} {category : Fault.Category}
    (translates : ((write .put).entriesOf (afterPlain item)).isOk = true)
    (fails : failsIn category (writeAfterPlain item).1 = true)
    (notReported : category ≠ .partialBatch ∧ category ≠ .batchCancelled) :
    FailsAfterPlain item category := by
  obtain ⟨entries, translates⟩ := exists_of_isOk translates
  rcases result : writeAfterPlain item with ⟨fault | gathered, after⟩
  · rw [result] at fails
    have same : fault.category = category := beq_iff_eq.mp fails
    refine ⟨entries, fault, after, translates, result, same, ?_⟩
    rintro (_ | _)
    · exact notReported.1 same.symm
    · exact notReported.2 same.symm
  · rw [result] at fails
    cases fails

/-- A binary set of a text and a byte string has no order, a number text may be too great for its
normal form, and the wait before the thousand and twenty-fifth retry is no double. So a batch may
end without a report although the store accepted a part of it. -/
theorem perform_without_report :
    FailsAfterPlain (.map [(.text "x::BS", .list [.text "a", .bytes .plain [98]])]) .wrongShape ∧
      FailsAfterPlain (.map [(.text "n::N", .text "1E1000000")]) .numberTooGreat ∧
        backoff 1025 = .error .outOfRange := by
  refine ⟨?_, ?_, rfl⟩
  · exact failsAfterPlain_of_failsIn rfl (by decide +kernel) ⟨nofun, nofun⟩
  · exact failsAfterPlain_of_failsIn rfl (by decide +kernel) ⟨nofun, nofun⟩

end Operation

end Batch

end TokenTable
