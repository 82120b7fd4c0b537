import TokenTable.Proofs.Batch.Budget

/-! # Batches that use up their retries

A store that leaves something of every page unprocessed never lets a batch get past its first page.
The page comes back with what is left of it, which is never nothing, so every turn is a retry: the
batch pauses once, for the wait that belongs to the number of the retry, and calls the store once
(`tells_turn_left`). This goes on for as many retries as there may be and can be waited for
(`tells_drain_left`). Main statement: `retries_paused`.
-/

namespace TokenTable

variable {ω : Type}

namespace Batch

open Run

/-- A control that lets a batch work: its pause returns, and it never cancels. -/
structure Control.Sleeps (control : Control ω) : Prop where
  pause : ∃ pause, control.pause = some pause ∧
    ∀ seconds world, ∃ after, (pause seconds).outcome world = (.ok (), after)
  goesOn : ∀ poll, control.cancelled = some poll → ∀ world,
    ∃ after, poll.outcome world = (.ok false, after)

/-- The pause before a page is sent. A page that is sent for the first time is not waited for. -/
def pauseBefore (attempt : Nat) : List (Event Exchange) :=
  if attempt = 0 then [] else [.paused (.float (waitBefore attempt))]

theorem acts_pauseBefore (attempt : Nat) :
    Event.acts (pauseBefore attempt) = pauseBefore attempt := by
  unfold pauseBefore
  split <;> rfl

/-- Retries with the given calls, the first of which has the given number: each is one pause and one
call. -/
def retriesFrom (attempt : Nat) : List Exchange → List (Event Exchange)
  | [] => []
  | exchange :: later =>
    .paused (.float (waitBefore attempt)) :: .called exchange :: retriesFrom (attempt + 1) later

namespace Operation

/-- The store refuses no page of comparable entries, and it leaves something of every page
unprocessed. -/
structure LeavesSome (operation : Operation) (store : Store ω) (table : String)
    (names : List String) : Prop extends operation.AnsweredBy store table names where
  leaves : ∀ page request, operation.request table page = .ok request → page ≠ [] →
    (∀ native ∈ page, operation.IsEntry native) → ∀ world response reply after,
      (store.answer operation.method request).outcome world = (.ok response, after) →
        operation.reply table response = .ok reply → reply.unprocessed.isGiven = true

/-- A batch that cannot get past its first page: its items translate and are comparable, its control
lets it work, and its store leaves something of every page. -/
structure Stalled (operation : Operation) (store : Store ω) (table : String) (items : Value)
    (control : Control ω) (natives : List NativeItem) : Prop where
  translates : (items.elements >>= fun maps => maps.mapM Item.encode) = .ok natives
  checked : operation.check items = .ok ()
  comparable : ∀ item ∈ natives, ∀ field ∈ item, field.2.Comparable
  sleeps : control.Sleeps
  leaves : operation.LeavesSome store table (keyNames natives)

/-- A page's entries: there are some, and each was made of a comparable item. -/
structure Filled (operation : Operation) (entries : List Entry) : Prop where
  some : entries ≠ []
  each : ∀ entry ∈ entries, operation.IsEntry entry.native

/-- How a batch ends that used up its retries: it is given up with what is left of a page, unless
the wait before the next retry cannot be told. -/
inductive Exhausted (operation : Operation) (retries : Nat) : Except Fault (List Value) → Prop
  | givenUp (few : retries ≤ 1024) (left reported : List Value) (some : left ≠ []) :
      Exhausted operation retries (.error (.partialBatch operation.name left reported))
  | untold (many : 1024 < retries) : Exhausted operation retries (.error .outOfRange)

variable {operation : Operation} {store : Store ω} {table : String} {items : Value}
  {control : Control ω} {retries : Nat} {natives : List NativeItem}

/-- What passes the check of an operation is not empty. -/
theorem isGiven_of_check (checked : operation.check items = .ok ()) : items.isGiven = true := by
  by_contra none
  cases operation <;> simp [check, none] at checked

theorem Exhausted.bind {result : Except Fault (List Value)}
    (ends : operation.Exhausted retries result)
    (next : List Value → Except Fault (List Value)) : result >>= next = result := by
  cases ends <;> rfl

theorem tells_goesOn (sleeps : control.Sleeps) (world : ω) :
    ∃ after told, ((operation.notedPlan store table items control retries).isCancelled).Tells world
      (.ok false) after told ∧ Event.acts told = [] := by
  unfold Plan.isCancelled
  rw [cancelled_plan, Control.journaled]
  cases hook : control.cancelled with
  | none => exact ⟨world, [], Tells.lift (.ok false) world, rfl⟩
  | some poll =>
      obtain ⟨after, asked⟩ := sleeps.goesOn poll hook world
      have noted := Tells.noting (κ := Exchange) (fun _ => .polled) poll world
      rw [asked] at noted
      exact ⟨after, [.polled], noted, rfl⟩

/-- A wait that can be told is one pause. -/
theorem tells_wait_of_few (sleeps : control.Sleeps) {attempt : Nat} (few : attempt ≤ 1024)
    (world : ω) :
    ∃ after, ((operation.notedPlan store table items control retries).wait attempt).Tells world
      (.ok ()) after (pauseBefore attempt) := by
  obtain ⟨pause, hook, returns⟩ := sleeps.pause
  unfold Plan.wait pauseBefore
  rw [pause_plan, Control.journaled, hook]
  simp only [Option.map_some]
  by_cases first : attempt = 0
  · simp only [first, ↓reduceIte]
    exact ⟨world, Tells.lift (.ok ()) world⟩
  · simp only [first, ↓reduceIte]
    obtain ⟨after, paused⟩ := returns (.float (waitBefore attempt)) world
    have noted := Tells.noting (κ := Exchange) (fun _ => .paused (.float (waitBefore attempt)))
      (pause (.float (waitBefore attempt))) world
    rw [paused] at noted
    rw [Run.lift_bind_of_ok (backoff_eq (by omega) (by omega))]
    exact ⟨after, noted⟩

/-- A wait that cannot be told fails without a pause. -/
theorem tells_wait_of_many (sleeps : control.Sleeps) {attempt : Nat} (many : 1024 < attempt)
    (world : ω) :
    ((operation.notedPlan store table items control retries).wait attempt).Tells world
      (.error .outOfRange) world [] := by
  obtain ⟨pause, hook, _⟩ := sleeps.pause
  have retried : attempt ≠ 0 := by omega
  unfold Plan.wait
  rw [pause_plan, Control.journaled, hook, backoff_of_many (by omega)]
  simp only [Option.map_some, retried, ↓reduceIte]
  exact (Tells.lift _ world).bind_error _

/-- A page that is not empty is answered with a reply that leaves some of it. -/
theorem tells_submit_left {names : List String} (leaves : operation.LeavesSome store table names)
    {page : List Value} (some : page ≠ []) (sent : ∀ native ∈ page, operation.IsEntry native)
    (world : ω) :
    ∃ exchange reply after,
      ((operation.notedPlan store table items control retries).submit page).Tells world
          (.ok reply) after [.called exchange] ∧
        reply.Usable operation.IsEntry (Readable names) ∧ reply.unprocessed.isGiven = true := by
  obtain ⟨request, requested⟩ := operation.exists_request table page
  obtain ⟨response, reply, after, answered, replied, usable⟩ :=
    leaves.answers page request requested sent world
  have tells := operation.tells_submit_request table items retries store control leaves.serves
    requested answered
  have read : (Except.ok response >>= operation.reply table) = .ok reply := replied
  rw [read] at tells
  exact ⟨_, reply, after, tells, usable,
    leaves.leaves page request requested some sent world response reply after answered replied⟩

namespace Stalled

theorem whole (stalled : operation.Stalled store table items control natives) :
    ∀ item ∈ natives, item.Comparable := fun item member =>
  ⟨(wellFormed_of_translates stalled.translates item member).typed,
    stalled.comparable item member⟩

/-- A reply that leaves some of a page brings the page back, or the batch is given up with what is
left. -/
theorem settle_left (stalled : operation.Stalled store table items control natives) (retries : Nat)
    {page : Page} (filled : operation.Filled page.entries) (later : List Page)
    {gathered : List Value}
    (readable : ∀ native ∈ gathered, Readable (keyNames natives) native) {reply : Reply}
    (usable : reply.Usable operation.IsEntry (Readable (keyNames natives)))
    (given : reply.unprocessed.isGiven = true) :
    ∃ left collected reported, operation.Filled left ∧
      (∀ native ∈ collected, Readable (keyNames natives) native) ∧
      (operation.notedPlan store table items control retries).settle page later gathered reply =
        if page.attempt < retries then .ok ⟨⟨left, page.attempt + 1⟩ :: later, collected⟩
        else .error (.partialBatch operation.name (left.map Entry.source) reported) := by
  obtain ⟨returned, listed, fine⟩ := usable.listed given
  obtain ⟨left, matched, again⟩ := exists_remainder filled.each listed fine
  have collected := List.forall_mem_append.mpr ⟨readable, usable.gathered⟩
  obtain ⟨reported, done⟩ := exists_report_of_readable stalled.checked
    (nativesOf_of_encode stalled.translates) stalled.whole collected
  refine ⟨left, gathered ++ reply.gathered, reported, ⟨ne_nil_of_remainder given matched, again⟩,
    collected, ?_⟩
  rw [Plan.settle, if_pos given, restore_plan, matched, report_plan, retries_plan, operation_plan]
  by_cases allowed : page.attempt < retries
  · simp only [allowed, ↓reduceIte]
    rfl
  · simp only [allowed, ↓reduceIte, done]
    rfl

/-- A turn that can be waited for is a pause and a call, and then its page comes back, or the batch
is given up. -/
theorem tells_turn_left (stalled : operation.Stalled store table items control natives)
    (retries : Nat) {page : Page} (filled : operation.Filled page.entries)
    (few : page.attempt ≤ 1024) (later : List Page) {gathered : List Value}
    (readable : ∀ native ∈ gathered, Readable (keyNames natives) native) (world : ω) :
    ∃ exchange left collected reported after told, operation.Filled left ∧
      (∀ native ∈ collected, Readable (keyNames natives) native) ∧
      ((operation.notedPlan store table items control retries).turn page later gathered).Tells world
        (if page.attempt < retries then .ok ⟨⟨left, page.attempt + 1⟩ :: later, collected⟩
          else .error (.partialBatch operation.name (left.map Entry.source) reported))
        after told ∧
      Event.acts told = pauseBefore page.attempt ++ [.called exchange] := by
  obtain ⟨asked, early, goesOn, silent⟩ := tells_goesOn stalled.sleeps world
  obtain ⟨paused, waits⟩ := tells_wait_of_few stalled.sleeps few asked
  obtain ⟨exchange, reply, after, submits, usable, given⟩ := tells_submit_left stalled.leaves
    (mt List.map_eq_nil_iff.mp filled.some) (List.forall_mem_map.mpr filled.each) paused
  obtain ⟨left, collected, reported, again, fine, settled⟩ :=
    stalled.settle_left retries filled later readable usable given
  have settles := submits.bind_lift
    ((operation.notedPlan store table items control retries).settle page later gathered)
  refine ⟨exchange, left, collected, reported, after, early ++ (pauseBefore page.attempt ++
    [.called exchange]), again, fine, ?_, ?_⟩
  · rw [Plan.turn_eq, ← settled]
    exact goesOn.bind (waits.bind settles)
  · rw [Event.acts_append, silent, Event.acts_append, acts_pauseBefore]
    rfl

/-- A page that was tried too often to be waited for ends the batch. -/
theorem tells_drain_of_many (stalled : operation.Stalled store table items control natives)
    (retries : Nat) (page : Page) (many : 1024 < page.attempt) (later : List Page)
    (gathered : List Value) (world : ω) :
    ∃ after told,
      ((operation.notedPlan store table items control retries).drain (page :: later)
        gathered).Tells world (.error .outOfRange) after told ∧ Event.acts told = [] := by
  obtain ⟨asked, early, goesOn, silent⟩ := tells_goesOn stalled.sleeps world
  have waits : ((operation.notedPlan store table items control retries).wait page.attempt).Tells
      asked (.error .outOfRange) asked [] := tells_wait_of_many stalled.sleeps many asked
  refine ⟨asked, early ++ [], ?_, by rw [List.append_nil, silent]⟩
  rw [Plan.drain_cons, Plan.turn_eq]
  exact (goesOn.bind (waits.bind_error _)).bind_error _

/-- Draining a queue whose first page may still be tried some times makes so many retries of it. The
induction is on their number. -/
theorem tells_drain_left (stalled : operation.Stalled store table items control natives)
    (more : Nat) (page : Page) (later : List Page) (gathered : List Value)
    (filled : operation.Filled page.entries)
    (readable : ∀ native ∈ gathered, Readable (keyNames natives) native)
    (budget : page.attempt + more = min retries 1024) (world : ω) :
    ∃ result after told first others,
      ((operation.notedPlan store table items control retries).drain (page :: later)
        gathered).Tells world result after told ∧
      operation.Exhausted retries result ∧ others.length = more ∧
      Event.acts told =
        pauseBefore page.attempt ++ .called first :: retriesFrom (page.attempt + 1) others := by
  induction more generalizing page gathered world with
  | zero =>
      obtain ⟨first, left, collected, reported, middle, early, again, fine, turned, acts⟩ :=
        stalled.tells_turn_left retries filled (by omega) later readable world
      rw [Plan.drain_cons]
      by_cases allowed : page.attempt < retries
      · -- The page comes back once more, but the wait before it cannot be told.
        rw [if_pos allowed] at turned
        obtain ⟨after, late, failed, silent⟩ := stalled.tells_drain_of_many retries
          ⟨left, page.attempt + 1⟩ (by simp only; omega) later collected middle
        refine ⟨_, after, early ++ late, first, [], turned.bind failed, .untold (by omega), rfl, ?_⟩
        rw [Event.acts_append, acts, silent, List.append_nil]
        rfl
      · rw [if_neg allowed] at turned
        refine ⟨_, middle, early, first, [], turned.bind_error _, ?_, rfl, acts⟩
        exact .givenUp (by omega) _ reported (mt List.map_eq_nil_iff.mp again.some)
  | succ more ih =>
      obtain ⟨first, left, collected, reported, middle, early, again, fine, turned, acts⟩ :=
        stalled.tells_turn_left retries filled (by omega) later readable world
      rw [if_pos (by omega)] at turned
      obtain ⟨result, after, late, second, others, drained, ends, count, rest⟩ :=
        ih ⟨left, page.attempt + 1⟩ collected again fine (by simp only; omega) middle
      refine ⟨result, after, early ++ late, first, second :: others, ?_, ends, ?_, ?_⟩
      · rw [Plan.drain_cons]
        exact turned.bind drained
      · rw [List.length_cons, count]
      · rw [Event.acts_append, acts, rest, List.append_assoc]
        rfl

/-- The queue of a batch starts with a page that was not tried. -/
theorem exists_start (stalled : operation.Stalled store table items control natives)
    {entries : List Entry} (same : entries.map Entry.native = natives.map operation.wire) :
    ∃ chunk later, (operation.start entries).queue = ⟨chunk, 0⟩ :: later ∧
      operation.Filled chunk := by
  have each : ∀ entry ∈ entries, operation.IsEntry entry.native := by
    rw [← List.forall_mem_map, same, List.forall_mem_map]
    exact fun item member => ⟨item, stalled.whole item member, rfl⟩
  have some : entries ≠ [] := by
    rintro rfl
    have none : natives = [] := List.map_eq_nil_iff.mp same.symm
    obtain ⟨maps, listed, several⟩ := (bind_eq_ok_iff _ _ _).mp stalled.translates
    apply ne_nil_of_isGiven items maps (isGiven_of_check stalled.checked) listed
    rw [none] at several
    exact List.forall₂_nil_right_iff.mp (forall₂_of_mapM several)
  have joined := flatten_chunks operation.pageSize entries operation.pageSize_pos
  cases slices : chunks operation.pageSize entries with
  | nil =>
      rw [slices] at joined
      exact absurd joined.symm some
  | cons chunk rest =>
      have member : chunk ∈ chunks operation.pageSize entries := by
        rw [slices]
        exact List.mem_cons_self
      refine ⟨chunk, Plan.untried rest, ?_, ne_nil_of_mem_chunks _ _ _ member, ?_⟩
      · rw [start, slices]
        rfl
      · intro entry inside
        apply each
        rw [← joined]
        exact List.mem_flatten_of_mem member inside

/-- A stalled batch makes one call for its first page and then as many retries as it may and can
wait for. -/
theorem exhausts (stalled : operation.Stalled store table items control natives)
    (limited : control.maxRetries = .int retries) (world : ω) :
    ∃ first later, later.length = min retries 1024 ∧
      Event.acts (operation.runOf store table items control world).2.2 =
        .called first :: retriesFrom 1 later ∧
      operation.Exhausted retries (operation.runOf store table items control world).1 := by
  obtain ⟨entries, made, same⟩ := operation.entriesOf_of_encode stalled.translates
  obtain ⟨chunk, later, started, filled⟩ := stalled.exists_start same
  obtain ⟨result, after, told, first, others, drained, ends, count, acts⟩ :=
    stalled.tells_drain_left (min retries 1024) ⟨chunk, 0⟩ later [] filled nofun
      (Nat.zero_add _) world
  rw [← started] at drained
  have allowed : retriesOf (store.patience world + 1) control.maxRetries = .ok retries := by
    rw [limited]
    exact retriesOf_nat _ retries
  have runs := tells_perform store table control made stalled.checked world allowed drained []
  rw [ends.bind] at runs
  rw [runOf, runs]
  exact ⟨first, others, count, acts, ends⟩

end Stalled

/-- A store that hands back every page as it is. -/
def returningStore (operation : Operation) (table : String) : Store Unit where
  serves _ := true
  answer _ request := .ofOutcome fun world =>
    match operation.pageOf table request with
    | .ok page => (.ok (operation.handingBack table page), world)
    | .error _ => (.error .wrongShape, world)
  patience _ := 0

theorem answer_returningStore {page : List Value} {request : Request}
    (requested : operation.request table page = .ok request) (world : Unit) :
    ((operation.returningStore table).answer operation.method request).outcome world =
      (.ok (operation.handingBack table page), world) := by
  simp only [returningStore, outcome_ofOutcome, pageOf_request requested]

theorem leavesSome_returningStore (operation : Operation) (table : String) (names : List String) :
    operation.LeavesSome (operation.returningStore table) table names where
  serves := rfl
  answers page request requested sent world := by
    refine ⟨_, _, _, answer_returningStore requested world, operation.reply_handingBack table page,
      fun _ => ⟨page, rfl, sent⟩, nofun⟩
  leaves page request requested some _ world response reply after answered replied := by
    rw [answer_returningStore requested world] at answered
    cases answered
    rw [reply_handingBack] at replied
    cases replied
    simpa [Value.isGiven] using some

theorem stalled_numberAndBytes (retries : Nat) :
    (write .put).Stalled ((write .put).returningStore "t") "t" numberAndBytes
      ⟨.int retries, some fun _ => pure (), none⟩ typedNumberAndBytes where
  translates := rfl
  checked := rfl
  comparable := comparable_numberAndBytes
  sleeps := ⟨⟨_, rfl, fun _ world => ⟨world, rfl⟩⟩, nofun⟩
  leaves := leavesSome_returningStore _ _ _

/-- **A batch whose store leaves something of every page retries until it may not.** The wait before
a retry is a twentieth of a second, doubled with every retry up to one second: it is positive, never
more than a second, never shorter than the one before, and one second from the sixth retry on. It
can be told for the first thousand and twenty-four retries. So the batch pauses once for this wait
before each of its retries, as many as are allowed and can be waited for. Then it is given up with
what is left, unless a wait could not be told: the batch fails in its place. -/
theorem retries_paused (attempt : Int) (retried : 1 ≤ attempt) (operation : Operation)
    (store : Store ω) (table : String) (items : Value) (control : Control ω)
    (natives : List NativeItem) (retries : Nat) :
    (backoff attempt =
        if attempt ≤ 1024 then .ok (waitBefore attempt) else .error .outOfRange) ∧
      Binary64.zero.below (waitBefore attempt) = true ∧
      Binary64.one.below (waitBefore attempt) = false ∧
      (6 ≤ attempt → waitBefore attempt = .one) ∧
      (∀ later, attempt ≤ later → (waitBefore later).below (waitBefore attempt) = false) ∧
      (operation.Stalled store table items control natives → control.maxRetries = .int retries →
        ∀ world, ∃ first later, later.length = min retries 1024 ∧
          Event.acts (operation.runOf store table items control world).2.2 =
            .called first :: retriesFrom 1 later ∧
          operation.Exhausted retries (operation.runOf store table items control world).1) := by
  obtain ⟨positive, bounded⟩ := waitBefore_bounds attempt
  refine ⟨?_, positive, bounded, waitBefore_of_more, fun later => waitBefore_mono,
    fun stalled limited world => stalled.exhausts limited world⟩
  by_cases small : attempt ≤ 1024
  · rw [if_pos small, backoff_eq retried small]
  · rw [if_neg small, backoff_of_many (by omega)]

/-- The first wait is positive. A write with a thousand and twenty-four retries makes them all and
is given up; one with two thousand makes no more of them and fails. -/
theorem retries_paused_numberAndBytes :
    let runWith (retries : Nat) := (write .put).runOf ((write .put).returningStore "t") "t"
      numberAndBytes ⟨.int retries, some fun _ => pure (), none⟩ ()
    Binary64.zero.below (waitBefore 1) = true ∧
      (∃ first later, later.length = 1024 ∧
        Event.acts (runWith 1024).2.2 = .called first :: retriesFrom 1 later ∧
          (write .put).Exhausted 1024 (runWith 1024).1) ∧
      ∃ first later, later.length = 1024 ∧
        Event.acts (runWith 2000).2.2 = .called first :: retriesFrom 1 later ∧
          (write .put).Exhausted 2000 (runWith 2000).1 := by
  obtain ⟨_, positive, _, _, _, whole⟩ := retries_paused 1 (by decide) (write .put)
    ((write .put).returningStore "t") "t" numberAndBytes _ typedNumberAndBytes 1024
  obtain ⟨_, _, _, _, _, cut⟩ := retries_paused 1 (by decide) (write .put)
    ((write .put).returningStore "t") "t" numberAndBytes _ typedNumberAndBytes 2000
  exact ⟨positive, whole (stalled_numberAndBytes 1024) rfl (),
    cut (stalled_numberAndBytes 2000) rfl ()⟩

/-- The wait before the thousand and twenty-fifth retry cannot be told, although it would be a
second. -/
theorem no_wait_before_late_retry :
    backoff 1025 = .error .outOfRange ∧
      ¬ ∀ attempt : Int, 1 ≤ attempt → ∃ wait, backoff attempt = .ok wait := by
  have failed : backoff 1025 = .error .outOfRange := rfl
  refine ⟨failed, fun always => ?_⟩
  obtain ⟨wait, computed⟩ := always 1025 (by decide)
  rw [failed] at computed
  cases computed

end Operation

end Batch

end TokenTable
