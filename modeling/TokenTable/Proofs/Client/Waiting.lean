import TokenTable.Client.Tables
import TokenTable.Proofs.Client.Sent
import TokenTable.Proofs.Number.Doubles

/-! # Waiting for tables

A client that creates or deletes a table asks for its description until what it hears is decisive or
the time is over. What it asks, when it pauses and how the wait ends is told by its journal, for
answers in any number: a turn that decides nothing is noted and the next one follows
(`outcome_poll_succ`), and so are any number of them (`outcome_poll`), until one is the last
(`exists_undecided`). Main statement: `waiting_ends`.
-/

namespace TokenTable.Client

open Run

variable {ω : Type}

/-- The operations that wait. -/
inductive Waiting where
  | creation (layout : Layout)
  | deletion (table : Value) (ignoreMissing : Bool)

/-- The status that a description tells. It is empty where the table or its status is missing. -/
inductive Tells : Value → String → Prop
  | status {entries table : Value.Entries}
      (held : (Value.lookup? entries (.text "Table")).getD (.map []) = .map table) :
      Tells (.map entries) ((Value.lookup? table (.text "TableStatus")).getD (.text "")).display

theorem exists_of_getD {v default found : Value} {name : String}
    (read : v.getD name default = .ok found) :
    ∃ entries, v = .map entries ∧ (Value.lookup? entries (.text name)).getD default = found := by
  cases v with
  | map entries => exact ⟨entries, rfl, Except.ok.inj read⟩
  | _ => cases read

/-- The status is read where a description tells one. -/
theorem statusOf_eq_ok_iff (description : Value) (status : String) :
    statusOf description = .ok status ↔ Tells description status := by
  constructor
  · intro read
    obtain ⟨_, held, read⟩ := (bind_eq_ok_iff _ _ _).mp read
    obtain ⟨_, told, same⟩ := (bind_eq_ok_iff _ _ _).mp read
    cases same
    obtain ⟨entries, rfl, part⟩ := exists_of_getD held
    obtain ⟨table, rfl, rfl⟩ := exists_of_getD told
    exact .status part
  · rintro ⟨held⟩
    rw [statusOf, Value.getD_map, held]
    rfl

/-- What a handler throws again passes, as does what it is not for. -/
theorem outcome_handling_of_error {α : Type} {action : Run ω α} {handler : Rejection → Run ω α}
    {fault : Fault} {world after : ω} (failed : action.outcome world = (.error fault, after))
    (passes : ∀ rejection, fault = .rejected rejection → handler rejection = throw fault) :
    (handling action handler).outcome world = (.error fault, after) := by
  rw [outcome_handling, failed]
  cases fault with
  | rejected rejection =>
      change (handler rejection).outcome after = _
      rw [passes rejection rfl, outcome_throw]
  | _ => rfl

namespace Waiting

def table : Waiting → Value
  | creation layout => layout.table
  | deletion table _ => table

/-- The operation itself. -/
def run (client : Client ω) : Waiting → Run ω Unit
  | creation layout => client.createTable layout true
  | deletion table ignoreMissing => client.deleteTable table true ignoreMissing

/-- What the store is asked to do before the wait. -/
def method : Waiting → Method
  | creation _ => .createTable
  | deletion .. => .deleteTable

def request : Waiting → Except Fault Request
  | creation layout => layout.request
  | deletion table _ => .ok [("TableName", table)]

/-- The fault when the time is over. -/
def late : Waiting → Fault
  | creation layout => .tableNeverActive layout.table
  | deletion table _ => .tableNeverDeleted table

/-- The answers after which there is something to wait for. -/
inductive Begins : Waiting → Except Fault Value → Prop
  | done {waiting : Waiting} {response : Value} : Begins waiting (.ok response)
  | kept {layout : Layout} {rejection : Rejection}
      (inUse : rejection.code = Rejection.tableInUse) :
      Begins (creation layout) (.error (.rejected rejection))

/-- What an answer to the question for a description means: the goal is met, it is not met yet, or
the wait fails. -/
inductive Finds : Waiting → Except Fault Value → Except Fault Bool → Prop
  | active {layout : Layout} {description : Value} (tells : Tells description "ACTIVE") :
      Finds (creation layout) (.ok description) (.ok true)
  | inactive {layout : Layout} {description : Value} {status : String}
      (tells : Tells description status) (other : status ≠ "ACTIVE") :
      Finds (creation layout) (.ok description) (.ok false)
  | notYet {layout : Layout} {rejection : Rejection} (missing : rejection.isTableMissing = true) :
      Finds (creation layout) (.error (.rejected rejection)) (.ok false)
  | gone {table : Value} {ignoreMissing : Bool} {rejection : Rejection}
      (missing : rejection.isTableMissing = true) :
      Finds (deletion table ignoreMissing) (.error (.rejected rejection)) (.ok true)
  | there {table : Value} {ignoreMissing : Bool} {description : Value} :
      Finds (deletion table ignoreMissing) (.ok description) (.ok false)
  | garbled {layout : Layout} {description : Value} {fault : Fault}
      (unread : statusOf description = .error fault) :
      Finds (creation layout) (.ok description) (.error fault)
  | failed {waiting : Waiting} {fault : Fault}
      (other : ∀ rejection, fault = .rejected rejection → rejection.isTableMissing = false) :
      Finds waiting (.error fault) (.error fault)

/-- The question that a wait repeats. -/
def decisive (client : Client ω) : Waiting → Run ω Bool
  | creation layout => client.isActive layout.table
  | deletion table _ => do return !(← client.tableExists table)

/-- Every answer means something. -/
theorem exists_finds (waiting : Waiting) (answer : Except Fault Value) :
    ∃ found, waiting.Finds answer found := by
  rcases answer with fault | description
  · by_cases missing : ∃ rejection, fault = .rejected rejection ∧ rejection.isTableMissing = true
    · obtain ⟨rejection, rfl, missing⟩ := missing
      cases waiting with
      | creation => exact ⟨_, .notYet missing⟩
      | deletion => exact ⟨_, .gone missing⟩
    · refine ⟨_, .failed fun rejection same => ?_⟩
      exact Bool.eq_false_iff.mpr fun held => missing ⟨rejection, same, held⟩
  · cases waiting with
    | deletion => exact ⟨_, .there⟩
    | creation =>
        cases read : statusOf description with
        | error fault => exact ⟨_, .garbled read⟩
        | ok status =>
            have tells := (statusOf_eq_ok_iff description status).mp read
            by_cases active : status = "ACTIVE"
            · subst active
              exact ⟨_, .active tells⟩
            · exact ⟨_, .inactive tells active⟩

theorem category_late (waiting : Waiting) : waiting.late.category = .validation := by
  cases waiting <;> rfl

/-- The store is asked once, and then the wait begins. -/
theorem outcome_run {client : Client ω} {waiting : Waiting} {request : Request}
    {answer : Except Fault Value} {world start : ω} (asks : waiting.request = .ok request)
    (answered : (client.store.send waiting.method request).outcome world = (answer, start))
    (begins : waiting.Begins answer) :
    (waiting.run client).outcome world =
      (client.await (waiting.decisive client) waiting.late).outcome start := by
  cases waiting with
  | creation layout =>
      have made : layout.request = .ok request := asks
      have sent : (client.store.send .createTable request).outcome world = (answer, start) :=
        answered
      rw [run, createTable]
      cases begins with
      | done =>
          simp only [made, outcome_bind, outcome_lift, outcome_handling, sent, outcome_pure]
          rfl
      | kept inUse =>
          simp only [made, outcome_bind, outcome_lift, outcome_handling, sent, inUse,
            beq_self_eq_true, ↓reduceIte, outcome_pure]
          rfl
  | deletion table ignoreMissing =>
      cases asks
      cases begins
      have sent : (client.store.send .deleteTable [("TableName", table)]).outcome world =
        (.ok _, start) := answered
      rw [run, deleteTable]
      simp only [outcome_bind, outcome_handling, sent, outcome_pure]
      rfl

/-- An answer is found to be what it means. -/
theorem outcome_decisive {client : Client ω} {waiting : Waiting} {answer : Except Fault Value}
    {found : Except Fault Bool} {world after : ω} (finds : waiting.Finds answer found)
    (answered : (client.describe waiting.table).outcome world = (answer, after)) :
    (waiting.decisive client).outcome world = (found, after) := by
  cases finds with
  | active tells =>
      rw [table] at answered
      simp only [decisive, isActive, outcome_bind, outcome_handling, answered, outcome_lift,
        (statusOf_eq_ok_iff _ _).mpr tells, outcome_pure, beq_self_eq_true]
  | inactive tells other =>
      rw [table] at answered
      simp only [decisive, isActive, outcome_bind, outcome_handling, answered, outcome_lift,
        (statusOf_eq_ok_iff _ _).mpr tells, outcome_pure, beq_eq_false_iff_ne.mpr other]
  | notYet missing =>
      rw [table] at answered
      simp only [decisive, isActive, outcome_bind, outcome_handling, answered, outcome_lift,
        missing, ↓reduceIte, outcome_pure]
      rfl
  | gone missing =>
      rw [table] at answered
      simp only [decisive, tableExists, outcome_bind, outcome_handling, answered, missing,
        ↓reduceIte, outcome_pure, Bool.not_false]
  | there =>
      rw [table] at answered
      simp only [decisive, tableExists, outcome_bind, outcome_handling, answered, outcome_pure,
        Bool.not_true]
  | garbled unread =>
      rw [table] at answered
      simp only [decisive, isActive, outcome_bind, outcome_handling, answered, outcome_lift, unread]
  | failed other =>
      cases waiting with
      | creation layout =>
          rw [table] at answered
          rw [decisive, isActive, outcome_bind, outcome_handling_of_error answered]
          rintro rejection rfl
          simp only [other rejection rfl, Bool.false_eq_true, ↓reduceIte]
      | deletion =>
          rw [table] at answered
          rw [decisive, tableExists, outcome_bind, outcome_handling_of_error]
          · rw [outcome_bind, answered]
          · rintro rejection rfl
            simp only [other rejection rfl, Bool.false_eq_true, ↓reduceIte]

end Waiting

open Waiting

/-- The question for a table's description, as it is noted with its answer. -/
def asking (table : Value) (answer : Except Fault Value) : Event Exchange :=
  .called ⟨.describeTable, [("TableName", table)], answer⟩

/-- What a rest is noted as: one pause, if the client can pause. -/
def rested (client : Client ω) : List (Event Exchange) :=
  if client.pause.isSome then [.paused client.pollInterval] else []

/-- What a turn of a wait is noted as, if its answer decides nothing. -/
def turn (client : Client ω) (table : Value) (answer : Except Fault Value) :
    List (Event Exchange) :=
  asking table answer :: client.rested

/-- Answers that decide nothing, one after another, from one world to another: each question is
asked before the deadline, and the client rests after each answer. -/
inductive Undecided (client : Client ω) (waiting : Waiting) (deadline : Binary64) :
    List (Except Fault Value) → ω → ω → Prop
  | nil (world : ω) : Undecided client waiting deadline [] world world
  | cons {answer : Except Fault Value} {later : List (Except Fault Value)}
      {world middle next after : ω}
      (inTime : (client.clock world).below deadline = true)
      (answered : (client.store.answer .describeTable
        [("TableName", waiting.table)]).outcome world = (answer, middle))
      (finds : waiting.Finds answer (.ok false))
      (rests : client.rest.outcome middle = (.ok (), next))
      (goesOn : Undecided client waiting deadline later next after) :
      Undecided client waiting deadline (answer :: later) world after

/-- Where no turn follows: the time is over, the answer is decisive, or the pause fails. -/
inductive Stops (client : Client ω) (waiting : Waiting) (deadline : Binary64) (world : ω) : Prop
  | late (passed : (client.clock world).below deadline = false)
  | decided {answer : Except Fault Value} {found : Except Fault Bool} {after : ω}
      (inTime : (client.clock world).below deadline = true)
      (answered : (client.store.answer .describeTable
        [("TableName", waiting.table)]).outcome world = (answer, after))
      (finds : waiting.Finds answer found) (ends : found ≠ .ok false)
  | unrested {answer : Except Fault Value} {fault : Fault} {middle after : ω}
      (inTime : (client.clock world).below deadline = true)
      (answered : (client.store.answer .describeTable
        [("TableName", waiting.table)]).outcome world = (answer, middle))
      (finds : waiting.Finds answer (.ok false))
      (fails : client.rest.outcome middle = (.error fault, after))

/-- Whatever a store answers, turns that decide nothing follow one another until one of them is the
last. -/
theorem exists_undecided (client : Client ω) (waiting : Waiting) (deadline : Binary64)
    (turns : Nat) (start : ω) :
    ∃ answers reached, client.Undecided waiting deadline answers start reached ∧
      (answers.length = turns ∨
        answers.length < turns ∧ client.Stops waiting deadline reached) := by
  induction turns generalizing start with
  | zero => exact ⟨[], start, .nil start, Or.inl rfl⟩
  | succ turns ih =>
      have stop : client.Stops waiting deadline start → ∃ answers reached,
          client.Undecided waiting deadline answers start reached ∧
            (answers.length = turns + 1 ∨
              answers.length < turns + 1 ∧ client.Stops waiting deadline reached) :=
        fun stops => ⟨[], start, .nil start, Or.inr ⟨Nat.succ_pos turns, stops⟩⟩
      cases time : (client.clock start).below deadline with
      | false => exact stop (.late time)
      | true =>
          rcases answered : (client.store.answer .describeTable
            [("TableName", waiting.table)]).outcome start with ⟨answer, middle⟩
          obtain ⟨found, finds⟩ := waiting.exists_finds answer
          by_cases decides : found = .ok false
          · subst decides
            rcases rests : client.rest.outcome middle with ⟨fault | _, next⟩
            · exact stop (.unrested time answered finds rests)
            · obtain ⟨later, reached, undecided, ends⟩ := ih next
              refine ⟨answer :: later, reached, .cons time answered finds rests undecided, ?_⟩
              exact ends.imp (congrArg Nat.succ) (And.imp_left Nat.succ_lt_succ)
          · exact stop (.decided time answered finds decides)

theorem outcome_describe_noted {client : Client ω} {table : Value}
    {answer : Except Fault Value} {world after : ω}
    (serves : client.store.serves .describeTable = true)
    (answered : (client.store.answer .describeTable [("TableName", table)]).outcome world =
      (answer, after)) (journal : List (Event Exchange)) :
    (client.journaled.describe table).outcome (world, journal) =
      (answer, (after, journal ++ [asking table answer])) :=
  Store.outcome_send_noted serves answered journal

theorem outcome_rest_noted (client : Client ω) (world : ω) (journal : List (Event Exchange)) :
    client.journaled.rest.outcome (world, journal) =
      ((client.rest.outcome world).1,
        ((client.rest.outcome world).2, journal ++ client.rested)) := by
  rw [rest, rest, rested, Client.journaled]
  cases client.pause with
  | none => simp
  | some pause => rfl

section Turns

variable {client : Client ω} {waiting : Waiting} {deadline : Binary64}
  {answer : Except Fault Value} {world middle next after : ω}

/-- A turn that decides nothing is noted, and the next one follows. -/
theorem outcome_poll_succ (serves : client.store.serves .describeTable = true)
    (inTime : (client.clock world).below deadline = true)
    (answered : (client.store.answer .describeTable [("TableName", waiting.table)]).outcome world =
      (answer, middle))
    (finds : waiting.Finds answer (.ok false))
    (rests : client.rest.outcome middle = (.ok (), next)) (questions : Nat)
    (journal : List (Event Exchange)) :
    (client.journaled.poll (waiting.decisive client.journaled) waiting.late deadline
        (questions + 1)).outcome (world, journal) =
      (client.journaled.poll (waiting.decisive client.journaled) waiting.late deadline
        questions).outcome (next, journal ++ client.turn waiting.table answer) := by
  have heard := outcome_decisive finds (outcome_describe_noted serves answered journal)
  have time : (client.journaled.clock (world, journal)).below deadline = true := inTime
  rw [poll]
  simp only [outcome_bind, outcome_world, time, Bool.not_true, Bool.false_eq_true, ↓reduceIte,
    heard, outcome_rest_noted, rests, List.append_assoc, turn, List.singleton_append]

/-- A turn whose answer is decisive is the last, and there is no pause after it. -/
theorem outcome_poll_of_decisive {found : Except Fault Bool}
    (serves : client.store.serves .describeTable = true)
    (inTime : (client.clock world).below deadline = true)
    (answered : (client.store.answer .describeTable [("TableName", waiting.table)]).outcome world =
      (answer, after))
    (finds : waiting.Finds answer found) (ends : found ≠ .ok false) (questions : Nat)
    (journal : List (Event Exchange)) :
    (client.journaled.poll (waiting.decisive client.journaled) waiting.late deadline
        (questions + 1)).outcome (world, journal) =
      (found.map fun _ => (), (after, journal ++ [asking waiting.table answer])) := by
  have heard := outcome_decisive finds (outcome_describe_noted serves answered journal)
  have time : (client.journaled.clock (world, journal)).below deadline = true := inTime
  rw [poll]
  simp only [outcome_bind, outcome_world, time, Bool.not_true, Bool.false_eq_true, ↓reduceIte,
    heard]
  rcases found with fault | met
  · rfl
  · cases met with
    | false => exact absurd rfl ends
    | true => rfl

/-- Turns that decide nothing are noted one after another, whatever their number. The induction is
on the turns; the questions that are left and the journal are carried along. -/
theorem outcome_poll {answers : List (Except Fault Value)} {start reached : ω}
    (serves : client.store.serves .describeTable = true)
    (undecided : client.Undecided waiting deadline answers start reached) (questions : Nat)
    (journal : List (Event Exchange)) :
    (client.journaled.poll (waiting.decisive client.journaled) waiting.late deadline
        (questions + answers.length)).outcome (start, journal) =
      (client.journaled.poll (waiting.decisive client.journaled) waiting.late deadline
        questions).outcome (reached, journal ++ answers.flatMap (client.turn waiting.table)) := by
  induction undecided generalizing journal with
  | nil => rw [List.flatMap_nil, List.append_nil]; rfl
  | cons inTime answered finds rests goesOn ih =>
      rw [List.length_cons, ← Nat.add_assoc, outcome_poll_succ serves inTime answered finds rests,
        ih, List.flatMap_cons, List.append_assoc]

end Turns

/-- A wait asks as often as its store has patience. -/
theorem outcome_await {client : Client ω} {timeout : Binary64}
    (seconds : client.waitTimeout.toBinary64 = .ok timeout)
    (decisive : Run (Journaled ω Exchange) Bool) (late : Fault) (world : ω)
    (journal : List (Event Exchange)) :
    (client.journaled.await decisive late).outcome (world, journal) =
      (client.journaled.poll decisive late ((client.clock world).add timeout)
        (client.store.patience world + 1)).outcome (world, journal) := by
  have read : client.journaled.waitTimeout.toBinary64 = .ok timeout := seconds
  rw [await]
  simp only [outcome_bind, outcome_lift, outcome_world, read, Store.outcome_limit]
  rfl

/-- **A wait asks until the first decisive answer or the deadline.** Let the store let the wait
begin, and let it then give any number of answers that decide nothing, each to a question asked
before the deadline. The client notes these, each with a single pause if it can pause. If the next
question is still asked before the deadline and its answer is decisive, that is the last that the
client does: it returns if the goal is met, and fails as the store did if the store refused. If the
deadline is reached, the client asks no more and the wait is invalid. No question is asked at all if
the time to wait is not positive. -/
theorem waiting_ends (client : Client ω) (waiting : Waiting) (request : Request)
    (timeout : Binary64) (answer : Except Fault Value) (answers : List (Except Fault Value))
    (world start reached : ω) (journal : List (Event Exchange))
    (seconds : client.waitTimeout.toBinary64 = .ok timeout)
    (serves : ∀ method, client.store.serves method = true)
    (asks : waiting.request = .ok request)
    (answered : (client.store.answer waiting.method request).outcome world = (answer, start))
    (begins : waiting.Begins answer)
    (undecided : client.Undecided waiting ((client.clock start).add timeout) answers start reached)
    (patient : answers.length ≤ client.store.patience start) :
    let begun := journal ++ [.called ⟨waiting.method, request, answer⟩]
    let told := begun ++ answers.flatMap (client.turn waiting.table)
    let run := (waiting.run client.journaled).outcome (world, journal)
    (∀ decisive found after,
      (client.clock reached).below ((client.clock start).add timeout) = true →
      (client.store.answer .describeTable [("TableName", waiting.table)]).outcome reached =
        (decisive, after) →
      waiting.Finds decisive found → found ≠ .ok false →
      run = (found.map fun _ => (), (after, told ++ [asking waiting.table decisive]))) ∧
    ((client.clock reached).below ((client.clock start).add timeout) = false →
      run = (.error waiting.late, (reached, told)) ∧ waiting.late.category = .validation) ∧
    (Binary64.zero.below timeout = false → (client.clock start).IsDouble →
      run = (.error waiting.late, (start, begun))) := by
  intro begun told run
  have sent : (client.journaled.store.send waiting.method request).outcome (world, journal) =
      (answer, (start, begun)) := Store.outcome_send_noted (serves _) answered journal
  have waits : run = (client.journaled.poll (waiting.decisive client.journaled) waiting.late
      ((client.clock start).add timeout) (client.store.patience start + 1)).outcome
      (start, begun) := by
    rw [← outcome_await seconds]
    exact outcome_run asks sent begins
  obtain ⟨more, enough⟩ := Nat.exists_eq_add_of_le patient
  have turns : run = (client.journaled.poll (waiting.decisive client.journaled) waiting.late
      ((client.clock start).add timeout) (more + 1)).outcome (reached, told) := by
    have count : client.store.patience start + 1 = more + 1 + answers.length := by omega
    rw [waits, count]
    exact outcome_poll (serves _) undecided (more + 1) begun
  refine ⟨?_, ?_, ?_⟩
  · intro decisive found after inTime heard finds ends
    rw [turns]
    exact outcome_poll_of_decisive (serves _) inTime heard finds ends more told
  · intro passed
    rw [turns]
    exact ⟨poll_late _ _ _ _ more (reached, told) passed, category_late waiting⟩
  · intro notPositive double
    rw [waits]
    exact poll_late _ _ _ _ _ (start, begun) (Binary64.not_below_add double notPositive)

/-- A client whose clock moves by what it pauses. Its store gives answers one after another. -/
def tickingClient : Client (Binary64 × List (Except Fault Value)) where
  store :=
    { serves := fun _ => true
      answer := fun _ _ => .ofOutcome fun world =>
        match world.2 with
        | [] => (.error .outOfPatience, world)
        | answer :: later => (answer, (world.1, later))
      patience := fun world => world.2.length }
  retries := .int 0
  pause := some fun duration => do
    let seconds ← duration.toBinary64
    Run.change fun world => (world.1.add seconds, world.2)
  clock := Prod.fst
  waitTimeout := .int 2
  pollInterval := .int 1

/-- A table with a hash key only. -/
def plainLayout : Layout where
  table := .text "t"
  hashKey := .text "id"
  rangeKey := .null
  indexes := .list []
  readCapacity := .int 1
  writeCapacity := .int 1

/-- The description of a table that may be used. -/
def activeTable : Value := .record [("Table", .record [("TableStatus", .text "ACTIVE")])]

/-- The refusal to describe a table that does not exist. -/
def missingTable : Except Fault Value :=
  .error (.rejected (.ofCode (.text Rejection.tableMissing) (.text "") (.text "DescribeTable")))

/-- The deadline, two seconds after the first, is hit by the second pause, so the table is not seen
to be active. -/
theorem waiting_hits_deadline :
    ∃ request, plainLayout.request = .ok request ∧
      (tickingClient.journaled.createTable plainLayout true).outcome
          ((.one, [.ok (.map []), missingTable, .ok (.map []), .ok activeTable]), []) =
        (.error (.tableNeverActive (.text "t")),
          ((.finite false (3 * 2 ^ 51) (-51), [.ok activeTable]),
            [.called ⟨.createTable, request, .ok (.map [])⟩, asking (.text "t") missingTable,
              .paused (.int 1), asking (.text "t") (.ok (.map [])), .paused (.int 1)])) := by
  refine ⟨_, rfl, ?_⟩
  have undecided : tickingClient.Undecided (.creation plainLayout)
      (Binary64.add .one (.finite false (2 ^ 52) (-51))) [missingTable, .ok (.map [])]
      (.one, [missingTable, .ok (.map []), .ok activeTable])
      (.finite false (3 * 2 ^ 51) (-51), [.ok activeTable]) := by
    refine .cons (by decide +kernel) rfl (.notYet rfl) (by rfl)
      (.cons (by decide +kernel) rfl (.inactive (.status rfl) (by decide)) (by rfl) (.nil _))
  have ends := waiting_ends tickingClient (.creation plainLayout) _
    (.finite false (2 ^ 52) (-51)) (.ok (.map []))
    [missingTable, .ok (.map [])]
    (.one, [.ok (.map []), missingTable, .ok (.map []), .ok activeTable])
    (.one, [missingTable, .ok (.map []), .ok activeTable])
    (.finite false (3 * 2 ^ 51) (-51), [.ok activeTable]) []
    (by rfl) (fun _ => rfl) rfl rfl .done undecided (by decide)
  exact (ends.2.1 (by decide +kernel)).1

end TokenTable.Client
