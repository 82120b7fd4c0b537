import TokenTable.Proofs.Batch.Matching
import TokenTable.Proofs.Batch.Observed
import TokenTable.Proofs.Batch.Ordinary

/-! # Batch operations

Reading and writing are two cases of one operation: it makes entries of what the caller gave, works
through them in pages, and reports what it gathered (`perform_eq`). Of all its steps only the page
queue reports that a batch was cancelled or gave up, unless the store or a hook does so itself
(`ordinary_plan`), so a report tells how the queue ended (`Plan.Ordinary.cases_of_ends`).
-/

namespace TokenTable

/-- An operation that never fails with the report of a batch. -/
def Run.Ordinary {ω α : Type} (action : Run ω α) : Prop :=
  ∀ world, FailsOnly Fault.Ordinary (action.outcome world).1

namespace Run.Ordinary

variable {ω α β : Type}

theorem lift {result : Except Fault α} (ordinary : FailsOnly Fault.Ordinary result) :
    Run.Ordinary (liftM result : Run ω α) := fun _ => ordinary

theorem pure (a : α) : Run.Ordinary (Pure.pure a : Run ω α) := fun _ => .ok a

theorem bind {action : Run ω α} {next : α → Run ω β} (first : Run.Ordinary action)
    (second : ∀ a, Run.Ordinary (next a)) : Run.Ordinary (action >>= next) := by
  intro world
  have early := first world
  rw [outcome_bind]
  rcases result : action.outcome world with ⟨fault | a, middle⟩
  · rw [result] at early
    exact .error (early fault rfl)
  · exact second a middle

theorem of_outcome {action : Run ω α} {world after : ω} {fault : Fault}
    (ordinary : Run.Ordinary action) (failed : action.outcome world = (.error fault, after)) :
    fault.Ordinary := by
  refine ordinary world fault ?_
  rw [failed]

end Run.Ordinary

namespace Batch

variable {ω : Type}

/-- What a batch does with what it is given. -/
inductive Operation where
  | read (consistent : Bool) (order : Value)
  | write (mode : Mode)

/-- The store and the hooks do not raise the reports of a batch themselves. -/
structure OwnFaults (store : Store ω) (method : Method) (control : Control ω) : Prop where
  answer : ∀ request, Run.Ordinary (store.answer method request)
  pause : ∀ pause, control.pause = some pause → ∀ seconds, Run.Ordinary (pause seconds)
  poll : ∀ poll, control.cancelled = some poll → Run.Ordinary poll

namespace Operation

/-- The method of a store that is called for each page. -/
def method : Operation → Method
  | .read .. => .readBatch
  | .write _ => .writeBatch

/-- The name of an operation, for reports. -/
def name : Operation → String
  | .read .. => "batch_get"
  | .write mode => mode.operation

/-- The number of entries on a page. -/
def pageSize : Operation → Nat
  | .read .. => readPageSize
  | .write _ => writePageSize

/-- The entries of what the caller gave, if it translates. -/
def entriesOf : Operation → Value → Except Fault (List Entry)
  | .read .., items => return (← typedKeys items).map keyEntry
  | .write mode, items => Batch.entriesOf mode items

/-- The typed keys that the caller gave, if they translate. -/
def nativesOf (items : Value) : List NativeItem :=
  match typedKeys items with
  | .ok pairs => pairs.map (·.2)
  | .error _ => []

/-- Carries out an operation; a write returns no items. -/
def perform (operation : Operation) (store : Store ω) (table : String) (items : Value)
    (control : Control ω) : Run ω (List Value) :=
  match operation with
  | .read consistent order => Batch.read store (.text table) items consistent order control
  | .write mode => do
    Batch.write store (.text table) items (.text mode.name) control
    return []

/-- How an operation works through its pages. -/
def plan (operation : Operation) (store : Store ω) (table : String) (items : Value)
    (retries : Nat) (control : Control ω) : Plan ω :=
  match operation with
  | .read consistent order =>
    readPlan store (.text table) consistent (nativesOf items) order retries control
  | .write mode => writePlan store (.text table) mode.operation retries control

/-- The request for a page. -/
def request : Operation → String → List Value → Except Fault Request
  | .read consistent _, table, page => readRequest (.text table) consistent page
  | .write _, table, page => writeRequest (.text table) page

/-- What the answer to a page holds. -/
def reply : Operation → String → Value → Except Fault Reply
  | .read .., table, response => readReply (.text table) response
  | .write _, table, response => writeReply (.text table) response

/-- The caller's spelling of an entry that only the store knows. -/
def restore : Operation → Value → Except Fault Value
  | .read .. => Item.toTokens
  | .write _ => restoreRequest

/-- What an operation makes of what it gathered. -/
def report : Operation → Value → List Value → Except Fault (List Value)
  | .read _ order, items, gathered => arrange (nativesOf items) order gathered
  | .write _, _, _ => .ok []

/-- What can be told to be wrong before anything is translated. -/
def check : Operation → Value → Except Fault Unit
  | .read _ order, items =>
    if items.isGiven then (Order.ofValue order).map fun _ => ()
    else .error (.emptyBatch "batch_get")
  | .write mode, items => if items.isGiven then .ok () else .error (.emptyBatch mode.operation)

/-- The queue that an operation starts with. -/
def start (operation : Operation) (entries : List Entry) : Progress :=
  ⟨Plan.untried (chunks operation.pageSize entries), []⟩

theorem pageSize_pos (operation : Operation) : 0 < operation.pageSize := by
  cases operation with
  | read => exact Nat.succ_pos 99
  | write => exact Nat.succ_pos 24

section

variable (operation : Operation) (store : Store ω) (table : String) (items : Value) (retries : Nat)
  (control : Control ω)

theorem operation_plan :
    (operation.plan store table items retries control).operation = operation.name := by
  cases operation <;> rfl

theorem retries_plan : (operation.plan store table items retries control).retries = retries := by
  cases operation <;> rfl

theorem restore_plan :
    (operation.plan store table items retries control).restore = operation.restore := by
  cases operation <;> rfl

theorem report_plan :
    (operation.plan store table items retries control).report = operation.report items := by
  cases operation <;> rfl

theorem pause_plan :
    (operation.plan store table items retries control).pause = control.pause := by
  cases operation <;> rfl

theorem cancelled_plan :
    (operation.plan store table items retries control).cancelled = control.cancelled := by
  cases operation <;> rfl

/-- A page is submitted by sending its request and reading the reply off the answer. -/
theorem submit_plan (page : List Value) :
    (operation.plan store table items retries control).submit page =
      (liftM (operation.request table page) >>= fun request =>
        store.send operation.method request >>= fun response =>
          liftM (operation.reply table response)) := by
  cases operation <;> rfl

end

/-- An operation on what translates checks what it was given, works through its pages, and makes its
result of what it gathered. -/
theorem perform_eq (operation : Operation) (store : Store ω) (table : String) (items : Value)
    (control : Control ω) (entries : List Entry)
    (translates : operation.entriesOf items = .ok entries) :
    operation.perform store table items control =
      (liftM (operation.check items) >>= fun _ =>
        store.limit >>= fun answers =>
          liftM (retriesOf answers control.maxRetries) >>= fun retries =>
            (operation.plan store table items retries control).carryOut operation.pageSize
              entries >>= fun gathered => liftM (operation.report items gathered)) := by
  apply Run.ext
  intro world
  cases operation with
  | read consistent order =>
      obtain ⟨pairs, typed, translates⟩ := (bind_eq_ok_iff _ _ _).mp translates
      cases translates
      have natives : nativesOf items = pairs.map (·.2) := by rw [nativesOf, typed]
      unfold perform Batch.read check report
      cases given : items.isGiven with
      | false => simp [given]
      | true =>
          cases resolved : Order.ofValue order with
          | error fault => simp [given, resolved, Except.map]
          | ok resolved => simp [given, typed, resolved, Except.map, natives, plan, pageSize]
  | write mode =>
      have translated : Batch.entriesOf mode items = .ok entries := translates
      unfold perform Batch.write check report
      cases given : items.isGiven with
      | false => simp [given, Mode.ofValue_name]
      | true =>
          cases allowed : retriesOf (store.patience world + 1) control.maxRetries with
          | error fault => simp [given, Mode.ofValue_name, translated, writeEntries, allowed]
          | ok retries =>
              simp only [given, Mode.ofValue_name, translated, plan, pageSize, writeEntries,
                allowed, Run.outcome_bind, Run.outcome_lift, Store.outcome_limit, Bool.not_true,
                Bool.false_eq_true, ↓reduceIte, Run.outcome_pure]
              rcases ((writePlan store (.text table) mode.operation retries control).carryOut
                writePageSize entries).outcome world with ⟨fault | gathered, after⟩ <;> rfl

theorem ordinary_check (operation : Operation) (items : Value) :
    FailsOnly Fault.Ordinary (operation.check items) := by
  cases operation with
  | read consistent order => exact .ite ((Order.ordinary_ofValue order).map _) (.error rfl)
  | write mode => exact .ite (.ok ()) (.error rfl)

theorem ordinary_restore (operation : Operation) (native : Value) :
    FailsOnly Fault.Ordinary (operation.restore native) := by
  cases operation with
  | read consistent order => exact Item.ordinary_toTokens native
  | write mode => exact ordinary_restoreRequest native

theorem ordinary_report (operation : Operation) (items : Value) (gathered : List Value) :
    FailsOnly Fault.Ordinary (operation.report items gathered) := by
  cases operation with
  | read consistent order => exact ordinary_arrange _ order gathered
  | write mode => exact .ok []

theorem ordinary_request (operation : Operation) (table : String) (page : List Value) :
    FailsOnly Fault.Ordinary (operation.request table page) := by
  cases operation with
  | read consistent order => exact ordinary_readRequest _ _ _
  | write mode => exact ordinary_writeRequest _ _

theorem ordinary_reply (operation : Operation) (table : String) (response : Value) :
    FailsOnly Fault.Ordinary (operation.reply table response) := by
  cases operation with
  | read consistent order => exact ordinary_readReply _ _
  | write mode => exact ordinary_writeReply _ _

end Operation

namespace Plan

/-- The steps of a plan never fail with the report of a batch. -/
structure Ordinary (plan : Plan ω) : Prop where
  isCancelled : Run.Ordinary plan.isCancelled
  wait : ∀ attempt, Run.Ordinary (plan.wait attempt)
  submit : ∀ page, Run.Ordinary (plan.submit page)
  restore : ∀ native, FailsOnly Fault.Ordinary (plan.restore native)
  report : ∀ gathered, FailsOnly Fault.Ordinary (plan.report gathered)

/-- A batch that ends with a report was cancelled before its next page and reports all that is
queued, or gave up a page and reports what is left of it. -/
theorem Ordinary.cases_of_ends {plan : Plan ω} (ordinary : plan.Ordinary) {page : Page}
    {later : List Page} {gathered : List Value} {world after : ω} {fault : Fault}
    (ending : plan.Ends page later gathered world fault after) :
    fault.Ordinary ∨
      (∃ items, plan.isCancelled.outcome world = (.ok true, after) ∧
        plan.report gathered = .ok items ∧
        fault = .cancelledBatch plan.operation (sources (page :: later)) items) ∨
      ∃ reply left items, plan.Submits page world reply after ∧
        reply.unprocessed.isGiven = true ∧
        remainder plan.restore page.entries reply.unprocessed = .ok left ∧
        plan.retries ≤ page.attempt ∧ plan.report (gathered ++ reply.gathered) = .ok items ∧
        fault = .partialBatch plan.operation (left.map Entry.source) items := by
  cases ending with
  | poll _ _ failed => exact Or.inl (ordinary.isCancelled.of_outcome failed)
  | cancelled items after asked reported => exact Or.inr (Or.inl ⟨items, asked, reported, rfl⟩)
  | wait _ _ _ failed => exact Or.inl ((ordinary.wait _).of_outcome failed)
  | submit _ _ _ failed => exact Or.inl ((ordinary.submit _).of_outcome failed)
  | matching _ _ _ failed => exact Or.inl (ordinary_remainder ordinary.restore _ _ _ failed)
  | report _ _ _ failed => exact Or.inl (ordinary.report _ _ failed)
  | exhausted reply _ submits given left matched last items reported =>
      exact Or.inr (Or.inr ⟨reply, left, items, submits, given, matched, last, reported, rfl⟩)

end Plan

namespace Operation

/-- The steps of an operation never fail with the report of a batch, unless the store or a hook
does. -/
theorem ordinary_plan {operation : Operation} {store : Store ω} {control : Control ω}
    (own : OwnFaults store operation.method control) (table : String) (items : Value)
    (retries : Nat) : (operation.plan store table items retries control).Ordinary where
  isCancelled := by
    unfold Plan.isCancelled
    rw [cancelled_plan]
    cases hook : control.cancelled with
    | none => exact .pure false
    | some poll => exact own.poll poll hook
  wait attempt := by
    unfold Plan.wait
    rw [pause_plan]
    cases hook : control.pause with
    | none => exact .pure ()
    | some pause =>
        simp only
        by_cases first : attempt = 0
        · rw [if_pos first]
          exact .pure ()
        · rw [if_neg first]
          exact (Run.Ordinary.lift (ordinary_backoff attempt)).bind fun seconds =>
            own.pause pause hook _
  submit page := by
    rw [submit_plan]
    apply (Run.Ordinary.lift (operation.ordinary_request table page)).bind
    intro request
    refine Run.Ordinary.bind ?_ fun response => .lift (operation.ordinary_reply table response)
    refine Run.Ordinary.bind ?_ fun _ => own.answer request
    unfold Store.require
    by_cases served : store.serves operation.method = true
    · rw [if_pos served]
      exact .pure ()
    · rw [if_neg served]
      exact fun _ => .error rfl
  restore native := by
    rw [restore_plan]
    exact operation.ordinary_restore native
  report gathered := by
    rw [report_plan]
    exact operation.ordinary_report items gathered

end Operation

end Batch

end TokenTable
