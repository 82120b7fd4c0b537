import TokenTable.Batch.Backoff
import TokenTable.Batch.Chunks
import TokenTable.Batch.Remainder
import TokenTable.Run
import TokenTable.Value.Ordered

/-! # Working through pages

A batch works through a queue of pages. A page that the store processed only in part comes back to
the front of the queue with what is left of it, after a growing wait, until its retries are used up.
Cancellation is observed between pages only. Main statement: `workload_retry`, a retry makes the
work that is left smaller. -/

namespace TokenTable.Batch

/-- Entries that are sent together, and how often that was tried before. -/
structure Page where
  entries : List Entry
  attempt : Nat

/-- What a store made of a page. -/
structure Reply where
  /-- What a read returned. -/
  gathered : List Value
  /-- What the store did not process, in its own spelling. -/
  unprocessed : Value

/-- How a batch is carried out in a world. -/
structure Plan (ω : Type) where
  operation : String
  submit : List Value → Run ω Reply
  /-- The caller's spelling of an entry that only the store knows. -/
  restore : Value → Except Fault Value
  /-- What a batch that gives up reports of what it gathered. -/
  report : List Value → Except Fault (List Value)
  retries : Nat
  pause : Option (Value → Run ω Unit)
  cancelled : Option (Run ω Bool)

/-- How much work a queue may still make under a number of retries. -/
def workload (retries : Nat) : List Page → Nat
  | [] => 0
  | page :: later => retries + 1 - page.attempt + 1 + workload retries later

theorem workload_retry (retries : Nat) (page : Page) (left : List Entry) (later : List Page)
    (allowed : page.attempt < retries) :
    workload retries (⟨left, page.attempt + 1⟩ :: later) < workload retries (page :: later) := by
  simp only [workload]
  omega

theorem workload_finish (retries : Nat) (page : Page) (later : List Page) :
    workload retries later < workload retries (page :: later) := by
  simp only [workload]
  omega

namespace Plan

variable {ω : Type}

def isCancelled (plan : Plan ω) : Run ω Bool :=
  match plan.cancelled with
  | none => pure false
  | some poll => poll

/-- Waits before a retry; a first attempt does not wait. -/
def wait (plan : Plan ω) (attempt : Nat) : Run ω Unit :=
  match plan.pause with
  | none => pure ()
  | some pause => if attempt = 0 then pure () else do pause (.float (← backoff attempt))

/-- The caller's maps of all entries in a queue. -/
def sources (queue : List Page) : List Value :=
  queue.flatMap fun page => page.entries.map Entry.source

/-- Works through a queue of pages; the result is what was gathered. -/
def drain (plan : Plan ω) : List Page → List Value → Run ω (List Value)
  | [], gathered => pure gathered
  | page :: later, gathered => do
    if ← plan.isCancelled then
      let items ← plan.report gathered
      throw (.cancelledBatch plan.operation (sources (page :: later)) items)
    plan.wait page.attempt
    let reply ← plan.submit (page.entries.map Entry.native)
    let gathered := gathered ++ reply.gathered
    if !reply.unprocessed.isGiven then plan.drain later gathered
    else
      let left ← remainder plan.restore page.entries reply.unprocessed
      if allowed : page.attempt < plan.retries then
        plan.drain (⟨left, page.attempt + 1⟩ :: later) gathered
      else
        let items ← plan.report gathered
        throw (.partialBatch plan.operation (left.map Entry.source) items)
termination_by queue => workload plan.retries queue
decreasing_by
  · exact workload_finish _ _ _
  · exact workload_retry _ _ _ _ allowed

def carryOut (plan : Plan ω) (pageSize : Nat) (entries : List Entry) : Run ω (List Value) :=
  plan.drain ((chunks pageSize entries).map fun chunk => ⟨chunk, 0⟩) []

end Plan

/-- The number of retries of a batch, which may not be negative. Retries without end are as many as
a store may still answer. -/
def retriesOf (answers : Nat) (maxRetries : Value) : Except Fault Nat := do
  if ← maxRetries.isBelow 0 then throw .negativeRetries
  return maxRetries.countBelow?.getD answers

theorem retriesOf_nat (answers n : Nat) : retriesOf answers (.int n) = .ok n := by
  have notNegative : ¬ (n : Int) < 0 := by omega
  simp [retriesOf, Value.isBelow_int, Value.countBelow?, bind, Except.bind, pure, Except.pure,
    notNegative]

end TokenTable.Batch
