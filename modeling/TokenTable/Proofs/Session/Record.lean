import TokenTable.Proofs.Alike
import TokenTable.Session.Play

/-! # The record of a store

A scripted store records the calls of its methods, and an echo store keeps their pages. A call adds
to the record what the record alone decides (`record_afterCall`). Much of what a session does is no
such call: it pauses, makes and asks tokens, keeps scans, writes and reads the script. None of this
changes the record (`Aside`).
-/

namespace TokenTable

namespace RehearsalStore

/-- What a store has recorded: a scripted one the calls that it received, and an echo store all that
it is. -/
def record : RehearsalStore → RehearsalStore
  | .scripted script => .scripted { script with pending := [] }
  | .echoing echo => .echoing echo

/-- What a store is after a call of a method. -/
def afterCall (method : Method) (request : Request) (store : RehearsalStore) : RehearsalStore :=
  if request.any (·.1 == "self") then store
  else
    match store with
    | .scripted script => .scripted (script.answer method.name request).2
    | .echoing echo => .echoing ((Echo.store.answer method request).outcome echo).2

/-- A store records of a call what any store with its record does. -/
theorem record_afterCall {first second : RehearsalStore} (same : first.record = second.record)
    (method : Method) (request : Request) :
    (first.afterCall method request).record = (second.afterCall method request).record := by
  unfold afterCall
  split
  · exact same
  · cases first with
    | scripted script =>
        cases second with
        | scripted other =>
            simp only [record, scripted.injEq, Script.mk.injEq, true_and] at same
            simp only [record, Script.calls_answer, same]
        | echoing echo => cases same
    | echoing echo =>
        cases second with
        | scripted script => cases same
        | echoing other =>
            cases same
            rfl

end RehearsalStore

namespace Rehearsal

theorem isEchoing_of_record {first second : Rehearsal}
    (same : first.store.record = second.store.record) : first.isEchoing = second.isEchoing := by
  unfold isEchoing
  generalize first.store = store, second.store = other at same
  cases store <;> cases other <;> first | rfl | cases same

theorem isEchoing_afterCall (rehearsal : Rehearsal) (method : Method) (request : Request) :
    { rehearsal with store := rehearsal.store.afterCall method request : Rehearsal }.isEchoing =
      rehearsal.isEchoing := by
  unfold isEchoing RehearsalStore.afterCall
  cases rehearsal.store <;> cases request.any (·.1 == "self") <;> rfl

/-- A call of the bare store changes the store of the rehearsal only. -/
theorem outcome_bareStore (rehearsal : Rehearsal) (method : Method) (request : Request) :
    (((bareStore rehearsal.isEchoing).answer method request).outcome rehearsal).2 =
      { rehearsal with store := rehearsal.store.afterCall method request } := by
  unfold bareStore Store.reserving RehearsalStore.afterCall
  cases own : request.any (·.1 == "self") with
  | true => simp only [own, ↓reduceIte, Run.outcome_throw]
  | false =>
      obtain ⟨store, _, _, _, _, _, _⟩ := rehearsal
      simp only [own, Bool.false_eq_true, ↓reduceIte]
      cases store <;> rfl

variable {α β : Type}

/-- Two rehearsals are the same, with a store that has a record. -/
def Recorded (record : RehearsalStore) (first second : Rehearsal) : Prop :=
  first = second ∧ first.store.record = record

/-- An operation on a rehearsal keeps the record of the store. -/
def Aside (action : Run Rehearsal α) : Prop :=
  ∀ record, Run.Alike (Recorded record) action action

namespace Aside

theorem pure (a : α) : Aside (Pure.pure a) := fun _ => .pure a

theorem throw (fault : Fault) : Aside (MonadExcept.throw fault : Run Rehearsal α) :=
  fun _ => .throw fault

theorem bind {action : Run Rehearsal α} {next : α → Run Rehearsal β} (aside : Aside action)
    (follows : ∀ a, Aside (next a)) : Aside (action >>= next) :=
  fun record => (aside record).bind fun a => follows a record

theorem lift_bind (result : Except Fault α) {next : α → Run Rehearsal β}
    (follows : ∀ a, Aside (next a)) : Aside (liftM result >>= next) :=
  fun record => .lift_bind result fun a => follows a record

theorem world_bind {next : Rehearsal → Run Rehearsal β}
    (follows : ∀ rehearsal, Aside (next rehearsal)) : Aside (Run.world >>= next) := by
  intro record
  apply Run.Alike.world_bind
  rintro rehearsal _ ⟨rfl, _⟩
  exact follows rehearsal record

theorem change {next : Rehearsal → Rehearsal}
    (kept : ∀ rehearsal, (next rehearsal).store = rehearsal.store) : Aside (Run.change next) := by
  intro record
  apply Run.Alike.change
  rintro rehearsal _ ⟨rfl, held⟩
  exact ⟨rfl, (congrArg RehearsalStore.record (kept rehearsal)).trans held⟩

theorem change_bind {next : Rehearsal → Rehearsal} {rest : Unit → Run Rehearsal β}
    (kept : ∀ rehearsal, (next rehearsal).store = rehearsal.store) (follows : ∀ u, Aside (rest u)) :
    Aside (Run.change next >>= rest) :=
  (change kept).bind follows

end Aside

theorem aside_pause (duration : Value) : Aside (pause duration) :=
  .change_bind (fun _ => rfl) fun _ => .lift_bind _ fun _ => .change fun _ => rfl

theorem aside_addToken (token : CancelToken) : Aside (addToken token) :=
  .world_bind fun _ => .change_bind (fun _ => rfl) fun _ => .pure _

theorem aside_pollToken (place : Nat) : Aside (pollToken place) := by
  apply Aside.world_bind
  intro rehearsal
  cases rehearsal.tokens[place]? with
  | none => exact .throw _
  | some token =>
      exact .lift_bind _ fun polled => .change_bind (fun _ => rfl) fun _ => .pure _

theorem aside_named (name : String) : Aside (named name) := by
  apply Aside.world_bind
  intro rehearsal
  cases rehearsal.names.lookup name with
  | none => exact .throw _
  | some place? => exact .pure _

theorem aside_scanNamed (name : String) : Aside (scanNamed name) := by
  apply Aside.world_bind
  intro rehearsal
  cases rehearsal.scans.lookup name with
  | none => exact .throw _
  | some scan => exact .pure _

theorem aside_keepScan (name : String) (scan : Scan) : Aside (keepScan name scan) :=
  .change fun _ => rfl

theorem aside_dropScan (name : String) : Aside (dropScan name) := .change fun _ => rfl

theorem aside_requireScript : Aside requireScript := by
  apply Aside.world_bind
  intro rehearsal
  cases rehearsal.store with
  | scripted script => exact .pure _
  | echoing echo => exact .throw _

/-- A new expectation adds to what is expected, not to what was recorded. -/
theorem aside_expect (expectation : Expectation) : Aside (expect expectation) := by
  rintro record rehearsal _ ⟨rfl, held⟩
  cases store : rehearsal.store with
  | scripted script =>
      rw [store] at held
      simp only [expect, requireScript, store, Run.outcome_bind, Run.outcome_world,
        Run.outcome_pure, Run.outcome_change]
      exact ⟨trivial, rfl, held⟩
  | echoing echo =>
      simp only [expect, requireScript, store, Run.outcome_bind, Run.outcome_world,
        Run.outcome_throw]
      exact ⟨trivial, rfl, held⟩

end Rehearsal

namespace Session

open Rehearsal

theorem aside_prepare (cancellation : Cancellation) : Aside (prepare cancellation) := by
  cases cancellation with
  | never => exact .pure none
  | after checks =>
      exact .lift_bind _ fun token => (aside_addToken token).bind fun place => .pure (some place)
  | event isSet => exact (aside_addToken _).bind fun place => .pure (some place)
  | named name => exact aside_named name

theorem aside_runScript (command : ScriptCommand) : Aside (runScript command) := by
  cases command with
  | expect expectation => exact (aside_expect expectation).bind fun _ => .pure _
  | expectRead table items keys unprocessed =>
      apply aside_requireScript.bind
      intro _
      exact .lift_bind _ fun expected => (aside_expect expected).bind fun _ => .pure _
  | expectWrite table requests unprocessed =>
      apply aside_requireScript.bind
      intro _
      exact .lift_bind _ fun expected => (aside_expect expected).bind fun _ => .pure _
  | assertPlayed => exact aside_requireScript.bind fun script => .lift_bind _ fun _ => .pure _
  | requests method => exact aside_requireScript.bind fun script => .pure _
  | callsReceived => exact aside_requireScript.bind fun script => .pure _

theorem aside_runToken (command : TokenCommand) : Aside (runToken command) := by
  cases command with
  | make name cancellation =>
      apply (aside_prepare cancellation).bind
      intro place?
      exact .change_bind (fun _ => rfl) fun _ => .pure _
  | poll name =>
      apply (aside_named name).bind
      intro place?
      cases place? with
      | none => exact .throw _
      | some place => exact (aside_pollToken place).bind fun cancelled => .pure _

theorem aside_configure (options : ClientOptions) : Aside (configure options) := by
  apply Aside.lift_bind
  intro negative
  split
  · exact .throw _
  · exact .change_bind (fun _ => rfl) fun _ => .pure _

theorem aside_beginScan (name : String) (table filter limit : Value) :
    Aside (beginScan name table filter limit) := by
  apply (aside_dropScan name).bind
  intro _
  apply Aside.lift_bind
  intro scan
  exact (aside_keepScan name scan).bind fun _ => .pure _

theorem aside_runMisfit (command : MisfitCommand) : Aside (runMisfit command) := by
  cases command with
  | script => exact aside_requireScript.bind fun _ => .throw _
  | scan name => exact (aside_dropScan name).bind fun _ => .throw _
  | cancellable cancellation => exact (aside_prepare cancellation).bind fun _ => .throw _
  | other => exact .throw _

end Session

end TokenTable
