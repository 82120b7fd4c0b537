import TokenTable.Proofs.Client.Alike
import TokenTable.Proofs.Session.Record

/-! # Sessions that do the same

A session can be played at two venues. If these have stores that do the same, and do the same beside
their stores and around a call of the script, then so does each step of the session (`runAt_alike`).
Venues that only differ in what they do around calls are compared by that (`Venue.alike_of_around`).
-/

namespace TokenTable

namespace Venue

variable {ω ω' : Type} {R : ω → ω' → Prop}

/-- Two venues rehearse the same and do the same: in calls of the store, beside it, and in calls of
the script, whose names are those of no method. -/
structure Alike (R : ω → ω' → Prop) (first : Venue ω) (second : Venue ω') : Prop where
  rehearsal : ∀ world world', R world world' → first.rehearsal world = second.rehearsal world'
  store : ∀ world world', R world world' →
    (Session.storeOf first world).Alike R (Session.storeOf second world')
  here : ∀ {α : Type} (action : Run Rehearsal α), Rehearsal.Aside action →
    Run.Alike R (first.here action) (second.here action)
  script : ∀ name arguments (action : Run Rehearsal Value), Method.ofName? name = none →
    Rehearsal.Aside action →
    Run.Alike R (first.around name arguments (first.here action))
      (second.around name arguments (second.here action))

/-- Venues with the same rehearsal that do the same around calls that do the same. -/
theorem alike_of_around {first : Venue ω} {second : Venue ω'}
    (same : ∀ world world', R world world' → first.rehearsal world = second.rehearsal world')
    (kept : ∀ after world world', R world world' →
      R (first.replace after world) (second.replace after world'))
    (around : ∀ name request call call', Run.Alike R call call' →
      Run.Alike R (first.around name request call) (second.around name request call')) :
    first.Alike R second where
  rehearsal := same
  store world world' related := by
    unfold Session.storeOf
    rw [same world world' related]
    exact {
      serves := rfl
      answer := fun _ _ => around _ _ _ _ (.within same kept _)
      patience := fun later later' stillRelated =>
        congrArg (Rehearsal.bareStore _).patience (same later later' stillRelated) }
  here action _ := .within same kept action
  script name arguments action _ _ := around _ _ _ _ (.within same kept action)

end Venue

namespace Session

variable {ω ω' : Type} {R : ω → ω' → Prop} {first : Venue ω} {second : Venue ω'}

theorem pauseOf_alike (alike : first.Alike R second) (pauses : Bool) :
    Batch.PausesAlike R (pauseOf first pauses) (pauseOf second pauses) := by
  unfold pauseOf
  split
  · exact .some fun duration => alike.here _ (Rehearsal.aside_pause duration)
  · exact .none

theorem control_alike (alike : first.Alike R second) (maxRetries : Value) (pauses : Bool)
    {polls : Option (Run ω Bool)} {polls' : Option (Run ω' Bool)}
    (asked : Option.Rel (Run.Alike R) polls polls') :
    Batch.Control.Alike R ⟨maxRetries, pauseOf first pauses, polls⟩
      ⟨maxRetries, pauseOf second pauses, polls'⟩ :=
  ⟨rfl, pauseOf_alike alike pauses, asked⟩

theorem clientOf_alike (alike : first.Alike R second) {world : ω} {world' : ω'}
    (related : R world world') : (clientOf first world).Alike R (clientOf second world') := by
  have same := alike.rehearsal world world' related
  unfold clientOf
  rw [same]
  exact {
    store := alike.store _ _ related
    retries := rfl
    pause := pauseOf_alike alike _
    clock := fun _ _ stillRelated =>
      congrArg Rehearsal.clock (alike.rehearsal _ _ stillRelated)
    waitTimeout := rfl
    pollInterval := rfl }

/-- What is done with the question whether an operation is cancelled has to be alike only for
questions that are. -/
theorem watch_bind_alike (alike : first.Alike R second) (cancellation : Cancellation)
    {next : Option (Run ω Bool) → Run ω Value} {next' : Option (Run ω' Bool) → Run ω' Value}
    (follows : ∀ polls polls', Option.Rel (Run.Alike R) polls polls' →
      Run.Alike R (next polls) (next' polls')) :
    Run.Alike R (watch first cancellation >>= next) (watch second cancellation >>= next') := by
  unfold watch
  simp only [bind_assoc, pure_bind]
  apply (alike.here _ (aside_prepare cancellation)).bind
  intro place?
  apply follows
  cases place? with
  | none => exact .none
  | some place => exact .some (alike.here _ (Rehearsal.aside_pollToken place))

/-- What a store has as a script command is under the name of no method. -/
theorem ofName?_eq_none_of_script {echoing : Bool} {name : String}
    {command : Value → Except Fault ScriptCommand}
    (found : Member.ofName? echoing name = some (.script command)) :
    Method.ofName? name = none := by
  cases named : Method.ofName? name with
  | none => rfl
  | some method =>
      rw [Member.ofName?, named] at found
      cases found

section

variable {store : Store ω} {store' : Store ω'}

theorem callMember_alike (alike : first.Alike R second) (stores : store.Alike R store')
    {echoing : Bool} {name : String} {member : Member}
    (found : Member.ofName? echoing name = some member) (request : Value) :
    Run.Alike R (callMember first store name request member)
      (callMember second store' name request member) := by
  cases member with
  | data => exact .throw _
  | method method =>
      apply (stores.require method).bind
      intro _
      exact .lift_bind _ fun arguments => stores.answer method arguments
  | script command =>
      apply Run.Alike.lift_bind
      intro arguments
      exact alike.script name arguments _ (ofName?_eq_none_of_script found)
        (.lift_bind _ fun command => aside_runScript command)

theorem callByName_alike (alike : first.Alike R second) (stores : store.Alike R store')
    (name request : Value) :
    Run.Alike R (callByName first store name request) (callByName second store' name request) := by
  cases name with
  | text name =>
      apply Run.Alike.world_bind
      intro world world' related
      rw [alike.rehearsal world world' related]
      cases found : Member.ofName? (second.rehearsal world').isEchoing name with
      | none => exact .throw _
      | some member => exact callMember_alike alike stores found request
  | _ => exact .throw _

theorem runStore_alike (alike : first.Alike R second) (stores : store.Alike R store')
    (command : StoreCommand) :
    Run.Alike R (runStore first store command) (runStore second store' command) := by
  cases command with
  | call method request => exact callByName_alike alike stores method request
  | read table keys consistent order maxRetries pauses cancellation =>
      apply watch_bind_alike alike cancellation
      intro polls polls' asked
      have controls := control_alike alike maxRetries pauses asked
      exact (Batch.read_alike stores controls table keys consistent order).bind fun items => .pure _
  | write table items mode maxRetries pauses cancellation =>
      apply watch_bind_alike alike cancellation
      intro polls polls' asked
      have controls := control_alike alike maxRetries pauses asked
      exact (Batch.write_alike stores controls table items mode).bind fun _ => .pure _

theorem advance_alike (alike : first.Alike R second) (stores : store.Alike R store')
    (name : String) : Run.Alike R (advance first store name) (advance second store' name) := by
  apply (alike.here _ (Rehearsal.aside_scanNamed name)).bind
  intro scan
  apply (alike.here _ (Rehearsal.aside_keepScan name scan.finish)).bind
  intro _
  apply stores.limit.bind
  intro pages
  apply (Scan.next_alike stores pages scan).bind
  rintro ⟨item, after⟩
  exact (alike.here _ (Rehearsal.aside_keepScan name after)).bind fun _ => .pure _

end

section

variable {client : Client ω} {client' : Client ω'}

theorem runItem_alike (alike : first.Alike R second) (clients : client.Alike R client')
    (command : ItemCommand) :
    Run.Alike R (runItem first client command) (runItem second client' command) := by
  cases command with
  | configure options => exact alike.here _ (aside_configure options)
  | get table key consistent => exact (clients.get table key consistent).bind fun item => .pure _
  | put table item expected => exact (clients.put table item expected).bind fun done => .pure _
  | update table key updates expected returned =>
      exact (clients.update table key updates expected returned).bind fun item => .pure _
  | delete table key => exact (clients.delete table key).bind fun item => .pure _
  | read table keys consistent order cancellation =>
      apply watch_bind_alike alike cancellation
      intro polls polls' asked
      exact (clients.readBatch asked table keys consistent order).bind fun items => .pure _
  | write table items mode cancellation =>
      apply watch_bind_alike alike cancellation
      intro polls polls' asked
      exact (clients.writeBatch asked table items mode).bind fun _ => .pure _
  | query table conditions options =>
      exact (clients.query table conditions options).bind fun items => .pure _
  | count table conditions index =>
      exact (clients.count table conditions index).bind fun number => .pure _
  | scan name table filter limit => exact alike.here _ (aside_beginScan name table filter limit)
  | next name => exact advance_alike alike clients.store name

theorem runTable_alike (clients : client.Alike R client') (command : TableCommand) :
    Run.Alike R (runTable client command) (runTable client' command) := by
  cases command with
  | create layout wait => exact (clients.createTable layout wait).bind fun _ => .pure _
  | delete table wait ignoreMissing =>
      exact (clients.deleteTable table wait ignoreMissing).bind fun _ => .pure _
  | «exists» table => exact (clients.tableExists table).bind fun stands => .pure _
  | empty table => exact (clients.emptyTable table).bind fun number => .pure _

end

/-- A step of a session does the same at both venues. -/
theorem runAt_alike (alike : first.Alike R second) (command : Command) :
    Run.Alike R (runAt first command) (runAt second command) := by
  cases command with
  | script command => exact alike.here _ (aside_runScript command)
  | token command => exact alike.here _ (aside_runToken command)
  | store command =>
      exact .world_bind fun _ _ related =>
        runStore_alike alike (alike.store _ _ related) command
  | item command =>
      exact .world_bind fun _ _ related =>
        runItem_alike alike (clientOf_alike alike related) command
  | table command =>
      exact .world_bind fun _ _ related => runTable_alike (clientOf_alike alike related) command
  | misfit command => exact alike.here _ (aside_runMisfit command)

end Session

end TokenTable
