import TokenTable.Proofs.Batch.Classes

/-! # Deleting under native keys

Native keys are deleted under in pages, once all of them are translated. What is sent, what the
store accepts and how it ends is told by the calls that are made (`deletes_of_outcome`).
-/

namespace TokenTable.Batch

open Run

variable {ω : Type}

theorem deleteEntries_eq_error_iff (keys : List Value) (fault : Fault) :
    deleteEntries keys = .error fault ↔ keys.mapM Item.toTokens = .error fault := by
  refine mapM_eq_error_iff_of (fun key fault => ?_) keys fault
  simp [bind_eq_error_iff, pure, Except.pure]

theorem natives_of_deleteEntries {keys : List Value} {entries : List Entry}
    (made : deleteEntries keys = .ok entries) :
    entries.map Entry.native = keys.map Mode.delete.request := by
  have each := forall₂_of_mapM made
  clear made
  induction each with
  | nil => rfl
  | cons single _ ih =>
      obtain ⟨source, _, single⟩ := (bind_eq_ok_iff _ _ _).mp single
      cases single
      rw [List.map_cons, List.map_cons, ih]

/-- The fingerprint of every delete request is matched by all of its class. -/
def HasSettledKeys (keys : List Value) : Prop :=
  ∀ key ∈ keys, ∀ value, fingerprint (Mode.delete.request key) = .ok value → value.Settled

/-- The calls that delete under some native keys, and how that ends. -/
structure Deletes (table : String) (keys : List Value) (writes : List Exchange)
    (result : Except Fault Nat) : Prop where
  method : ∀ write ∈ writes, write.method = .writeBatch
  untranslated : ∀ fault, keys.mapM Item.toTokens = .error fault →
    result = .error fault ∧ writes = []
  nothing : keys = [] → writes = []
  accepted : ∀ number, result = .ok number → number = keys.length ∧
    (Operation.write .delete).acceptedClassesIn table writes =
      classes (keys.map Mode.delete.request)
  unchanged : HasSettledKeys keys → ∀ write ∈ writes, ∃ page,
    (Operation.write .delete).Carries table page write ∧ 1 ≤ page.length ∧
      page.Subperm (keys.map Mode.delete.request)

/-- Entries are deleted by carrying out a plan. -/
theorem writeEntries_delete (store : Store ω) (table : String) (entries : List Entry)
    (control : Control ω) :
    writeEntries store (.text table) Mode.delete.operation entries control =
      (store.limit >>= fun answers =>
        liftM (retriesOf answers control.maxRetries) >>= fun retries =>
          ((Operation.write .delete).plan store table .null retries control).carryOut
            (Operation.write .delete).pageSize entries >>= fun _ => pure ()) := rfl

/-- Entries are deleted with pages of their requests only, if the store leaves none but these. -/
theorem sendsOnly_writeEntries (store : Store ω) (table : String) (entries : List Entry)
    (control : Control ω) :
    SendsOnly
      (fun method request => method = .writeBatch ∧
        ((Operation.write .delete).LeavesOwn store table entries →
          ∃ page, (Operation.write .delete).IsPage entries page ∧
            (Operation.write .delete).request table page = .ok request))
      (writeEntries store.journaled (.text table) Mode.delete.operation entries
        control.journaled) := by
  rw [writeEntries_delete]
  apply SendsOnly.bind
  · intro world
    exact ⟨[], (List.append_nil _).symm, fun _ member => by cases member⟩
  · intro answers
    apply (SendsOnly.lift _).bind
    intro retries
    exact (Operation.sendsOnly_carryOut entries).bind fun _ => SendsOnly.pure ()

/-- Once entries are deleted, the store accepted all of them. -/
theorem accepted_of_writeEntries {store : Store ω} {table : String} {entries : List Entry}
    {control : Control ω} (own : (Operation.write .delete).HandsBackOwn store table)
    {before after : Journaled ω Exchange}
    (run : (writeEntries store.journaled (.text table) Mode.delete.operation entries
      control.journaled).outcome before = (.ok (), after)) :
    ∃ calls, Event.calls after.2 = Event.calls before.2 ++ calls ∧
      (Operation.write .delete).acceptedClassesIn table calls = classesOf entries := by
  rw [writeEntries_delete, outcome_bind, Store.outcome_limit] at run
  obtain ⟨retries, _, allowed, run⟩ := (outcome_bind_eq_ok_iff _ _ _ _ _).mp run
  rw [outcome_lift, Prod.mk.injEq] at allowed
  obtain ⟨_, rfl⟩ := allowed
  obtain ⟨gathered, _, drained, run⟩ := (outcome_bind_eq_ok_iff _ _ _ _ _).mp run
  cases run
  have reached : Plan.Reaches _ (Operation.start (.write .delete) entries, _) _ :=
    Plan.reaches_of_drain_ok _ _ _ _ _ _ drained
  obtain ⟨calls, journal, balance⟩ := Operation.accepted_add_queued_of_reaches own reached
  refine ⟨calls, journal, ?_⟩
  rw [Operation.entries_start] at balance
  exact (add_zero _).symm.trans balance

theorem hasSettledMark_of_deleteEntries {keys : List Value} {entries : List Entry}
    (made : deleteEntries keys = .ok entries) (settled : HasSettledKeys keys) :
    ∀ entry ∈ entries, entry.HasSettledMark := by
  intro entry member value done
  have among : entry.native ∈ keys.map Mode.delete.request := by
    rw [← natives_of_deleteEntries made]
    exact List.mem_map_of_mem member
  obtain ⟨key, inside, same⟩ := List.mem_map.mp among
  exact settled key inside value (same ▸ done)

/-- How entries of native keys are deleted is told by the calls that are made for it. -/
theorem deletes_of_writeEntries {store : Store ω} {table : String} {keys : List Value}
    {entries : List Entry} {control : Control ω}
    (own : (Operation.write .delete).HandsBackOwn store table)
    (made : deleteEntries keys = .ok entries) (some : keys ≠ [])
    {before after : Journaled ω Exchange} {written : Except Fault Unit}
    (run : (writeEntries store.journaled (.text table) Mode.delete.operation entries
      control.journaled).outcome before = (written, after)) :
    ∃ writes, Event.calls after.2 = Event.calls before.2 ++ writes ∧
      Deletes table keys writes (written.map fun _ => entries.length) := by
  obtain ⟨added, journal, each⟩ := sendsOnly_writeEntries store table entries control before
  rw [run] at journal
  have calls : Event.calls after.2 = Event.calls before.2 ++ Event.calls added := by
    rw [journal, Event.calls_append]
  have natives := natives_of_deleteEntries made
  refine ⟨Event.calls added, calls, fun write member => (each write member).1,
    fun fault failed => ?_, fun none => absurd none some, fun number done => ?_,
    fun settled write member => ?_⟩
  · rw [← deleteEntries_eq_error_iff, made] at failed
    cases failed
  · cases written with
    | error fault => cases done
    | ok _ =>
        cases done
        obtain ⟨accepted, same, balance⟩ := accepted_of_writeEntries own run
        rw [calls, List.append_cancel_left_eq] at same
        rw [same, balance, classesOf, natives, ← List.length_map (f := Entry.native), natives,
          List.length_map]
        exact ⟨rfl, rfl⟩
  · obtain ⟨method, pages⟩ := each write member
    have leaves := Operation.leavesOwn_of_handsBackOwn own
      (hasSettledMark_of_deleteEntries made settled)
    obtain ⟨page, isPage, requested⟩ := pages leaves
    refine ⟨page, Operation.carries_of_request method isPage.within requested,
      List.length_pos_iff.mpr isPage.proper, ?_⟩
    rw [← natives]
    exact isPage.part

/-- How native keys are deleted is told by the calls that are made for it. -/
theorem deletes_of_outcome {store : Store ω} {table : String} {keys : List Value}
    {control : Control ω} (own : (Operation.write .delete).HandsBackOwn store table)
    {before after : Journaled ω Exchange} {result : Except Fault Nat}
    (run : (deleteNative store.journaled (.text table) keys control.journaled).outcome before =
      (result, after)) :
    ∃ writes, Event.calls after.2 = Event.calls before.2 ++ writes ∧
      Deletes table keys writes result := by
  rw [deleteNative, outcome_bind, outcome_lift] at run
  cases made : deleteEntries keys with
  | error fault =>
      rw [made] at run
      cases run
      refine ⟨[], (List.append_nil _).symm, nofun, fun other failed => ?_, fun _ => rfl, nofun,
        nofun⟩
      rw [← deleteEntries_eq_error_iff, made] at failed
      cases failed
      exact ⟨rfl, rfl⟩
  | ok entries =>
      rw [made] at run
      cases keys with
      | nil =>
          cases made
          cases run
          refine ⟨[], (List.append_nil _).symm, nofun, nofun, fun _ => rfl, fun number done => ?_,
            nofun⟩
          cases done
          exact ⟨rfl, rfl⟩
      | cons key rest =>
          have filled : entries.isEmpty = false := by
            have natives := natives_of_deleteEntries made
            cases entries with
            | nil => cases natives
            | cons => rfl
          simp only [filled, Bool.not_false, ↓reduceIte, outcome_bind, outcome_pure] at run
          rcases written : (writeEntries store.journaled (.text table) Mode.delete.operation entries
            control.journaled).outcome before with ⟨wrote, beside⟩
          have same : (result, after) = (wrote.map fun _ => entries.length, beside) := by
            rw [← run, written]
            cases wrote with
            | error fault | ok _ => rfl
          cases same
          exact deletes_of_writeEntries own made (List.cons_ne_nil key rest) written

end TokenTable.Batch
