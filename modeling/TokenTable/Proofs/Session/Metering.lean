import TokenTable.Proofs.Session.Alike

/-! # Metered sessions

A session on a metered store goes as it does on the bare one, and each of its steps leaves a metric
of every call that reached the store, in order (`metering_transparent`). Which calls these are is
told by a third venue that notes every call with its answer, and that both benches are compared with
(`exists_noted`). No call that the store records is missing from the notes: made once more on the
bare store, the noted calls leave the record that the step left (`Venue.Notes`).
-/

namespace TokenTable

/-- A call that reached what a store has under a name, and how it was answered. -/
structure NamedCall where
  name : String
  request : Request
  answer : Except Fault Value

namespace NamedCall

/-- The metric of a call: it is well if the call returned a value, and not if it raised a fault. -/
def metric (service : String) (call : NamedCall) : Metric :=
  match call.answer with
  | .ok _ => ⟨service, call.name, true⟩
  | .error _ => ⟨service, call.name, false⟩

theorem metric_answered (service name : String) (request : Request)
    (answer : Except Fault Value) :
    metric service ⟨name, request, answer⟩ = ⟨service, name, Store.succeeded answer⟩ := by
  cases answer with
  | error | ok => rfl

/-- The rehearsal after a call is made once more on the bare store. A call of the script is left
out. -/
def replay (rehearsal : Rehearsal) (call : NamedCall) : Rehearsal :=
  match Method.ofName? call.name with
  | some method =>
    (((Rehearsal.bareStore rehearsal.isEchoing).answer method call.request).outcome rehearsal).2
  | none => rehearsal

theorem replay_method (rehearsal : Rehearsal) (method : Method) (request : Request)
    (answer : Except Fault Value) :
    replay rehearsal ⟨method.name, request, answer⟩ =
      { rehearsal with store := rehearsal.store.afterCall method request } := by
  simp only [replay, Method.ofName?_name, Rehearsal.outcome_bareStore]

theorem replay_script {name : String} (free : Method.ofName? name = none) (rehearsal : Rehearsal)
    (request : Request) (answer : Except Fault Value) :
    replay rehearsal ⟨name, request, answer⟩ = rehearsal := by
  simp only [replay, free]

end NamedCall

namespace Venue

/-- A rehearsal with a list beside it, in which every call that reaches the store is noted with its
answer. -/
def noted : Venue (Rehearsal × List NamedCall) where
  rehearsal := Prod.fst
  replace rehearsal world := (rehearsal, world.2)
  around name request call := .ofOutcome fun world =>
    let (answer, after) := call.outcome world
    (answer, (after.1, after.2 ++ [⟨name, request, answer⟩]))

/-- Metering a session is noting its calls and keeping the metric of each. -/
theorem metered_alike_noted (service : String) (metrics : List Metric) :
    (metered service).Alike
      (fun bench world =>
        bench = ⟨world.1, metrics ++ world.2.map (NamedCall.metric service)⟩) noted := by
  apply alike_of_around
  · rintro _ world rfl
    rfl
  · rintro after _ world rfl
    rfl
  · intro name request call call' same bench world related
    obtain ⟨answered, kept⟩ := same bench world related
    refine ⟨answered, ?_⟩
    simp only [metered, Store.measured, noted, Run.outcome_ofOutcome, Bench.record, kept, answered,
      List.map_append, List.map_cons, List.map_nil, List.append_assoc, NamedCall.metric_answered]

/-- A bench and a rehearsal with notes beside it: the rehearsal is the bench's, and its store has
the record that the noted calls leave if they are made once more from a start. -/
structure Notes (metrics : List Metric) (start : Rehearsal) (bench : Bench)
    (world : Rehearsal × List NamedCall) : Prop where
  isBench : bench = ⟨world.1, metrics⟩
  isEchoing : world.1.isEchoing = start.isEchoing
  record : world.1.store.record = (world.2.foldl NamedCall.replay start).store.record

section

variable {α : Type} {metrics : List Metric} {start : Rehearsal}

/-- Calls of the store are noted as the store records them. -/
theorem store_alike_noted :
    (bare.store start.isEchoing).Alike (Notes metrics start) (noted.store start.isEchoing) where
  serves := rfl
  answer method request := by
    rintro _ ⟨rehearsal, notes⟩ ⟨rfl, kind, record⟩
    have called := rehearsal.outcome_bareStore method request
    rw [kind] at called
    refine ⟨rfl, rfl, ?_, ?_⟩
    · exact (congrArg Rehearsal.isEchoing called).trans
        ((rehearsal.isEchoing_afterCall method request).trans kind)
    · change RehearsalStore.record (Rehearsal.store _) =
        (List.foldl NamedCall.replay start (notes ++ [⟨method.name, request, _⟩])).store.record
      rw [List.foldl_append, List.foldl_cons, List.foldl_nil, NamedCall.replay_method]
      exact (congrArg (fun after => after.store.record) called).trans
        (RehearsalStore.record_afterCall record method request)
  patience := by
    rintro _ world ⟨rfl, _⟩
    rfl

/-- Work beside the store is not noted, and leaves no record. -/
theorem Notes.aside {rehearsal : Rehearsal} {notes : List NamedCall} {action : Run Rehearsal α}
    (held : Notes metrics start ⟨rehearsal, metrics⟩ (rehearsal, notes))
    (aside : Rehearsal.Aside action) :
    Notes metrics start ⟨(action.outcome rehearsal).2, metrics⟩
      ((action.outcome rehearsal).2, notes) := by
  obtain ⟨-, -, same⟩ := aside _ rehearsal rehearsal ⟨rfl, rfl⟩
  exact ⟨rfl, (Rehearsal.isEchoing_of_record same).trans held.isEchoing, same.trans held.record⟩

/-- A bare session does what it does if its calls are noted, and the notes hold what the store
records. -/
theorem bare_alike_noted : bare.Alike (Notes metrics start) noted where
  rehearsal := by
    rintro _ world ⟨rfl, _⟩
    rfl
  store := by
    rintro _ world ⟨rfl, kind, _⟩
    change (bare.store world.1.isEchoing).Alike _ (noted.store world.1.isEchoing)
    rw [kind]
    exact store_alike_noted
  here action aside := by
    rintro _ ⟨rehearsal, notes⟩ held
    obtain rfl := held.isBench
    exact ⟨rfl, held.aside aside⟩
  script name arguments action free aside := by
    rintro _ ⟨rehearsal, notes⟩ held
    obtain rfl := held.isBench
    obtain ⟨-, kind, record⟩ := held.aside aside
    refine ⟨rfl, rfl, kind, ?_⟩
    change _ = (List.foldl NamedCall.replay start (notes ++ [⟨name, arguments, _⟩])).store.record
    rw [List.foldl_append, List.foldl_cons, List.foldl_nil, NamedCall.replay_script free]
    exact record

end

end Venue

namespace Session

/-- A step ends alike at all three venues. The metered bench adds the metrics of the calls that are
noted, and these calls leave the same record if they are made once more. -/
theorem exists_noted (service : String) (command : Command) (rehearsal : Rehearsal)
    (metrics others : List Metric) :
    ∃ answer after calls,
      (runAt .noted command).outcome (rehearsal, []) = (answer, after, calls) ∧
      (runAt (.metered service) command).outcome ⟨rehearsal, metrics⟩ =
        (answer, ⟨after, metrics ++ calls.map (NamedCall.metric service)⟩) ∧
      (runAt .bare command).outcome ⟨rehearsal, others⟩ = (answer, ⟨after, others⟩) ∧
      after.store.record = (calls.foldl NamedCall.replay rehearsal).store.record := by
  obtain ⟨meteredAnswer, meteredKept⟩ :=
    runAt_alike (Venue.metered_alike_noted service metrics) command ⟨rehearsal, metrics⟩
      (rehearsal, []) (by rw [List.map_nil, List.append_nil])
  obtain ⟨bareAnswer, bareKept, -, record⟩ :=
    runAt_alike Venue.bare_alike_noted command ⟨rehearsal, others⟩ (rehearsal, []) ⟨rfl, rfl, rfl⟩
  exact ⟨_, _, _, rfl, Prod.ext meteredAnswer meteredKept, Prod.ext bareAnswer bareKept, record⟩

/-- A metered and a bare session answer the same and leave the same rehearsal. -/
theorem playAt_metered (service : String) (commands : List Command) (rehearsal : Rehearsal)
    (metrics others : List Metric) :
    (playAt (.metered service) commands ⟨rehearsal, metrics⟩).1 =
        (playAt .bare commands ⟨rehearsal, others⟩).1 ∧
      (playAt (.metered service) commands ⟨rehearsal, metrics⟩).2.rehearsal =
        (playAt .bare commands ⟨rehearsal, others⟩).2.rehearsal := by
  induction commands generalizing rehearsal metrics others with
  | nil => exact ⟨rfl, rfl⟩
  | cons command rest ih =>
      obtain ⟨answer, after, calls, -, metered, bare, -⟩ :=
        exists_noted service command rehearsal metrics others
      simp only [playAt, metered, bare]
      obtain ⟨answers, last⟩ := ih after (metrics ++ calls.map (NamedCall.metric service)) others
      exact ⟨congrArg _ answers, last⟩

/-- **Metering is transparent.** After any commands, a session on the metered store has answered
what it answers on the bare store and has left the same rehearsal: the store with the calls it
recorded, the pauses, the clock, the tokens and the scans. The same holds of the next step. This
step emits the metrics of the calls that reach the store in it, in their order; and made once more
on the bare store, these calls leave the record that the step left. -/
theorem metering_transparent (service : String) (earlier : List Command) (command : Command)
    (bench : Bench) :
    let metered := playAt (.metered service) earlier bench
    let bare := playAt .bare earlier bench
    let meteredStep := (runAt (.metered service) command).outcome metered.2
    let bareStep := (runAt .bare command).outcome bare.2
    metered.1 = bare.1 ∧ metered.2.rehearsal = bare.2.rehearsal ∧
      meteredStep.1 = bareStep.1 ∧ meteredStep.2.rehearsal = bareStep.2.rehearsal ∧
      ∃ calls, (runAt .noted command).outcome (bare.2.rehearsal, []) =
          (bareStep.1, bareStep.2.rehearsal, calls) ∧
        meteredStep.2.metrics = metered.2.metrics ++ calls.map (NamedCall.metric service) ∧
        bareStep.2.rehearsal.store.record =
          (calls.foldl NamedCall.replay bare.2.rehearsal).store.record := by
  intro metered bare meteredStep bareStep
  obtain ⟨answers, same⟩ :=
    playAt_metered service earlier bench.rehearsal bench.metrics bench.metrics
  change metered.2.rehearsal = bare.2.rehearsal at same
  obtain ⟨answer, after, calls, noted, stepped, bareStepped, record⟩ :=
    exists_noted service command bare.2.rehearsal metered.2.metrics bare.2.metrics
  rw [← same] at stepped
  change meteredStep = _ at stepped
  change bareStep = _ at bareStepped
  rw [stepped, bareStepped]
  exact ⟨answers, same, rfl, rfl, calls, noted, rfl, record⟩

/-- The first of two calls is expected, and the other is not. -/
example :
    (play true
      [.script (.expect ⟨.text "get_item", .anything, .null, .none⟩),
        .store (.call (.text "get_item") (.map [])), .store (.call (.text "get_item") (.map []))]
      (.start (.scripted .empty))).2.metrics =
    [⟨"dynamodb", "get_item", true⟩, ⟨"dynamodb", "get_item", false⟩] := rfl

end Session

end TokenTable
