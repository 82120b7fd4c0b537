import TokenTable.Session.Play

/-! # Sessions on a scripted store

Whoever works on a scripted store does two things: tell the script what to expect, and ask the
methods of the store. Any sequence of these deeds changes the script only (`play_deeds`). A call is
recorded, and it finds the oldest expectation that is pending, if there is any, whatever becomes
of the call (`Deed.conserved`). So what was queued is at any time what calls found, followed by what
is pending (`pending_foldl`). Main statement: `script_in_order`.
-/

namespace TokenTable

/-- A request is read back from the record of its arguments. -/
theorem Request.ofValue_record (request : Request) :
    ofValue (.record request) = .ok request := by
  rw [Value.record, ofValue]
  induction request with
  | nil => rfl
  | cons argument rest ih => exact (mapM_cons_eq_ok_iff _ _ _ _).mpr ⟨_, _, rfl, ih, rfl⟩

namespace Session

/-- A call of a method of a store by its name. The store's own name is no argument. -/
structure StoreCall where
  method : Method
  request : Request
  fits : request.any (·.1 == "self") = false

/-- What is done with a scripted store. -/
inductive Deed where
  | tell (command : ScriptCommand)
  | ask (call : StoreCall)

/-- The expectation that a command adds to the script, if it adds one. -/
def queuedBy : ScriptCommand → Option Expectation
  | .expect expectation => some expectation
  | .expectRead table items keys unprocessed =>
    (Script.expectedRead table items keys unprocessed).toOption
  | .expectWrite table requests unprocessed =>
    (Script.expectedWrite table requests unprocessed).toOption
  | .assertPlayed | .requests _ | .callsReceived => none

namespace Deed

def command : Deed → Command
  | .tell command => .script command
  | .ask call => .store (.call (.text call.method.name) (.record call.request))

/-- The expectation that a deed adds to the script. -/
def queued : Deed → List Expectation
  | .tell command => (queuedBy command).toList
  | .ask _ => []

/-- The call that a deed makes. -/
def recorded : Deed → List (String × Request)
  | .tell _ => []
  | .ask call => [(call.method.name, call.request)]

/-- The expectation that a deed finds: a call finds the oldest one, if any is pending. -/
def found (script : Script) : Deed → List Expectation
  | .tell _ => []
  | .ask _ => script.pending.head?.toList

/-- The script after a deed. -/
def after (script : Script) : Deed → Script
  | .tell command => (queuedBy command).elim script script.expect
  | .ask call => (script.answer call.method.name call.request).2

/-- A deed adds to the end of what is pending, and it takes what it finds from the front. -/
theorem conserved (script : Script) (deed : Deed) :
    script.pending ++ deed.queued = deed.found script ++ (deed.after script).pending := by
  cases deed with
  | tell command =>
      rw [queued, found, after]
      cases queuedBy command with
      | none => exact List.append_nil _
      | some expectation => rfl
  | ask call =>
      rw [queued, found, after, Script.pending_answer]
      cases script.pending <;> simp

theorem calls_after (script : Script) (deed : Deed) :
    (deed.after script).calls = script.calls ++ deed.recorded := by
  cases deed with
  | tell command =>
      rw [recorded, after]
      cases queuedBy command <;> exact (List.append_nil _).symm
  | ask call => exact Script.calls_answer script call.method.name call.request

end Deed

/-- The expectations that calls found, from a script on, in order. -/
def found (script : Script) : List Deed → List Expectation
  | [] => []
  | deed :: rest => deed.found script ++ found (deed.after script) rest

theorem found_append (script : Script) (deeds more : List Deed) :
    found script (deeds ++ more) =
      found script deeds ++ found (deeds.foldl Deed.after script) more := by
  induction deeds generalizing script with
  | nil => rfl
  | cons deed rest ih => rw [List.cons_append, found, ih, found, List.append_assoc, List.foldl_cons]

/-- What was pending and what was queued since was found in that order, or it is still pending. -/
theorem pending_foldl (script : Script) (deeds : List Deed) :
    script.pending ++ deeds.flatMap Deed.queued =
      found script deeds ++ (deeds.foldl Deed.after script).pending := by
  induction deeds generalizing script with
  | nil => exact List.append_nil _
  | cons deed rest ih =>
      calc script.pending ++ (deed :: rest).flatMap Deed.queued
        _ = deed.found script ++ ((deed.after script).pending ++ rest.flatMap Deed.queued) := by
          rw [List.flatMap_cons, ← List.append_assoc, deed.conserved, List.append_assoc]
        _ = found script (deed :: rest) ++ ((deed :: rest).foldl Deed.after script).pending := by
          rw [ih, found, List.append_assoc, List.foldl_cons]

theorem calls_foldl (script : Script) (deeds : List Deed) :
    (deeds.foldl Deed.after script).calls = script.calls ++ deeds.flatMap Deed.recorded := by
  induction deeds generalizing script with
  | nil => exact (List.append_nil _).symm
  | cons deed rest ih =>
      rw [List.foldl_cons, ih, deed.calls_after, List.flatMap_cons, List.append_assoc]

/-- A bench on which only the script was written and played so far. -/
abbrev scriptBench (script : Script) : Bench := .start (.scripted script)

/-- A method is called by its name with the arguments that a record holds. -/
theorem callByName_method {ω : Type} (venue : Venue ω) (store : Store ω) (method : Method)
    (request : Request) :
    callByName venue store (.text method.name) (.record request) = store.send method request := by
  apply Run.ext
  intro world
  simp only [callByName, Run.outcome_bind, Run.outcome_world, Member.ofName?_name, callMember,
    Request.ofValue_record, Run.outcome_lift, Store.send]

/-- A call of a method is answered by the script. -/
theorem outcome_ask (script : Script) (call : StoreCall) :
    (run false (Deed.ask call).command).outcome (scriptBench script) =
      ((script.answer call.method.name call.request).1,
        scriptBench (script.answer call.method.name call.request).2) := by
  have bare : ((Rehearsal.bareStore false).answer call.method call.request) =
      (Script.store.within Rehearsal.script fun script rehearsal =>
        { rehearsal with store := .scripted script }).answer call.method call.request :=
    if_neg (Bool.eq_false_iff.mp call.fits)
  change (callByName .bare (Venue.bare.store false) (.text call.method.name)
    (.record call.request)).outcome (scriptBench script) = _
  rw [callByName_method]
  change (((Rehearsal.bareStore false).answer call.method call.request).within Bench.rehearsal
    _).outcome (scriptBench script) = _
  rw [bare]
  rfl

/-- A command that makes an expectation adds it, unless it cannot be made. -/
theorem outcome_expect_made (script : Script) (made : Except Fault Expectation) :
    ((do
      let _ ← Rehearsal.requireScript
      Rehearsal.expect (← made)
      return Value.null : Run Rehearsal Value).outcome (.start (.scripted script))).2 =
        .start (.scripted (made.toOption.elim script script.expect)) := by
  cases made <;> rfl

/-- The script is asked whether all of it was played. -/
theorem outcome_assertPlayed (script : Script) :
    (run false (Deed.tell .assertPlayed).command).outcome (scriptBench script) =
      (script.assertPlayed.map fun _ => .null, scriptBench script) := by
  have asked : (runScript .assertPlayed).outcome (.start (.scripted script)) =
      (script.assertPlayed.map fun _ => .null, .start (.scripted script)) := by
    change (liftM script.assertPlayed >>= fun _ => pure .null : Run Rehearsal Value).outcome _ = _
    rw [Run.outcome_bind, Run.outcome_lift]
    cases script.assertPlayed <;> rfl
  exact congrArg (fun outcome => (outcome.1, Bench.mk outcome.2 [])) asked

theorem assertPlayed_eq_ok_iff (script : Script) :
    (∃ done, (script.assertPlayed.map fun _ => Value.null) = .ok done) ↔ script.pending = [] := by
  rw [Script.assertPlayed]
  cases script.pending <;> simp [Except.map]

/-- A command of the script adds what it queues. -/
theorem outcome_tell (script : Script) (command : ScriptCommand) :
    ((run false (Deed.tell command).command).outcome (scriptBench script)).2 =
      scriptBench ((Deed.tell command).after script) := by
  cases command with
  | expect expectation => rfl
  | expectRead => exact congrArg (Bench.mk · []) (outcome_expect_made script _)
  | expectWrite => exact congrArg (Bench.mk · []) (outcome_expect_made script _)
  | assertPlayed => exact congrArg Prod.snd (outcome_assertPlayed script)
  | requests method => rfl
  | callsReceived => rfl

theorem outcome_deed (script : Script) (deed : Deed) :
    ((run false deed.command).outcome (scriptBench script)).2 =
      scriptBench (deed.after script) := by
  cases deed with
  | tell command => exact outcome_tell script command
  | ask call => rw [outcome_ask]; rfl

/-- Deeds change the script of a bench only. -/
theorem play_deeds (script : Script) (deeds : List Deed) :
    (play false (deeds.map Deed.command) (scriptBench script)).2 =
      scriptBench (deeds.foldl Deed.after script) := by
  induction deeds generalizing script with
  | nil => rfl
  | cons deed rest ih =>
      rw [List.foldl_cons, ← ih, ← outcome_deed]
      rfl

/-- The bench after some deeds, when nothing was expected at first. -/
def benchAfter (deeds : List Deed) : Bench :=
  (play false (deeds.map Deed.command) (.start (.scripted .empty))).2

/-- What a call makes of the script, however it is answered. -/
structure StoreCall.Consumes (call : StoreCall) (script : Script) (answer : Except Fault Value)
    (after : Script) : Prop where
  recorded : after.calls = script.calls ++ [(call.method.name, call.request)]
  unexpected : script.pending = [] →
    answer = .error (.unexpectedCall call.method.name) ∧ after.pending = []
  oldest : ∀ expectation later, script.pending = expectation :: later →
    answer = Script.meet expectation call.method.name call.request ∧ after.pending = later

theorem consumes_answer (call : StoreCall) (script : Script) :
    call.Consumes script (script.answer call.method.name call.request).1
      (script.answer call.method.name call.request).2 where
  recorded := Script.calls_answer script call.method.name call.request
  unexpected none := by
    rw [Script.answer, none]
    exact ⟨rfl, rfl⟩
  oldest expectation later some := by
    rw [Script.answer, some]
    exact ⟨rfl, rfl⟩

/-- **A script is played in its order, one expectation for each call.** Let a scripted store be told
what to expect and be called, in any order. Then every call was recorded with its request. What was
queued is what calls found, in order, followed by what is pending. Nothing is said to be pending
exactly if calls found as many expectations as were queued. And whatever the next call is, it is
recorded: without a pending expectation it fails an assertion and takes nothing, and otherwise it
takes the oldest one, whether it meets it or not. -/
theorem script_in_order (deeds : List Deed) :
    (benchAfter deeds).script.calls = deeds.flatMap Deed.recorded ∧
      deeds.flatMap Deed.queued = found .empty deeds ++ (benchAfter deeds).script.pending ∧
      ((∃ done, ((run false (Deed.tell .assertPlayed).command).outcome (benchAfter deeds)).1 =
          .ok done) ↔
        (found .empty deeds).length = (deeds.flatMap Deed.queued).length) ∧
      ∀ call : StoreCall,
        ((run false (Deed.ask call).command).outcome (benchAfter deeds)).2 =
            benchAfter (deeds ++ [.ask call]) ∧
          found .empty (deeds ++ [.ask call]) =
            found .empty deeds ++ (benchAfter deeds).script.pending.head?.toList ∧
          call.Consumes (benchAfter deeds).script
            ((run false (Deed.ask call).command).outcome (benchAfter deeds)).1
            (benchAfter (deeds ++ [.ask call])).script := by
  have reached : ∀ deeds, benchAfter deeds = scriptBench (deeds.foldl Deed.after .empty) :=
    play_deeds .empty
  have queue := pending_foldl .empty deeds
  rw [reached]
  refine ⟨calls_foldl .empty deeds, queue, ?_, fun call => ?_⟩
  · have lengths : (deeds.flatMap Deed.queued).length = _ := congrArg List.length queue
    rw [List.length_append] at lengths
    rw [outcome_assertPlayed, assertPlayed_eq_ok_iff, ← List.length_eq_zero_iff]
    omega
  · rw [reached, List.foldl_append, outcome_ask, found_append]
    exact ⟨rfl, congrArg (_ ++ ·) (List.append_nil _), consumes_answer call _⟩

/-- A call of another method than the expected one uses up the expectation all the same. -/
example :
    let scan : Expectation := ⟨.text "scan", .anything, .null, .none⟩
    let bench := benchAfter [.tell (.expect scan), .ask ⟨.query, [], rfl⟩]
    bench.script.pending = [] ∧ bench.script.calls = [("query", [])] := ⟨rfl, rfl⟩

end Session

end TokenTable
