import TokenTable.Proofs.Client.Moves
import TokenTable.Proofs.Client.Sent
import TokenTable.Proofs.Fields

/-! # What a scan hands out

A scan may stop in the middle of a page and go on there. At each point it has some moves ahead of it
(`Ahead`). Asking for an item makes the moves up to the next item (`next_of_ahead`), so asking for a
number of items makes them up to the last of these (`pull_of_ahead`). Main statement: `scan_pages`.
-/

namespace TokenTable

open Run

variable {ω : Type}

namespace Scan

/-- The page that a store's answer holds. -/
def readPage (response : Value) : Except Fault Page := do
  let natives ← (← response.getD "Items" (.list [])).elements
  let resume ← response.get "LastEvaluatedKey"
  return ⟨natives, resume⟩

/-- From a world on, a store answers scans with some pages, one after another, whatever is
asked. -/
inductive AnsweredWith (store : Store ω) : List Page → ω → Prop
  | never (world : ω) : AnsweredWith store [] world
  | page (page : Page) (later : List Page) (response : Value) (world after : ω)
      (patient : later.length < store.patience world)
      (answered : ∀ request, (store.answer .scan request).outcome world = (.ok response, after))
      (read : readPage response = .ok page) (goesOn : AnsweredWith store later after) :
      AnsweredWith store (page :: later) world

/-- A request that says neither how many items a page may have nor where it starts. -/
structure IsBase (base : Request) : Prop where
  notLimit : "Limit" ∉ base.map Prod.fst
  notStart : "ExclusiveStartKey" ∉ base.map Prod.fst

theorem pageRequest_start {base : Request} (isBase : IsBase base) (limit : Option Nat) :
    (start base (limitValue limit)).pageRequest = requestOf base limit none := by
  cases limit with
  | none => simp [pageRequest, start, limitValue, Value.isNull, requestOf]
  | some n =>
      have written := upsertField_of_fresh (Value.int n) isBase.notLimit
      simp [pageRequest, start, limitValue, Value.isNull, requestOf, written]

/-- The request for the next page differs from the last one in what the limit leaves and where the
page starts only. -/
theorem pageRequest_resumed {base : Request} (isBase : IsBase base) {scan : Scan}
    {limit earlier : Option Nat} {start : Option Value} (resume : Value)
    (remaining : scan.remaining = limitValue limit)
    (written : scan.request = requestOf base earlier start)
    (alike : earlier.isSome = limit.isSome) :
    ({ scan with
        request := upsertField "ExclusiveStartKey" resume scan.request
        stage := .asking } : Scan).pageRequest = requestOf base limit (some resume) := by
  have resumed : upsertField "ExclusiveStartKey" resume scan.request =
      requestOf base earlier (some resume) := by
    have apart : "ExclusiveStartKey" ∉
        (base ++ earlier.toList.map fun n : Nat => ("Limit", Value.int n)).map Prod.fst := by
      cases earlier with
      | none => simpa using isBase.notStart
      | some n => simpa using isBase.notStart
    rw [written, requestOf, upsertField_append_of_fresh _ _ apart, requestOf]
    cases start <;> rfl
  rw [pageRequest, remaining, resumed]
  cases limit with
  | none =>
      rw [Option.isSome_none, Option.isSome_eq_false_iff, Option.isNone_iff_eq_none] at alike
      subst alike
      rfl
  | some n =>
      obtain ⟨m, rfl⟩ := Option.isSome_iff_exists.mp alike
      rw [limitValue, requestOf, List.append_assoc]
      simp only [Value.isNull, Bool.false_eq_true, ↓reduceIte]
      rw [upsertField_append_of_fresh _ _ isBase.notLimit, requestOf, List.append_assoc]
      rfl

/-- What a scan will do if it goes on to its end, as the store will answer. -/
inductive Ahead (store : Store ω) (base : Request) : Scan → ω → List Move → Prop
  | asking (scan : Scan) (limit : Option Nat) (resume : Option Value) (later : List Page)
      (world : ω) (stage : scan.stage = .asking) (remaining : scan.remaining = limitValue limit)
      (positive : outlasts limit 0 = true)
      (written : scan.pageRequest = requestOf base limit resume)
      (answered : AnsweredWith store later world) (linked : Linked later)
      (decodes : ∀ page ∈ later, Decodes page.natives) :
      Ahead store base scan world (moves base limit resume later)
  | reading (scan : Scan) (natives : List Value) (resume : Value) (limit earlier : Option Nat)
      (start : Option Value) (later : List Page) (world : ω)
      (stage : scan.stage = .reading natives resume)
      (remaining : scan.remaining = limitValue limit) (positive : outlasts limit 0 = true)
      (written : scan.request = requestOf base earlier start)
      (alike : earlier.isSome = limit.isSome) (answered : AnsweredWith store later world)
      (linked : if resume.isGiven then Linked later else later = [])
      (readable : Decodes natives) (decodes : ∀ page ∈ later, Decodes page.natives) :
      Ahead store base scan world
        (readMoves limit natives (moves base (less limit natives.length) (some resume) later))
  | counting (scan after : Scan) (natives : List Value) (resume : Value) (world : ω)
      (todo : List Move) (stage : scan.stage = .handed natives resume)
      (counted : scan.use natives resume = .ok after)
      (ahead : Ahead store base after world todo) : Ahead store base scan world todo
  | finished (scan : Scan) (world : ω) (stage : scan.stage = .finished) :
      Ahead store base scan world []

variable {store : Store ω} {base : Request}

/-- A native is counted: the page is read on if the limit leaves something. -/
theorem use_limitValue {scan : Scan} {limit : Option Nat}
    (remaining : scan.remaining = limitValue limit) (rest : List Value) (resume : Value) :
    scan.use rest resume = .ok (if outlasts limit 1 then
      { scan with remaining := limitValue (less limit 1), stage := .reading rest resume }
      else scan.finish) := by
  cases limit with
  | none =>
      obtain ⟨request, left, stage⟩ := scan
      cases remaining
      rfl
  | some n =>
      rw [use_int scan rest resume n remaining]
      by_cases last : n ≤ 1
      · have none : ¬ 1 < n := by omega
        have small : (n : Int) ≤ 1 := by omega
        simp [outlasts, none, small]
      · have more : 1 < n := by omega
        have large : ¬ (n : Int) ≤ 1 := by omega
        have left : (n : Int) - 1 = ((n - 1 : Nat) : Int) := by omega
        simp [outlasts, less, limitValue, more, large, left]

/-- Counting a native leads to what is done with the rest of the page. -/
theorem ahead_use (scan : Scan) {natives : List Value} {resume : Value}
    {limit earlier : Option Nat} {start : Option Value} {later : List Page} {world : ω}
    (remaining : scan.remaining = limitValue limit)
    (written : scan.request = requestOf base earlier start)
    (alike : earlier.isSome = limit.isSome) (answered : AnsweredWith store later world)
    (linked : if resume.isGiven then Linked later else later = [])
    (readable : Decodes natives) (decodes : ∀ page ∈ later, Decodes page.natives) :
    ∃ after, scan.use natives resume = .ok after ∧
      Ahead store base after world
        (if outlasts limit 1 then
          readMoves (less limit 1) natives
            (moves base (less limit (natives.length + 1)) (some resume) later)
          else []) := by
  refine ⟨_, use_limitValue remaining natives resume, ?_⟩
  by_cases more : outlasts limit 1 = true
  · rw [if_pos more, if_pos more]
    have same : less limit (natives.length + 1) = less (less limit 1) natives.length := by
      rw [less_less, Nat.add_comm]
    rw [same]
    refine .reading _ natives resume (less limit 1) earlier start later world rfl rfl ?_ written ?_
      answered linked readable decodes
    · rwa [outlasts_less]
    · rw [alike, less, Option.isSome_map]
  · rw [if_neg more, if_neg more]
    exact .finished _ world rfl

/-- After a native is counted the scan is finished, or reads on. -/
theorem stage_use {scan after : Scan} {natives : List Value} {resume : Value}
    (used : scan.use natives resume = .ok after) :
    after.stage = .finished ∨ after.stage = .reading natives resume := by
  rw [use] at used
  split at used
  · cases used
    exact Or.inr rfl
  · obtain ⟨remaining, _, used⟩ := (bind_eq_ok_iff _ _ _).mp used
    obtain ⟨last, _, used⟩ := (bind_eq_ok_iff _ _ _).mp used
    split at used
    · cases used
      exact Or.inl rfl
    · cases used
      exact Or.inr rfl

/-- The first thing to do is done if it hands out an item; else there is no item at hand, and the
next page has to be asked for, or the scan is finished. -/
inductive HandsOut (todo : List Move) : Option Value → Scan → List Move → Prop
  | item (found : Value) (after : Scan) (rest : List Move) (first : todo = .hands found :: rest) :
      HandsOut todo (some found) after rest
  | nothing (after : Scan) (stage : after.stage = .asking ∨ after.stage = .finished) :
      HandsOut todo none after todo

/-- Going through the natives of a page hands out the first item among them. -/
theorem exists_take {scan : Scan} {natives : List Value} {resume : Value}
    {limit earlier : Option Nat} {start : Option Value} {later : List Page} {world : ω}
    (remaining : scan.remaining = limitValue limit) (positive : outlasts limit 0 = true)
    (isBase : IsBase base) (written : scan.request = requestOf base earlier start)
    (alike : earlier.isSome = limit.isSome) (answered : AnsweredWith store later world)
    (linked : if resume.isGiven then Linked later else later = [])
    (readable : Decodes natives) (decodes : ∀ page ∈ later, Decodes page.natives) :
    ∃ item after rest, scan.take resume natives = .ok (item, after) ∧
      Ahead store base after world rest ∧
      HandsOut
        (readMoves limit natives (moves base (less limit natives.length) (some resume) later))
        item after rest := by
  induction natives generalizing scan limit with
  | nil =>
      have same : less limit ([] : List Value).length = limit := by cases limit <;> rfl
      rw [readMoves_nil positive, same]
      refine ⟨none, scan.turnPage resume, _, rfl, ?_, .nothing _ ?_⟩
      · unfold turnPage
        split at linked
        · rename_i given
          rw [if_pos given]
          exact .asking _ limit (some resume) later world rfl remaining positive
            (pageRequest_resumed isBase resume remaining written alike) answered linked decodes
        · rename_i ends
          rw [if_neg ends, linked]
          exact .finished _ world rfl
      · unfold turnPage
        split
        · exact Or.inl rfl
        · exact Or.inr rfl
  | cons native natives ih =>
      rw [Decodes, List.forall_mem_cons] at readable
      obtain ⟨⟨decoded, single⟩, readable⟩ := readable
      rw [readMoves_cons positive, List.length_cons]
      cases decoded with
      | some item =>
          let after : Scan := { scan with stage := .handed natives resume }
          obtain ⟨used, counted, ahead⟩ :=
            ahead_use after remaining written alike answered linked readable decodes
          refine ⟨some item, after, _, ?_, .counting after used natives resume world _ rfl counted
            ahead, .item item after _ ?_⟩
          · simp only [take, single, bind, Except.bind, pure, Except.pure, after]
          · rw [itemsOf_cons_some [] single]
            rfl
      | none =>
          have counted := use_limitValue remaining natives resume
          rw [itemsOf_cons_none [] single]
          by_cases more : outlasts limit 1 = true
          · rw [if_pos more] at counted ⊢
            have same : less limit (natives.length + 1) = less (less limit 1) natives.length := by
              rw [less_less, Nat.add_comm]
            have left : ({ scan with
                remaining := limitValue (less limit 1)
                stage := .reading natives resume } : Scan).remaining =
              limitValue (less limit 1) := rfl
            have still : outlasts (less limit 1) 0 = true := by rwa [outlasts_less]
            have limited : earlier.isSome = (less limit 1).isSome := by
              rw [alike, less, Option.isSome_map]
            obtain ⟨item, after, rest, taken, ahead, hands⟩ :=
              ih left still written limited readable
            rw [same]
            refine ⟨item, after, rest, ?_, ahead, hands⟩
            simpa only [take, single, counted, isFinished, bind, Except.bind, Bool.false_eq_true,
              ↓reduceIte] using taken
          · rw [if_neg more] at counted ⊢
            refine ⟨none, scan.finish, _, ?_, .finished _ world rfl, .nothing _ (Or.inr rfl)⟩
            simp only [take, single, counted, finish, isFinished, bind, Except.bind, pure,
              Except.pure, ↓reduceIte]

/-- What is at hand is handed out without asking the store. -/
theorem exists_step (isBase : IsBase base) {scan : Scan} {world : ω} {todo : List Move}
    (ahead : Ahead store base scan world todo) :
    ∃ item after rest, scan.step = .ok (item, after) ∧ Ahead store base after world rest ∧
      HandsOut todo item after rest := by
  induction ahead with
  | asking scan limit resume later world stage remaining positive written answered linked decodes =>
      refine ⟨none, scan, _, ?_, .asking scan limit resume later world stage remaining positive
        written answered linked decodes, .nothing scan (Or.inl stage)⟩
      rw [step, stage]
  | reading scan natives resume limit earlier start later world stage remaining positive written
      alike answered linked readable decodes =>
      obtain ⟨item, after, rest, taken, ahead, hands⟩ := exists_take remaining positive isBase
        written alike answered linked readable decodes
      refine ⟨item, after, rest, ?_, ahead, hands⟩
      rw [step, stage]
      exact taken
  | counting scan counted natives resume world todo stage used _ ih =>
      obtain ⟨item, after, rest, stepped, ahead, hands⟩ := ih
      refine ⟨item, after, rest, ?_, ahead, hands⟩
      rw [← stepped, step, stage]
      simp only [used, bind, Except.bind]
      rcases stage_use used with finished | read
      · simp [step, finished, isFinished, pure, Except.pure]
      · simp [step, read, isFinished]
  | finished scan world stage =>
      refine ⟨none, scan, _, ?_, .finished scan world stage, .nothing scan (Or.inr stage)⟩
      rw [step, stage]

/-- A request that is answered with a page is noted, and the page is read. -/
theorem outcome_ask_journaled {scan : Scan} {response : Value} {page : Page} {world after : ω}
    (serves : store.serves .scan = true)
    (answered : (store.answer .scan scan.pageRequest).outcome world = (.ok response, after))
    (read : readPage response = .ok page) (journal : List (Event Exchange)) :
    (scan.ask store.journaled).outcome (world, journal) =
      (.ok { scan with
          request := scan.pageRequest
          stage := .reading page.natives page.resume },
        (after, journal ++ [.called ⟨.scan, scan.pageRequest, .ok response⟩])) := by
  obtain ⟨items, found, read⟩ := (bind_eq_ok_iff _ _ _).mp read
  obtain ⟨natives, listed, read⟩ := (bind_eq_ok_iff _ _ _).mp read
  obtain ⟨resume, told, read⟩ := (bind_eq_ok_iff _ _ _).mp read
  cases read
  simp only [ask, outcome_bind, Store.outcome_send_journaled, serves, ↓reduceIte, answered,
    outcome_lift, found, listed, told, outcome_pure]

/-- The method and the request of each call. -/
def said (journal : List (Event Exchange)) : List (Method × Request) :=
  (Event.calls journal).map fun exchange => (exchange.method, exchange.request)

theorem said_append (first second : List (Event Exchange)) :
    said (first ++ second) = said first ++ said second := by
  rw [said, Event.calls_append, List.map_append]
  rfl

theorem Ahead.eq_nil_of_finished {scan : Scan} {world : ω} {todo : List Move}
    (ahead : Ahead store base scan world todo) (stage : scan.stage = .finished) : todo = [] := by
  cases ahead with
  | asking _ _ _ _ _ other | reading _ _ _ _ _ _ _ _ other | counting _ _ _ _ _ _ other =>
      rw [other] at stage
      cases stage
  | finished => rfl

/-- A scan that has to ask asks for the page that comes first. -/
theorem Ahead.ask {scan : Scan} {world : ω} {todo : List Move}
    (ahead : Ahead store base scan world todo) (stage : scan.stage = .asking)
    (serves : store.serves .scan = true) (journal : List (Event Exchange)) :
    ∃ request rest read after added, todo = .asks request :: rest ∧
      (scan.ask store.journaled).outcome (world, journal) =
        (.ok read, (after, journal ++ added)) ∧
      said added = [(.scan, request)] ∧ Ahead store base read after rest := by
  cases ahead with
  | reading _ _ _ _ _ _ _ _ other | counting _ _ _ _ _ _ other | finished _ _ other =>
      rw [other] at stage
      cases stage
  | asking _ limit resume later _ _ remaining positive written answered linked decodes =>
      cases answered with
      | never => cases linked
      | page page later response _ after patient answered read goesOn =>
          rw [List.forall_mem_cons] at decodes
          have asks := outcome_ask_journaled serves (answered scan.pageRequest) read journal
          refine ⟨_, _, _, after, _, rfl, asks, by rw [said]; simp [Event.calls, written], ?_⟩
          refine .reading _ page.natives page.resume limit limit resume later after rfl remaining
            positive written rfl goesOn linked decodes.1 decodes.2

theorem next_of_found {scan after : Scan} {item : Value}
    (stepped : scan.step = .ok (some item, after)) (store : Store ω) (fuel : Nat) (world : ω) :
    (scan.next store fuel).outcome world = (.ok (some item, after), world) := by
  rw [next.eq_def]
  simp [stepped]

theorem next_of_ended {scan after : Scan} (stepped : scan.step = .ok (none, after))
    (stage : after.stage = .finished) (store : Store ω) (fuel : Nat) (world : ω) :
    (scan.next store fuel).outcome world = (.ok (none, after), world) := by
  rw [next.eq_def]
  simp [stepped, isFinished, stage]

theorem next_of_asking {scan after read : Scan} {store : Store ω} {world middle : ω}
    (stepped : scan.step = .ok (none, after)) (stage : after.stage = .asking)
    (asks : (after.ask store).outcome world = (.ok read, middle)) (fuel : Nat) :
    (scan.next store (fuel + 1)).outcome world = (read.next store fuel).outcome middle := by
  rw [next]
  simp [stepped, isFinished, stage, asks]

/-- Asking for the next item asks for the pages up to it, and for no page more. The induction is on
the pages that may still be asked for. -/
theorem next_of_ahead (isBase : IsBase base) (serves : store.serves .scan = true) {scan : Scan}
    {world : ω} {todo : List Move} (ahead : Ahead store base scan world todo) {fuel : Nat}
    (enough : (asked todo).length ≤ fuel) (journal : List (Event Exchange)) :
    ∃ (requests : List Request) (item : Option Value) (after : Scan) (later : ω)
        (added : List (Event Exchange)) (rest : List Move),
      (scan.next store.journaled fuel).outcome (world, journal) =
          (.ok (item, after), (later, journal ++ added)) ∧
        said added = requests.map (Prod.mk .scan) ∧
        todo = requests.map .asks ++ (item.toList.map .hands ++ rest) ∧
        (item = none → rest = []) ∧ Ahead store base after later rest := by
  induction fuel using Nat.strongRecOn generalizing scan world todo journal with
  | _ fuel ih =>
      obtain ⟨item, after, rest, stepped, goesOn, hands⟩ := exists_step isBase ahead
      cases hands with
      | item found after rest first =>
          refine ⟨[], some found, after, world, [], rest, ?_, rfl, first, nofun, goesOn⟩
          rw [next_of_found stepped, List.append_nil]
      | nothing after stage =>
          rcases stage with asking | finished
          · obtain ⟨request, rest, read, middle, early, rfl, asks, calls, goesOn⟩ :=
              goesOn.ask asking serves journal
            cases fuel with
            | zero => cases enough
            | succ fuel =>
                obtain ⟨requests, item, last, later, added, todo, handed, others, rfl, ends,
                  ahead⟩ := ih fuel (Nat.lt_succ_self fuel) goesOn (Nat.le_of_succ_le_succ enough)
                    (journal ++ early)
                refine ⟨request :: requests, item, last, later, early ++ added, todo, ?_, ?_, rfl,
                  ends, ahead⟩
                · rw [next_of_asking stepped asking asks, handed, List.append_assoc]
                · rw [said_append, calls, others]
                  rfl
          · obtain rfl := goesOn.eq_nil_of_finished finished
            refine ⟨[], none, after, world, [], [], ?_, rfl, rfl, fun _ => rfl, goesOn⟩
            rw [next_of_ended stepped finished, List.append_nil]

/-- Asks a scan for its next item a number of times. -/
def pull (scan : Scan) (store : Store ω) (count : Nat) : Run ω (List (Option Value)) :=
  match count with
  | 0 => pure []
  | count + 1 => do
    let (item, after) ← scan.next store (← store.limit)
    return item :: (← after.pull store count)

theorem AnsweredWith.length_le {pages : List Page} {world : ω}
    (answered : AnsweredWith store pages world) : pages.length ≤ store.patience world := by
  cases answered with
  | never => exact Nat.zero_le _
  | page _ _ _ _ _ patient => exact patient

/-- The store will answer all that a scan asks. -/
theorem Ahead.length_asked_le {scan : Scan} {world : ω} {todo : List Move}
    (ahead : Ahead store base scan world todo) :
    (asked todo).length ≤ store.patience world + 1 := by
  induction ahead with
  | asking _ _ _ _ _ _ _ _ _ answered =>
      exact Nat.le_trans (length_asked_moves_le _ _ _) (Nat.le_succ_of_le answered.length_le)
  | reading _ _ _ _ _ _ _ _ _ _ _ _ _ answered =>
      apply Nat.le_trans (length_asked_readMoves_le _ _ _)
      exact Nat.le_trans (length_asked_moves_le _ _ _) (Nat.le_succ_of_le answered.length_le)
  | counting _ _ _ _ _ _ _ _ _ ih => exact ih
  | finished => exact Nat.zero_le _

/-- **A scan stops where the last item is handed out.** Asking for a number of items hands out the
first ones, and makes the requests up to the last of them. -/
theorem pull_of_ahead (isBase : IsBase base) (serves : store.serves .scan = true) {scan : Scan}
    {world : ω} {todo : List Move} (ahead : Ahead store base scan world todo) (count : Nat)
    (journal : List (Event Exchange)) :
    ∃ (after : ω) (added : List (Event Exchange)),
      (scan.pull store.journaled count).outcome (world, journal) =
          (.ok (((handed todo).take count).map some ++
            List.replicate (count - (handed todo).length) none), (after, journal ++ added)) ∧
        said added = (asked (cut count todo)).map (Prod.mk .scan) := by
  induction count generalizing scan world todo journal with
  | zero => exact ⟨world, [], by simp [pull], by rw [cut]; rfl⟩
  | succ count ih =>
      obtain ⟨requests, item, next, middle, early, rest, first, calls, rfl, ends, goesOn⟩ :=
        next_of_ahead isBase serves ahead ahead.length_asked_le journal
      obtain ⟨after, late, others, further⟩ := ih goesOn (journal ++ early)
      have limit : store.journaled.limit.outcome (world, journal) =
          (.ok (store.patience world + 1), (world, journal)) := rfl
      refine ⟨after, early ++ late, ?_, ?_⟩
      · simp only [pull, outcome_bind, limit, first, others, outcome_pure, List.append_assoc]
        cases item with
        | some found => simp
        | none =>
            rw [ends rfl]
            simp [List.replicate_succ]
      · rw [said_append, calls, further, cut_asks]
        cases item with
        | some found => simp [cut]
        | none =>
            rw [ends rfl]
            simp

end Scan

namespace Client

open Scan

theorem checkLimit_limitValue {limit : Option Nat} (positive : ∀ n, limit = some n → 0 < n) :
    checkLimit (limitValue limit) = .ok () := by
  cases limit with
  | none => rfl
  | some n =>
      have least := positive n rfl
      have more : n ≠ 0 := by omega
      simp [checkLimit, limitValue, Value.isNull, Value.isAtMost_int, bind, Except.bind, pure,
        Except.pure, more]

theorem isBase_scan {filter : Value} {conditions : Request} (table : Value)
    (filtered : conditionsNamed "ScanFilter" filter = .ok conditions) :
    IsBase (("TableName", table) :: conditions) := by
  rw [conditionsNamed] at filtered
  split at filtered
  · obtain ⟨native, _, filtered⟩ := (bind_eq_ok_iff _ _ _).mp filtered
    cases filtered
    exact ⟨by simp, by simp⟩
  · cases filtered
    exact ⟨by simp, by simp⟩

/-- **What a scan hands out, and what it asks for.** Let a store answer scans with pages that follow
one another and whose natives can be decoded. Then a scan hands out the items of the natives within
its limit, one for each that it is asked for, in order, and nothing after the last. The page at each
place is asked for as the first one is, but from where the page before it ends, and with what the
limit leaves after the natives of the pages before it. It is asked for exactly if more items are
wanted than those pages hold and the limit leaves something after them. -/
theorem scan_pages (store : Store ω) (table filter : Value) (limit : Option Nat)
    (conditions : Request) (pages : List Page) (world : ω) (count : Nat)
    (positive : ∀ n, limit = some n → 0 < n)
    (filtered : conditionsNamed "ScanFilter" filter = .ok conditions)
    (serves : store.serves .scan = true) (answered : AnsweredWith store pages world)
    (linked : Linked pages)
    (decodes : ∀ page ∈ pages, ∀ native ∈ page.natives, ∃ item, Item.decode native = .ok item) :
    ∃ (start : Scan) (items : List Value) (after : ω) (journal : List (Event Exchange))
        (number : Nat),
      Client.scan table filter (limitValue limit) = .ok start ∧
        Item.decodeAll (within limit (pages.flatMap Page.natives)) = .ok items ∧
        (start.pull store.journaled count).outcome (world, []) =
          (.ok ((items.take count).map some ++ List.replicate (count - items.length) none),
            (after, journal)) ∧
        said journal = ((List.range number).map
          (requestAt (("TableName", table) :: conditions) limit none pages)).map (Prod.mk .scan) ∧
        number ≤ pages.length ∧
        ∀ place < pages.length, place < number ↔
          (itemsOf (seen pages place)).length < count ∧
            ∀ n, limit = some n → (seen pages place).length < n := by
  have isBase := isBase_scan table filtered
  have leaves := (outlasts_iff limit 0).mpr positive
  have begun : Client.scan table filter (limitValue limit) =
      .ok (start (("TableName", table) :: conditions) (limitValue limit)) := by
    refine (bind_eq_ok_iff _ _ _).mpr ⟨(), checkLimit_limitValue positive, ?_⟩
    exact (bind_eq_ok_iff _ _ _).mpr ⟨conditions, filtered, rfl⟩
  have ahead : Ahead store (("TableName", table) :: conditions)
      (start (("TableName", table) :: conditions) (limitValue limit)) world
      (moves (("TableName", table) :: conditions) limit none pages) :=
    .asking _ limit none pages world rfl rfl leaves (pageRequest_start isBase limit) answered
      linked decodes
  obtain ⟨after, journal, pulled, calls⟩ := pull_of_ahead isBase serves ahead count []
  obtain ⟨number, inside, requests, needed⟩ := asked_cut_moves limit none pages count leaves
  have readable : Decodes (within limit (pages.flatMap Page.natives)) := by
    intro native member
    have whole : native ∈ pages.flatMap Page.natives := by
      cases limit with
      | none => exact member
      | some n => exact List.mem_of_mem_take member
    obtain ⟨page, present, among⟩ := List.mem_flatMap.mp whole
    exact decodes page present native among
  rw [handed_moves] at pulled
  rw [requests] at calls
  refine ⟨_, _, after, journal, number, begun, decodeAll_eq_ok readable, pulled, calls, inside, ?_⟩
  intro place within
  rw [needed place within, outlasts_iff]

/-- A store that gives some responses, one after another. -/
def givingStore : Store (List Value) where
  serves _ := true
  answer _ _ := .ofOutcome fun responses =>
    match responses with
    | [] => (.error .outOfPatience, [])
    | response :: rest => (.ok response, rest)
  patience := List.length

def pageResponse (natives : List Value) (resume : Value) : Value :=
  .record [("Items", .list natives), ("LastEvaluatedKey", resume)]

def textNative (s : String) : Value := .record [("id", .record [("S", .text s)])]

/-- Two pages, the first of which starts with a native that carries no item. -/
def twoPages : List Page :=
  [⟨[.map [], textNative "a"], textNative "a"⟩, ⟨[textNative "b", textNative "c"], .null⟩]

/-- A scan of two pages with a limit of three natives is asked for its second item, which is on the
second page. -/
theorem scan_twoPages :
    ∃ (start : Scan) (items : List Value) (after : List Value) (journal : List (Event Exchange))
        (number : Nat),
      Client.scan (.text "t") .null (limitValue (some 3)) = .ok start ∧
        Item.decodeAll (within (some 3) (twoPages.flatMap Page.natives)) = .ok items ∧
        (start.pull givingStore.journaled 2).outcome
            (twoPages.map fun page => pageResponse page.natives page.resume, []) =
          (.ok ((items.take 2).map some ++ List.replicate (2 - items.length) none),
            (after, journal)) ∧
        said journal = ((List.range number).map
          (requestAt [("TableName", .text "t")] (some 3) none twoPages)).map (Prod.mk .scan) ∧
        number ≤ twoPages.length ∧
        ∀ place < twoPages.length, place < number ↔
          (itemsOf (seen twoPages place)).length < 2 ∧
            ∀ n, some 3 = some n → (seen twoPages place).length < n := by
  apply scan_pages givingStore (.text "t") .null (some 3) [] twoPages _ 2 _ rfl rfl
  · refine .page _ _ (pageResponse _ _) _ _ (by decide) (fun _ => rfl) rfl ?_
    exact .page _ _ (pageResponse _ _) _ _ (by decide) (fun _ => rfl) rfl (.never _)
  · rfl
  · have text : ∀ s, ∃ item, Item.decode (textNative s) = .ok item := fun s => ⟨_, rfl⟩
    simp only [twoPages, List.forall_mem_cons, List.not_mem_nil, false_imp_iff, implies_true,
      and_true]
    exact ⟨⟨⟨none, rfl⟩, text "a"⟩, text "b", text "c"⟩
  · rintro n ⟨⟩
    decide

end Client

end TokenTable
