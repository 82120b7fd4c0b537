import Mathlib.Algebra.Ring.Int.Defs
import TokenTable.Proofs.Client.Scanned
import TokenTable.Proofs.Client.Sent
import TokenTable.Proofs.Fields

/-! # Counting page by page

A count asks for one page after another, each from where the page before it ends, until a page does
not say where the next one starts or a query fails (`queries`). It adds up what the pages count,
whatever the number of pages (`outcome_countPages`). Main statement: `count_pages`.
-/

namespace TokenTable

open Run

variable {ω : Type}

/-- Calls that a store answers one after another, from one world to another. -/
inductive Store.Answers (store : Store ω) : List Exchange → ω → ω → Prop
  | nil (world : ω) : Answers store [] world world
  | cons {exchange : Exchange} {later : List Exchange} {world middle after : ω}
      (answered : (store.answer exchange.method exchange.request).outcome world =
        (exchange.answer, middle))
      (goesOn : Answers store later middle after) : Answers store (exchange :: later) world after

namespace Client

/-- A response that counts a number of items: its count is a whole number, or it is absent and
stands for zero. -/
inductive Counts : Value → Int → Prop
  | absent {entries : Value.Entries} (missing : Value.lookup? entries (.text "Count") = none) :
      Counts (.map entries) 0
  | told {entries : Value.Entries} {v : Value} {n : Int}
      (held : Value.lookup? entries (.text "Count") = some v) (whole : v.whole? = some n) :
      Counts (.map entries) n

/-- Where a response says that the next page starts; null if it does not say. -/
def resumeOf : Value → Value
  | .map entries => (Value.lookup? entries (.text "LastEvaluatedKey")).getD .null
  | _ => .null

/-- A request for a page that starts somewhere. -/
def resumed (first : Request) (start : Option Value) : Request :=
  first ++ start.toList.map (Prod.mk "ExclusiveStartKey")

/-- The queries for the pages of a count and how they are answered: each differs from the first in
where its page starts only, which is where the response before it says. -/
def queries (first : Request) (start : Option Value) :
    List Value → Except Fault Value → List Exchange
  | [], last => [⟨.query, resumed first start, last⟩]
  | response :: later, last =>
    ⟨.query, resumed first start, .ok response⟩ ::
      queries first (some (resumeOf response)) later last

/-- The first request of a count. -/
def countRequest (table conditions index : Value) : Request :=
  [("TableName", table), ("KeyConditions", conditions), ("Select", .text "COUNT")] ++
    sentUnlessNull "IndexName" index

theorem upsertField_resumed {first : Request} (fresh : "ExclusiveStartKey" ∉ first.map Prod.fst)
    (start : Option Value) (resume : Value) :
    upsertField "ExclusiveStartKey" resume (resumed first start) = resumed first (some resume) := by
  rw [resumed, upsertField_append_of_fresh _ _ fresh]
  cases start <;> rfl

theorem wholeNumber_of_whole? {v : Value} {n : Int} (whole : v.whole? = some n) :
    v.wholeNumber = .ok n := by
  cases v with
  | int m =>
      cases whole
      rfl
  | bool b =>
      cases whole
      rfl
  | _ => cases whole

/-- A response that counts is a map, whose count is read as the number. -/
theorem Counts.exists_count {response : Value} {n : Int} (counts : Counts response n) :
    ∃ v, response.getD "Count" (.int 0) = .ok v ∧ v.wholeNumber = .ok n := by
  cases counts with
  | absent missing => exact ⟨.int 0, by rw [Value.getD_map, missing]; rfl, rfl⟩
  | @told _ v _ held whole =>
      exact ⟨v, by rw [Value.getD_map, held]; rfl, wholeNumber_of_whole? whole⟩

theorem Counts.resume {response : Value} {n : Int} (counts : Counts response n) :
    response.get "LastEvaluatedKey" = .ok (resumeOf response) := by
  cases counts <;> rfl

/-- A page that is counted is noted; then the next page is asked for, if there is one. -/
theorem outcome_countPages_succ {store : Store ω} {request : Request} {response : Value} {n : Int}
    {world middle : ω} (serves : store.serves .query = true) (counts : Counts response n)
    (answered : (store.answer .query request).outcome world = (.ok response, middle)) (pages : Nat)
    (total : Int) (journal : List (Event Exchange)) :
    (countPages store.journaled (pages + 1) request total).outcome (world, journal) =
      (if (resumeOf response).isGiven then
        countPages store.journaled pages
          (upsertField "ExclusiveStartKey" (resumeOf response) request) (total + n)
        else pure (total + n)).outcome
        (middle, journal ++ [.called ⟨.query, request, .ok response⟩]) := by
  obtain ⟨v, count, whole⟩ := counts.exists_count
  rw [countPages]
  simp only [outcome_bind, Store.outcome_send_noted serves answered, outcome_lift, count, whole,
    counts.resume]

/-- A query that fails is noted, and is the last. -/
theorem outcome_countPages_of_error {store : Store ω} {request : Request} {fault : Fault}
    {world after : ω} (serves : store.serves .query = true)
    (answered : (store.answer .query request).outcome world = (.error fault, after)) (pages : Nat)
    (total : Int) (journal : List (Event Exchange)) :
    (countPages store.journaled (pages + 1) request total).outcome (world, journal) =
      (.error fault, (after, journal ++ [.called ⟨.query, request, .error fault⟩])) := by
  rw [countPages]
  simp only [outcome_bind, Store.outcome_send_noted serves answered]

/-- Pages that are counted add up. The induction is on the pages before the last, and the total of
those already counted is carried along. -/
theorem outcome_countPages {store : Store ω} {first : Request}
    (fresh : "ExclusiveStartKey" ∉ first.map Prod.fst) (serves : store.serves .query = true)
    {responses : List Value} {counts : List Int} (counted : List.Forall₂ Counts responses counts)
    (given : ∀ response ∈ responses, (resumeOf response).isGiven = true) {last : Except Fault Value}
    {n : Int} (ends : ∀ response, last = .ok response →
      Counts response n ∧ (resumeOf response).isGiven = false)
    {world after : ω} {start : Option Value}
    (answers : store.Answers (queries first start responses last) world after) {pages : Nat}
    (enough : responses.length < pages) (total : Int) (journal : List (Event Exchange)) :
    (countPages store.journaled pages (resumed first start) total).outcome (world, journal) =
      (last.map fun _ => total + counts.sum + n,
        (after, journal ++ (queries first start responses last).map .called)) := by
  induction counted generalizing world start pages total journal with
  | nil =>
      obtain ⟨pages, rfl⟩ := Nat.exists_eq_succ_of_ne_zero (Nat.ne_of_gt enough)
      cases answers with
      | cons answered goesOn =>
          cases goesOn
          cases last with
          | error fault => exact outcome_countPages_of_error serves answered pages total journal
          | ok response =>
              obtain ⟨counts, final⟩ := ends response rfl
              rw [outcome_countPages_succ serves counts answered, final, List.sum_nil, Int.add_zero]
              rfl
  | @cons response count later counts single several ih =>
      rw [List.forall_mem_cons] at given
      obtain ⟨pages, rfl⟩ := Nat.exists_eq_succ_of_ne_zero (Nat.ne_of_gt (Nat.zero_lt_of_lt enough))
      cases answers with
      | cons answered goesOn =>
          rw [outcome_countPages_succ serves single answered, given.1, if_pos rfl,
            upsertField_resumed fresh, ih given.2 goesOn (Nat.lt_of_succ_lt_succ enough),
            List.sum_cons, queries, List.map_cons, List.append_assoc, ← Int.add_assoc total]
          rfl

theorem fresh_countRequest (table conditions index : Value) :
    "ExclusiveStartKey" ∉ (countRequest table conditions index).map Prod.fst := by
  rw [countRequest, sentUnlessNull, optional]
  split <;> simp

/-- **A count adds up all pages.** Let conditions be given and translated, and let a store answer
queries with responses that count, each of which says where the next page starts, until one does not
say so or a query fails. Then a count makes just these queries, one for each page, which differ from
the first in where the page starts only. It returns the sum of the counts, or fails as the last
query did. -/
theorem count_pages (client : Client ω) (table conditions index native : Value)
    (responses : List Value) (counts : List Int) (last : Except Fault Value) (n : Int)
    (world after : ω) (journal : List (Event Exchange)) (given : conditions.isGiven = true)
    (translated : Condition.toNativeAll conditions = .ok native)
    (serves : client.store.serves .query = true)
    (patient : responses.length ≤ client.store.patience world)
    (counted : List.Forall₂ Counts responses counts)
    (goesOn : ∀ response ∈ responses, (resumeOf response).isGiven = true)
    (ends : ∀ response, last = .ok response →
      Counts response n ∧ (resumeOf response).isGiven = false)
    (answers : client.store.Answers
      (queries (countRequest table native index) none responses last) world after) :
    (client.journaled.count table conditions index).outcome (world, journal) =
      (last.map fun _ => counts.sum + n, (after, journal ++
        (queries (countRequest table native index) none responses last).map .called)) := by
  have pages := outcome_countPages (fresh_countRequest table native index) serves counted goesOn
    ends answers (Nat.lt_succ_of_le patient) 0 journal
  rw [resumed, Option.toList_none, List.map_nil, List.append_nil, Int.zero_add] at pages
  rw [count, given]
  simp only [Bool.not_true, Bool.false_eq_true, ↓reduceIte, outcome_bind, outcome_lift, translated,
    Store.outcome_limit]
  exact pages

/-- A client of a store that gives some responses, one after another. -/
def countingClient : Client (List Value) where
  store := givingStore
  retries := .int 0
  pause := none
  clock _ := .one
  waitTimeout := .int 0
  pollInterval := .int 0

/-- The condition that an attribute is a text. -/
def isText (s : String) : Value :=
  .record [("ComparisonOperator", .text "EQ"),
    ("AttributeValueList", .list [.record [("S", .text s)]])]

/-- A page without a count is followed by one that counts three. -/
theorem count_twoPages :
    (countingClient.journaled.count (.text "t") (.map [(.text "id", .text "a")]) .null).outcome
        ([.record [("LastEvaluatedKey", textNative "a")], .record [("Count", .int 3)]], []) =
      (.ok 3, ([], (queries (countRequest (.text "t") (.record [("id", isText "a")]) .null) none
        [.record [("LastEvaluatedKey", textNative "a")]]
        (.ok (.record [("Count", .int 3)]))).map .called)) := by
  refine count_pages countingClient (.text "t") (.map [(.text "id", .text "a")]) .null
    (.record [("id", isText "a")]) [.record [("LastEvaluatedKey", textNative "a")]] [0]
    (.ok (.record [("Count", .int 3)])) 3 _ _ [] rfl rfl rfl (by decide) ?_ ?_ ?_ ?_
  · exact .cons (.absent rfl) .nil
  · exact List.forall_mem_singleton.mpr rfl
  · rintro _ ⟨⟩
    exact ⟨.told rfl rfl, rfl⟩
  · exact .cons rfl (.cons rfl (.nil _))

/-- An empty map of conditions is translated, but a count on it asks for no page. -/
theorem count_without_conditions :
    Condition.toNativeAll (.map []) = .ok (.record []) ∧
      Counts (.map []) 0 ∧ (resumeOf (.map [])).isGiven = false ∧
      (countingClient.journaled.count (.text "t") (.map []) .null).outcome ([.map []], []) =
        (.error (.noKeyCondition "count"), ([.map []], [])) :=
  ⟨rfl, .absent rfl, rfl, rfl⟩

end Client

end TokenTable
