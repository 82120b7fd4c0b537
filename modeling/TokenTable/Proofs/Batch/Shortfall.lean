import TokenTable.Proofs.Batch.Conservation

/-! # What a batch that gives up reports

A batch gives up when a page has something left after its last retry. It reports what is left of
that page, and nothing of the pages that were not sent yet. So what it reports completes what was
accepted exactly when no page was to come (`unprocessed_of_partialBatch`).
-/

namespace TokenTable.Batch.Operation

variable {ω : Type}

/-- A batch that gives up reports what is left of one of its pages. This, what was accepted, and all
that comes after the page are the caller's entries. -/
theorem exists_page_of_partialBatch {operation : Operation} {store : Store ω} {table : String}
    {items : Value} {control : Control ω} {entries : List Entry}
    (translates : operation.entriesOf items = .ok entries) (honest : operation.Honest store table)
    (own : OwnFaults store operation.method control) {world after : ω} {name : String}
    {unprocessed reported : List Value}
    (failed : (operation.perform store table items control).outcome world =
      (.error (.partialBatch name unprocessed reported), after)) :
    ∃ n left, left ≠ [] ∧ left.Subperm (nthSlice operation.pageSize entries n) ∧
      unprocessed = left.map Entry.source ∧ left.Subperm entries ∧
      operation.acceptedBy store table items control world + marksOf left +
        marksOf (entries.drop ((n + 1) * operation.pageSize)) = marksOf entries := by
  have report : ¬ (Fault.partialBatch name unprocessed reported).Ordinary := by
    simp [Fault.Ordinary, Fault.endsBatch]
  obtain ⟨page, later, gathered, middle, journal, passes, cancelled | exhausted⟩ :=
    passes_of_report translates own report failed
  · obtain ⟨_, _, _, same⟩ := cancelled
    cases same
  obtain ⟨exchange, reply, left, _, exchanged, calls, given, matched, _, same⟩ := exhausted
  cases same
  have conserved := conserved_of_passes translates honest passes
  have balance := conserved.balance
  rw [marksOf_cons] at balance
  have pageWithin : page.entries.Subperm entries := by
    have queued := conserved.trimmed.subperm operation.pageSize_pos
    rw [List.flatMap_cons] at queued
    exact (List.sublist_append_left _ _).subperm.trans queued
  have plain := fun entry member =>
    hasPlainMark_of_entriesOf translates entry (pageWithin.subset member)
  obtain ⟨part, shared⟩ := left_of_exchanged honest plain exchanged matched
  obtain ⟨n, within, rest⟩ : ∃ n, page.entries.Subperm (nthSlice operation.pageSize entries n) ∧
      later.flatMap Page.entries = entries.drop ((n + 1) * operation.pageSize) := by
    cases conserved.trimmed with
    | under n _ within =>
        refine ⟨n, within, ?_⟩
        rw [flatMap_entries_untried, flatten_drop_slicesOf _ _ operation.pageSize_pos]
  refine ⟨n, left, ne_nil_of_remainder given matched, part.trans within, rfl,
    part.trans pageWithin, ?_⟩
  rw [acceptedBy, calls, acceptedIn_append, add_assoc (operation.acceptedIn table _), shared,
    add_assoc, ← rest]
  exact balance

/-- A part of some entries and the entries from a place on are all of them exactly when the part is
already, and nothing comes from that place on. -/
theorem eq_marksOf_iff {part : Multiset (Option Value)} {entries : List Entry} {place : Nat}
    (whole : part + marksOf (entries.drop place) = marksOf entries) :
    part = marksOf entries ↔ entries.length ≤ place := by
  constructor
  · intro enough
    rw [enough] at whole
    have none := left_eq_add.mp whole.symm
    have count : (entries.drop place).length = 0 := by
      have size := congrArg Multiset.card none
      rwa [marksOf, marks, Multiset.coe_card, List.length_map, List.length_map] at size
    rw [List.length_drop] at count
    exact Nat.le_of_sub_eq_zero count
  · intro short
    rw [List.drop_eq_nil_of_le short] at whole
    have none : marksOf [] = 0 := rfl
    rwa [none, add_zero] at whole

/-- **What a batch that gives up reports.** It reports what is left of one of its pages, as maps of
the caller that make the same entries once more. These, what was accepted, and all that comes after
the page are the caller's entries; the report by itself completes what was accepted exactly when
nothing comes after the page. -/
theorem unprocessed_of_partialBatch (operation : Operation) (store : Store ω) (table : String)
    (items : Value) (control : Control ω) (entries : List Entry)
    (translates : operation.entriesOf items = .ok entries) (honest : operation.Honest store table)
    (own : OwnFaults store operation.method control) (world after : ω) (name : String)
    (unprocessed reported : List Value)
    (failed : (operation.perform store table items control).outcome world =
      (.error (.partialBatch name unprocessed reported), after)) :
    ∃ n left, left ≠ [] ∧ left.Subperm (nthSlice operation.pageSize entries n) ∧
      unprocessed = left.map Entry.source ∧ operation.entriesOf (.list unprocessed) = .ok left ∧
      operation.acceptedBy store table items control world + marksOf left +
          marksOf (entries.drop ((n + 1) * operation.pageSize)) = marksOf entries ∧
      (operation.acceptedBy store table items control world + marksOf left = marksOf entries ↔
        entries.length ≤ (n + 1) * operation.pageSize) := by
  obtain ⟨n, left, proper, within, rfl, part, whole⟩ :=
    exists_page_of_partialBatch translates honest own failed
  have again := entriesOf_sources translates part
  exact ⟨n, left, proper, within, rfl, again, whole, eq_marksOf_iff whole⟩

def numbered (count : Nat) : Value :=
  .list ((List.range count).map fun n => .map [(.text "id::N", .int n)])

def gaveUp (count : Nat) : Except Fault (List Value) → Bool
  | .error (.partialBatch _ unprocessed _) => unprocessed.length == count
  | _ => false

theorem exists_of_gaveUp {count : Nat} {ending : Except Fault (List Value)}
    (gives : gaveUp count ending = true) : ∃ name unprocessed reported,
      ending = .error (.partialBatch name unprocessed reported) ∧ unprocessed.length = count := by
  cases ending with
  | ok result => cases gives
  | error fault =>
      cases fault with
      | partialBatch name unprocessed reported =>
          exact ⟨name, unprocessed, reported, rfl, beq_iff_eq.mp gives⟩
      | _ => cases gives

/-- Writes items under whole numbers, without retries, to a store with a schedule. -/
def writeNumbered (count : Nat) (schedule : List Nat) : Except Fault (List Value) × List Nat :=
  ((write .put).perform ((write .put).scheduledStore "t") "t" (numbered count)
    ⟨.int 0, none, none⟩).outcome schedule

/-- A batch of one page that gives up reports all that was not accepted. -/
theorem unprocessed_of_one_page :
    ∃ entries name unprocessed reported after left,
      (write .put).entriesOf (numbered 2) = .ok entries ∧
      writeNumbered 2 [1] = (.error (.partialBatch name unprocessed reported), after) ∧
      (write .put).entriesOf (.list unprocessed) = .ok left ∧
      (write .put).acceptedBy ((write .put).scheduledStore "t") "t" (numbered 2)
        ⟨.int 0, none, none⟩ [1] + marksOf left = marksOf entries := by
  obtain ⟨entries, translates⟩ : ∃ entries, (write .put).entriesOf (numbered 2) = .ok entries :=
    exists_of_isOk (by decide +kernel)
  obtain ⟨name, unprocessed, reported, gives, _⟩ : ∃ name unprocessed reported,
      (writeNumbered 2 [1]).1 = .error (.partialBatch name unprocessed reported) ∧
        unprocessed.length = 1 := exists_of_gaveUp (by decide +kernel)
  have failed : writeNumbered 2 [1] = (.error (.partialBatch name unprocessed reported), _) :=
    Prod.ext gives rfl
  obtain ⟨n, left, _, _, _, again, _, complete⟩ :=
    unprocessed_of_partialBatch (write .put) _ "t" (numbered 2) ⟨.int 0, none, none⟩ entries
      translates (honest_scheduledStore _ _) (ownFaults_scheduledStore _ _ _) [1] _ name unprocessed
      reported failed
  have count : entries.length = 2 := by
    have listed := Except.ok.inj (elements_of_entriesOf translates)
    simpa [numbered] using congrArg List.length listed.symm
  have last : entries.length ≤ (n + 1) * (write .put).pageSize := by
    have size : (write .put).pageSize = 25 := rfl
    rw [count, size]
    omega
  exact ⟨entries, name, unprocessed, reported, _, left, translates, failed, again,
    complete.mpr last⟩

/-- A batch of two pages that gives up the first does not report the second, which was not
accepted. -/
theorem unprocessed_of_two_pages :
    ∃ entries name unprocessed reported after left,
      (write .put).entriesOf (numbered 26) = .ok entries ∧
      writeNumbered 26 [2] = (.error (.partialBatch name unprocessed reported), after) ∧
      (write .put).entriesOf (.list unprocessed) = .ok left ∧
      (write .put).acceptedBy ((write .put).scheduledStore "t") "t" (numbered 26)
        ⟨.int 0, none, none⟩ [2] + marksOf left ≠ marksOf entries := by
  obtain ⟨entries, translates⟩ : ∃ entries, (write .put).entriesOf (numbered 26) = .ok entries :=
    exists_of_isOk (by decide +kernel)
  obtain ⟨name, unprocessed, reported, gives, two⟩ : ∃ name unprocessed reported,
      (writeNumbered 26 [2]).1 = .error (.partialBatch name unprocessed reported) ∧
        unprocessed.length = 2 := exists_of_gaveUp (by decide +kernel)
  have failed : writeNumbered 26 [2] = (.error (.partialBatch name unprocessed reported), _) :=
    Prod.ext gives rfl
  obtain ⟨n, left, _, within, rfl, part, whole⟩ :=
    exists_page_of_partialBatch translates (honest_scheduledStore _ _)
      (ownFaults_scheduledStore _ _ _) failed
  have size : (write .put).pageSize = 25 := rfl
  have count : entries.length = 26 := by
    have listed := Except.ok.inj (elements_of_entriesOf translates)
    simpa [numbered] using congrArg List.length listed.symm
  -- the second page has one entry only, so the two that are left are of the first
  have first : n = 0 := by
    have fits := within.length_le
    rw [List.length_map] at two
    rw [two, nthSlice, List.length_take, List.length_drop, count, size] at fits
    omega
  refine ⟨entries, name, _, reported, _, left, translates, failed,
    entriesOf_sources translates part, fun complete => ?_⟩
  have short := (eq_marksOf_iff whole).mp complete
  rw [count, size, first] at short
  omega

end TokenTable.Batch.Operation
