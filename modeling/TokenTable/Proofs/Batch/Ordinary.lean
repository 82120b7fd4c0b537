import TokenTable.Batch.Write
import TokenTable.Proofs.Sorting.Faults

/-! # Faults that do not end a batch

Only the page queue itself reports that a batch was cancelled or gave up. The steps that it is made
of, reading values, sorting them, taking fingerprints, decoding, fail in other ways. Main
statements: `ordinary_fingerprint`, `ordinary_remainder` and `ordinary_arrange`.
-/

namespace TokenTable

/-- Whether a fault is the report of a batch that was cancelled or gave up. -/
def Fault.endsBatch : Fault → Bool
  | .partialBatch .. | .cancelledBatch .. => true
  | _ => false

/-- A fault that is no such report. -/
def Fault.Ordinary (fault : Fault) : Prop := fault.endsBatch = false

variable {α : Type}

namespace Value

theorem ordinary_equalWhole (v w : Value) : FailsOnly Fault.Ordinary (equalWhole v w) :=
  .ite (.error rfl) (.ok _)

theorem ordinary_equal_all :
    (∀ v w, FailsOnly Fault.Ordinary (equal v w)) ∧
      (∀ entries entries', FailsOnly Fault.Ordinary (equalEntries entries entries')) ∧
        ∀ items items', FailsOnly Fault.Ordinary (equalItems items items') := by
  -- the cases are the equations of the comparison, in their order
  refine equal.mutual_induct (fun v w => FailsOnly Fault.Ordinary (equal v w))
    (fun entries entries' => FailsOnly Fault.Ordinary (equalEntries entries entries'))
    (fun items items' => FailsOnly Fault.Ordinary (equalItems items items'))
    ?_ ?_ ?_ ?_ ?_ ?_ ?_ ?_ ?_ ?_ ?_ ?_
  · intro items items' _ ih
    rw [equal]
    exact .ite ih (.ok false)
  · intro items items' differ
    rw [equal, if_neg differ]
    exact .ok false
  · intro items items' ih
    rw [equal]
    exact ih
  · intro entries entries' _ ih
    rw [equal]
    exact .ite ih (.ok false)
  · intro entries entries' differ
    rw [equal, if_neg differ]
    exact .ok false
  · intro v w notLists notTuples notMaps
    rw [equal]
    · exact ordinary_equalWhole v w
    · exact notLists
    · exact notTuples
    · exact notMaps
  · exact .ok true
  · intro v rest w rest' here later
    rw [equalItems]
    exact here.bind fun same => .ite later (.pure false)
  · intro items items' notEmpty notLonger
    rw [equalItems]
    · exact .ok false
    · exact notEmpty
    · exact notLonger
  · intro entries
    rw [equalEntries]
    exact .ok true
  · intro k v rest entries missing
    rw [equalEntries, missing]
    exact .ok false
  · intro k v rest entries found present here later
    rw [equalEntries, present]
    exact here.bind fun same => .ite later (.pure false)

theorem ordinary_order? (v w : Value) : FailsOnly Fault.Ordinary (order? v w) := by
  unfold order?
  split
  · exact .ok _
  · split
    · split
      · exact .ok _
      · exact .ite (.error rfl) (.ok _)
    · exact .error rfl

theorem ordinary_before_all :
    (∀ v w, FailsOnly Fault.Ordinary (before v w)) ∧
      ∀ items items', FailsOnly Fault.Ordinary (beforeItems items items') := by
  refine before.mutual_induct (fun v w => FailsOnly Fault.Ordinary (before v w))
    (fun items items' => FailsOnly Fault.Ordinary (beforeItems items items'))
    ?_ ?_ ?_ ?_ ?_ ?_ ?_ ?_ ?_ ?_
  · intro s t
    exact .ok _
  · intro form content form' content' comparable
    rw [before, if_pos comparable]
    exact .ok _
  · intro form content form' content' incomparable
    rw [before, if_neg incomparable]
    exact .error rfl
  · intro items items' ih
    rw [before]
    exact ih
  · intro items items' ih
    rw [before]
    exact ih
  · intro frozen members frozen' members'
    exact .ok _
  · intro v w notTexts notBytes notLists notTuples notSets
    rw [before]
    · exact (ordinary_order? v w).bind fun order => .pure _
    · exact notTexts
    · exact notBytes
    · exact notLists
    · exact notTuples
    · exact notSets
  · intro items
    exact .ok _
  · intro v rest
    exact .ok false
  · intro v rest w rest' later here
    rw [beforeItems]
    exact (ordinary_equal_all.1 v w).bind fun same => .ite later here

theorem ordinary_sortOn (key : α → Value) (items : List α) :
    FailsOnly Fault.Ordinary (sortOn key items) :=
  .ite (.ok _) (Sorting.failsOnly_sort (fun a b => ordinary_before_all.1 (key a) (key b)) items)

theorem ordinary_sorted (items : List Value) : FailsOnly Fault.Ordinary (sorted items) :=
  ordinary_sortOn id items

theorem ordinary_entries (v : Value) : FailsOnly Fault.Ordinary v.entries := by
  unfold entries
  split
  · exact .ok _
  · exact .error rfl

theorem ordinary_findD (v key default : Value) : FailsOnly Fault.Ordinary (v.findD key default) :=
  (ordinary_entries v).bind fun _ => .pure _

theorem ordinary_elements (v : Value) : FailsOnly Fault.Ordinary v.elements := by
  unfold elements
  split
  · exact .ok _
  · exact .ok _
  · exact .ok _
  · exact .ok _
  · exact .ok _
  · exact .ok _
  · exact .error rfl

theorem ordinary_single (key value : Value) : FailsOnly Fault.Ordinary (single key value) :=
  .ite (.ok _) (.error rfl)

theorem ordinary_index (v : Value) (name : String) : FailsOnly Fault.Ordinary (v.index name) := by
  unfold index
  split
  · split
    · exact .ok _
    · exact .error rfl
  · exact .error rfl

theorem ordinary_holds (v : Value) (name : String) : FailsOnly Fault.Ordinary (v.holds name) := by
  unfold holds
  split
  · exact .ok _
  · exact .ok _
  · exact .ok _
  · exact .ok _
  · exact .ok _
  · exact .ok _
  · exact .error rfl

end Value

theorem ordinary_numberMark (v : Value) : FailsOnly Fault.Ordinary (numberMark v) := by
  unfold numberMark
  split
  · exact .error rfl
  · exact .ok v
  · split
    · exact .ok _
    · exact .ok v
    · exact .error rfl

theorem ordinary_payloadMark (name v : Value) : FailsOnly Fault.Ordinary (payloadMark name v) := by
  unfold payloadMark
  split
  · exact ordinary_numberMark _
  · exact (FailsOnly.mapM fun item _ => ordinary_numberMark item).bind fun marks =>
      (Value.ordinary_sorted marks).bind fun _ => .pure _
  · exact (Value.ordinary_sorted _).bind fun _ => .pure _
  · exact (Value.ordinary_sorted _).bind fun _ => .pure _
  · exact .ok _
  · exact .ok _

theorem ordinary_sortMarks (marks : List (Value × Value)) :
    FailsOnly Fault.Ordinary (sortMarks marks) :=
  (Value.ordinary_sortOn _ marks).bind fun _ => .pure _

mutual

theorem ordinary_markOf (name v : Value) : FailsOnly Fault.Ordinary (markOf name v) := by
  cases v with
  | map entries =>
      rw [markOf]
      exact (ordinary_entryMarks entries).bind ordinary_sortMarks
  | _ => exact ordinary_payloadMark name _
termination_by structural v

theorem ordinary_entryMarks (entries : List (Value × Value)) :
    FailsOnly Fault.Ordinary (entryMarks entries) := by
  cases entries with
  | nil => exact .ok []
  | cons entry rest =>
      cases entry with
      | mk name v =>
          rw [entryMarks]
          exact (ordinary_markOf name v).bind fun mark =>
            (ordinary_entryMarks rest).bind fun marks => .pure _
termination_by structural entries

end

theorem ordinary_fingerprint (v : Value) : FailsOnly Fault.Ordinary (fingerprint v) := by
  unfold fingerprint
  split
  · apply (ordinary_entryMarks _).bind
    intro marks
    exact (ordinary_sortMarks marks).bind fun mark => .ite (.pure mark) (.throw rfl)
  · exact .error rfl

namespace Attribute

theorem ordinary_ofPayload (v : Value) (kind : Kind) :
    FailsOnly Fault.Ordinary (ofPayload v kind) := by
  cases kind with
  | scalar e => exact .ok _
  | set e => exact (Value.ordinary_elements v).bind fun _ => .pure _

theorem ordinary_ofEntries? (entries : Value.Entries) (found : Except Fault Attribute)
    (present : ofEntries? entries = some found) : FailsOnly Fault.Ordinary found := by
  induction entries with
  | nil => cases present
  | cons entry rest ih =>
      obtain ⟨k, v⟩ := entry
      rw [ofEntries?] at present
      split at present
      · cases present
        exact ordinary_ofPayload v _
      · exact ih present

theorem ordinary_ofNative (v : Value) : FailsOnly Fault.Ordinary (ofNative v) := by
  unfold ofNative
  split
  · split
    · rename_i found present
      exact ordinary_ofEntries? _ found present
    · exact (Value.ordinary_sorted _).bind fun _ => .throw rfl
  · exact .error rfl

end Attribute

namespace Item

theorem ordinary_attributeOf (entry : Value × Value) :
    FailsOnly Fault.Ordinary (attributeOf entry) := by
  intro fault failed
  unfold attributeOf at failed
  cases read : Attribute.ofNative entry.2 with
  | ok typed =>
      rw [read] at failed
      cases failed
  | error cause =>
      rw [read] at failed
      cases failed
      unfold inAttribute
      split
      · rfl
      · exact Attribute.ordinary_ofNative _ cause read

theorem ordinary_decode (native : Value) : FailsOnly Fault.Ordinary (decode native) := by
  refine .ite ?_ (.ok none)
  apply (Value.ordinary_entries native).bind
  intro entries
  refine (FailsOnly.mapM fun entry _ => ?_).bind fun _ => .pure _
  exact (ordinary_attributeOf entry).bind fun _ => .pure _

theorem ordinary_decodeAll (natives : List Value) :
    FailsOnly Fault.Ordinary (decodeAll natives) :=
  (FailsOnly.mapM fun native _ => ordinary_decode native).bind fun _ => .pure _

theorem ordinary_toTokens (native : Value) : FailsOnly Fault.Ordinary (toTokens native) := by
  apply (Value.ordinary_entries native).bind
  intro entries
  refine (FailsOnly.foldlM (fun done entry => ?_) [] entries).bind fun _ => .pure _
  exact (ordinary_attributeOf entry).bind fun _ => .pure _

end Item

theorem Order.ordinary_ofValue (v : Value) : FailsOnly Fault.Ordinary (Order.ofValue v) := by
  unfold Order.ofValue
  split
  · exact .ok none
  · split
    · rename_i key _
      have direction : ∀ v, FailsOnly Fault.Ordinary (Order.direction v) := by
        intro v
        unfold Order.direction
        split
        · exact .ok true
        · exact .ok _
        · exact .error rfl
      exact .ite (.throw rfl) ((direction _).bind fun _ => .pure _)
    · exact .error rfl
  · exact .error rfl

theorem ordinary_orderBy (order : Order) (items : List Value) :
    FailsOnly Fault.Ordinary (orderBy order items) := by
  refine (FailsOnly.mapM fun item _ => ?_).bind fun marked => ?_
  · exact (Value.ordinary_holds item order.key).bind fun _ => .pure _
  · refine (FailsOnly.mapM fun item _ => ?_).bind fun keyed => .pure _
    exact (Value.ordinary_index item order.key).bind fun _ => .pure _

theorem ordinary_orderItems (items : List Value) (order : Value) :
    FailsOnly Fault.Ordinary (orderItems items order) := by
  apply (Order.ordinary_ofValue order).bind
  intro resolved
  cases resolved with
  | none => exact .ok items
  | some resolved => exact ordinary_orderBy resolved items

namespace Batch

theorem ordinary_retriesOf (answers : Nat) (maxRetries : Value) :
    FailsOnly Fault.Ordinary (retriesOf answers maxRetries) := by
  have below : FailsOnly Fault.Ordinary (maxRetries.isBelow 0) :=
    (Value.ordinary_order? _ _).bind fun _ => .pure _
  exact below.bind fun negative => .ite (.throw rfl) (.pure _)

theorem ordinary_backoff (attempt : Int) : FailsOnly Fault.Ordinary (backoff attempt) := by
  have power : FailsOnly Fault.Ordinary (wholePower (attempt - 1)) :=
    .ite (.error rfl) (.ite (.ok _) (.ok _))
  exact power.bind fun _ => .pure _

theorem ordinary_matchNatives {restore : Value → Except Fault Value}
    (restores : ∀ native, FailsOnly Fault.Ordinary (restore native))
    (marked : List (Value × Entry)) (natives : List Value) :
    FailsOnly Fault.Ordinary (matchNatives restore marked natives) := by
  induction natives generalizing marked with
  | nil => exact .ok []
  | cons native rest ih =>
      rw [matchNatives]
      apply (ordinary_fingerprint native).bind
      intro mark
      split
      · exact (ih _).bind fun _ => .pure _
      · exact (restores native).bind fun source => (ih marked).bind fun _ => .pure _

theorem ordinary_remainder {restore : Value → Except Fault Value}
    (restores : ∀ native, FailsOnly Fault.Ordinary (restore native)) (entries : List Entry)
    (unprocessed : Value) : FailsOnly Fault.Ordinary (remainder restore entries unprocessed) := by
  refine (FailsOnly.mapM fun entry _ => ?_).bind fun marked => ?_
  · exact (ordinary_fingerprint entry.native).bind fun _ => .pure _
  · exact (Value.ordinary_elements unprocessed).bind (ordinary_matchNatives restores marked)

theorem ordinary_inKeyOrder (keys : List NativeItem) (natives : List Value) :
    FailsOnly Fault.Ordinary (inKeyOrder keys natives) := by
  cases keys with
  | nil => exact .ok natives
  | cons first rest =>
      refine (FailsOnly.mapM fun key _ => ordinary_fingerprint key.toValue).bind fun marks => ?_
      refine (FailsOnly.mapM fun native _ => ?_).bind fun pairs => .pure _
      have projected : FailsOnly Fault.Ordinary
          (project (first.map fun entry => entry.1) native) := by
        refine (FailsOnly.mapM fun name _ => ?_).bind fun _ => .pure _
        refine (Value.ordinary_holds native name).bind fun held => .ite ?_ (.pure [])
        exact (Value.ordinary_index native name).bind fun _ => .pure _
      apply projected.bind
      intro part
      exact (ordinary_fingerprint part).bind fun _ => .pure _

theorem ordinary_arrange (keys : List NativeItem) (order : Value) (gathered : List Value) :
    FailsOnly Fault.Ordinary (arrange keys order gathered) := by
  apply (ordinary_inKeyOrder keys gathered).bind
  intro natives
  exact (Item.ordinary_decodeAll natives).bind fun items => ordinary_orderItems items order

theorem ordinary_firstBody? (bodies : List Value) :
    FailsOnly Fault.Ordinary (firstBody? bodies) := by
  induction bodies with
  | nil => exact .ok none
  | cons body rest ih =>
      apply (Value.ordinary_entries body).bind
      intro entries
      cases entries with
      | nil => exact ih
      | cons entry _ => exact .pure _

theorem ordinary_restoreRequest (request : Value) :
    FailsOnly Fault.Ordinary (restoreRequest request) := by
  apply (Value.ordinary_entries request).bind
  intro entries
  apply (ordinary_firstBody? _).bind
  intro native?
  cases native? with
  | none => exact .pure _
  | some native => exact Item.ordinary_toTokens native

theorem ordinary_readRequest (table : Value) (consistent : Bool) (page : List Value) :
    FailsOnly Fault.Ordinary (readRequest table consistent page) :=
  (Value.ordinary_single _ _).bind fun _ => .pure _

theorem ordinary_writeRequest (table : Value) (page : List Value) :
    FailsOnly Fault.Ordinary (writeRequest table page) :=
  (Value.ordinary_single _ _).bind fun _ => .pure _

theorem ordinary_readReply (table response : Value) :
    FailsOnly Fault.Ordinary (readReply table response) := by
  apply (Value.ordinary_findD _ _ _).bind
  intro responses
  apply (Value.ordinary_findD _ _ _).bind
  intro items
  apply (Value.ordinary_elements items).bind
  intro gathered
  apply (Value.ordinary_findD _ _ _).bind
  intro left
  apply (Value.ordinary_findD _ _ _).bind
  intro tablePart
  exact (Value.ordinary_findD _ _ _).bind fun _ => .pure _

theorem ordinary_writeReply (table response : Value) :
    FailsOnly Fault.Ordinary (writeReply table response) :=
  (Value.ordinary_findD _ _ _).bind fun _ => (Value.ordinary_findD _ _ _).bind fun _ => .pure _

end Batch

end TokenTable
