import TokenTable.Proofs.Batch.Backoff
import TokenTable.Proofs.Batch.Entries
import TokenTable.Proofs.Fingerprint.Comparable
import TokenTable.Proofs.Item.RoundTrip

/-! # Batches of comparable items

A batch whose items are comparable can be worked through: what a store hands back of a page is
matched with the entries of the page (`exists_remainder`), and what it returns is put into order and
decoded (`exists_report`). None of these steps fails for want of a fingerprint or an order.
-/

namespace TokenTable

/-- An item whose values are of their kinds can be decoded. -/
theorem Item.exists_decode {item : NativeItem} (typed : ∀ field ∈ item, field.2.WellTyped) :
    ∃ decoded, decode item.toValue = .ok decoded := by
  rw [decode]
  split
  · have read : ∀ entry ∈ item.map fun field => (Value.text field.1, field.2.toNative),
        ∃ pair, (do return (entry.1, (← attributeOf entry).decoded) :
          Except Fault (Value × Value)) = .ok pair := by
      rw [List.forall_mem_map]
      intro field member
      exact exists_bind (attributeOf_toNative field.1 (typed field member)) ⟨_, rfl⟩
    obtain ⟨pairs, several⟩ := exists_mapM read
    exact exists_bind (entries_toValue item) (exists_bind several ⟨_, rfl⟩)
  · exact ⟨none, rfl⟩

/-- A decoded item is a map. -/
theorem Item.exists_map_of_decode {native item : Value}
    (decoded : decode native = .ok (some item)) : ∃ entries, item = .map entries := by
  rw [decode] at decoded
  split at decoded
  · obtain ⟨_, _, decoded⟩ := (bind_eq_ok_iff _ _ _).mp decoded
    obtain ⟨entries, _, decoded⟩ := (bind_eq_ok_iff _ _ _).mp decoded
    cases decoded
    exact ⟨_, rfl⟩
  · cases decoded

/-- Natives that can each be decoded are decoded to maps. -/
theorem Item.exists_decodeAll {natives : List Value}
    (decodes : ∀ native ∈ natives, ∃ item, decode native = .ok item) :
    ∃ items, decodeAll natives = .ok items ∧ ∀ item ∈ items, ∃ entries, item = .map entries := by
  obtain ⟨decoded, several⟩ := exists_mapM decodes
  refine ⟨decoded.filterMap id, (bind_eq_ok_iff _ _ _).mpr ⟨decoded, several, rfl⟩, ?_⟩
  intro item member
  obtain ⟨_, inside, rfl⟩ := List.mem_filterMap.mp member
  obtain ⟨native, _, single⟩ := exists_of_mem_mapM several inside
  exact exists_map_of_decode single

/-- Maps can be put in the order of any attribute. -/
theorem exists_orderBy (order : Order) {items : List Value}
    (maps : ∀ item ∈ items, ∃ entries, item = .map entries) :
    ∃ ordered, orderBy order items = .ok ordered := by
  have held : ∀ item ∈ items, ∃ pair,
      (do return (← item.holds order.key, item) : Except Fault (Bool × Value)) = .ok pair := by
    intro item member
    obtain ⟨entries, rfl⟩ := maps item member
    exact ⟨_, rfl⟩
  obtain ⟨marked, marking⟩ := exists_mapM held
  have keyed : ∀ item ∈ (marked.filter (·.1)).map (·.2), ∃ pair,
      (do return (SortKey.ofValue (← item.index order.key), item) :
        Except Fault (SortKey × Value)) = .ok pair := by
    intro item member
    obtain ⟨pair, inside, rfl⟩ := List.mem_map.mp member
    rw [List.mem_filter] at inside
    obtain ⟨present, holds⟩ := inside
    obtain ⟨origin, given, single⟩ := exists_of_mem_mapM marking present
    obtain ⟨entries, rfl⟩ := maps origin given
    cases single
    obtain ⟨found, there⟩ := Option.isSome_iff_exists.mp holds
    have indexed : (Value.map entries).index order.key = .ok found := by
      simp only [Value.index, there]
    exact ⟨_, (bind_eq_ok_iff _ _ _).mpr ⟨found, indexed, rfl⟩⟩
  obtain ⟨pairs, several⟩ := exists_mapM keyed
  exact exists_bind marking (exists_bind several ⟨_, rfl⟩)

/-- Maps can be put in the order of any valid option. -/
theorem exists_orderItems {items : List Value} {option : Value} {order : Option Order}
    (valid : Order.ofValue option = .ok order)
    (maps : ∀ item ∈ items, ∃ entries, item = .map entries) :
    ∃ ordered, orderItems items option = .ok ordered := by
  apply exists_bind valid
  cases order with
  | none => exact ⟨items, rfl⟩
  | some order => exact exists_orderBy order maps

namespace Batch

/-- Natives with fingerprints that can be spelled are matched, each with a marked entry or with
itself. -/
theorem exists_matchNatives {restore : Value → Except Fault Value} {natives : List Value}
    (fingerprints : ∀ native ∈ natives, ∃ value, fingerprint native = .ok value)
    (restores : ∀ native ∈ natives, ∃ source, restore native = .ok source)
    (marked : List (Value × Entry)) :
    ∃ left, matchNatives restore marked natives = .ok left ∧
      ∀ entry ∈ left, entry ∈ marked.map Prod.snd ∨ entry.native ∈ natives := by
  induction natives generalizing marked with
  | nil => exact ⟨[], rfl, fun _ member => by cases member⟩
  | cons native rest ih =>
      rw [List.forall_mem_cons] at fingerprints restores
      obtain ⟨value, fingerprinted⟩ := fingerprints.1
      have later := ih fingerprints.2 restores.2
      cases found : takeMatch? value marked with
      | some taken =>
          obtain ⟨entry, others⟩ := taken
          obtain ⟨mark, _, perm⟩ := agrees_of_takeMatch? found
          have members := (perm.map Prod.snd).subset
          obtain ⟨left, matched, each⟩ := later others
          refine ⟨entry :: left, (bind_eq_ok_iff _ _ _).mpr ⟨value, fingerprinted, ?_⟩, ?_⟩
          · rw [found]
            exact (bind_eq_ok_iff _ _ _).mpr ⟨left, matched, rfl⟩
          · rw [List.forall_mem_cons]
            refine ⟨Or.inl (members List.mem_cons_self), fun other member => ?_⟩
            rcases each other member with kept | own
            · exact Or.inl (members (List.mem_cons_of_mem _ kept))
            · exact Or.inr (List.mem_cons_of_mem _ own)
      | none =>
          obtain ⟨source, restored⟩ := restores.1
          obtain ⟨left, matched, each⟩ := later marked
          refine ⟨⟨source, native⟩ :: left,
            (bind_eq_ok_iff _ _ _).mpr ⟨value, fingerprinted, ?_⟩, ?_⟩
          · rw [found]
            refine (bind_eq_ok_iff _ _ _).mpr ⟨source, restored, ?_⟩
            exact (bind_eq_ok_iff _ _ _).mpr ⟨left, matched, rfl⟩
          · rw [List.forall_mem_cons]
            refine ⟨Or.inr List.mem_cons_self, fun other member => ?_⟩
            exact (each other member).imp id (List.mem_cons_of_mem native)

namespace Operation

/-- A native that an operation makes of a comparable item. -/
def IsEntry (operation : Operation) (native : Value) : Prop :=
  ∃ item : NativeItem, item.Comparable ∧ native = operation.wire item

variable {operation : Operation}

theorem IsEntry.exists_fingerprint {native : Value} (entry : operation.IsEntry native) :
    ∃ value, fingerprint native = .ok value := by
  obtain ⟨item, comparable, rfl⟩ := entry
  cases operation with
  | read consistent order => exact exists_fingerprint_toValue comparable
  | write mode => exact exists_fingerprint_request mode comparable

theorem restoreRequest_request (mode : Mode) (native : Value) :
    restoreRequest (mode.request native) = Item.toTokens native := by
  cases mode <;> rfl

theorem IsEntry.exists_restore {native : Value} (entry : operation.IsEntry native) :
    ∃ source, operation.restore native = .ok source := by
  obtain ⟨item, comparable, rfl⟩ := entry
  cases operation with
  | read consistent order => exact Item.exists_toTokens comparable.typed
  | write mode =>
      have spelled := Item.exists_toTokens comparable.typed
      rwa [← restoreRequest_request mode] at spelled

/-- What a store hands back of a page of comparable entries is matched with such entries. -/
theorem exists_remainder {entries : List Entry} {unprocessed : Value} {natives : List Value}
    (sent : ∀ entry ∈ entries, operation.IsEntry entry.native)
    (listed : unprocessed.elements = .ok natives)
    (returned : ∀ native ∈ natives, operation.IsEntry native) :
    ∃ left, remainder operation.restore entries unprocessed = .ok left ∧
      ∀ entry ∈ left, operation.IsEntry entry.native := by
  have marking : ∀ entry ∈ entries, ∃ pair,
      (do return (← fingerprint entry.native, entry) : Except Fault (Value × Entry)) = .ok pair :=
    fun entry member => exists_bind (sent entry member).exists_fingerprint.choose_spec ⟨_, rfl⟩
  obtain ⟨marked, marking⟩ := exists_mapM marking
  obtain ⟨left, matched, each⟩ := exists_matchNatives
    (fun native member => (returned native member).exists_fingerprint)
    (fun native member => (returned native member).exists_restore) marked
  refine ⟨left, ?_, ?_⟩
  · refine (bind_eq_ok_iff _ _ _).mpr ⟨marked, marking, ?_⟩
    exact (bind_eq_ok_iff _ _ _).mpr ⟨natives, listed, matched⟩
  · intro entry member
    rcases each entry member with kept | own
    · rw [(marked_of_mapM entries marked marking).1] at kept
      exact sent entry kept
    · exact returned _ own

/-- Every page can be sent. -/
theorem exists_request (operation : Operation) (table : String) (page : List Value) :
    ∃ request, operation.request table page = .ok request := by
  cases operation with
  | read consistent order => exact ⟨_, rfl⟩
  | write mode => exact ⟨_, rfl⟩

end Operation

/-- The names by which a batch puts what it reads into the order of its keys. -/
def keyNames (keys : List NativeItem) : List String := (keys.headD []).map Prod.fst

/-- A native item that decodes and whose part under the names of a key has a fingerprint. -/
structure Legible (names : List String) (native : Value) : Prop where
  decodes : ∃ item, Item.decode native = .ok item
  keyed : ∃ key value, project names native = .ok key ∧ fingerprint key = .ok value

/-- A native item that decodes and whose part under the names of a key is comparable. -/
structure Readable (names : List String) (native : Value) : Prop where
  decodes : ∃ item, Item.decode native = .ok item
  keyed : ∃ key : NativeItem, key.Comparable ∧ project names native = .ok key.toValue

theorem Readable.legible {names : List String} {native : Value} (readable : Readable names native) :
    Legible names native := by
  obtain ⟨key, comparable, projected⟩ := readable.keyed
  obtain ⟨value, done⟩ := exists_fingerprint_toValue comparable
  exact ⟨readable.decodes, key.toValue, value, projected, done⟩

/-- Every comparable item is readable, whatever the names of the key are. -/
theorem readable_toValue (names : List String) {item : NativeItem} (comparable : item.Comparable) :
    Readable names item.toValue :=
  ⟨Item.exists_decode comparable.typed, _, comparable_pick names comparable,
    project_toValue names item⟩

/-- What is legible can be put into the order of keys that have fingerprints. -/
theorem exists_inKeyOrder {keys : List NativeItem} {natives : List Value}
    (marked : ∀ key ∈ keys, ∃ value, fingerprint key.toValue = .ok value)
    (legible : ∀ native ∈ natives, Legible (keyNames keys) native) :
    ∃ ordered, inKeyOrder keys natives = .ok ordered := by
  cases keys with
  | nil => exact ⟨natives, rfl⟩
  | cons first rest =>
      obtain ⟨marks, marking⟩ := exists_mapM marked
      have ranking : ∀ native ∈ natives, ∃ pair,
          ranked (first.map fun entry => entry.1) marks native = .ok pair := by
        intro native member
        obtain ⟨key, value, projected, done⟩ := (legible native member).keyed
        exact exists_bind projected (exists_bind done ⟨_, rfl⟩)
      obtain ⟨pairs, ranking⟩ := exists_mapM ranking
      exact exists_bind marking (exists_bind ranking ⟨_, rfl⟩)

/-- What is legible can be reported. -/
theorem Operation.exists_report {operation : Operation} {items : Value} {natives : List NativeItem}
    (checked : operation.check items = .ok ()) (typed : nativesOf items = natives)
    (marked : ∀ key ∈ natives, ∃ value, fingerprint key.toValue = .ok value)
    {gathered : List Value}
    (legible : ∀ native ∈ gathered, Legible (keyNames natives) native) :
    ∃ reported, operation.report items gathered = .ok reported := by
  cases operation with
  | write mode => exact ⟨[], rfl⟩
  | read consistent order =>
      obtain ⟨resolved, valid⟩ : ∃ resolved, Order.ofValue order = .ok resolved := by
        rw [check] at checked
        split at checked
        · cases valid : Order.ofValue order with
          | ok resolved => exact ⟨resolved, rfl⟩
          | error fault =>
              rw [valid] at checked
              cases checked
        · cases checked
      obtain ⟨ordered, sorted⟩ := exists_inKeyOrder marked legible
      have members := (inKeyOrder_perm natives gathered ordered sorted).subset
      obtain ⟨decoded, several, maps⟩ := Item.exists_decodeAll fun native member =>
        (legible native (members member)).decodes
      rw [report, typed]
      exact exists_bind sorted (exists_bind several (exists_orderItems valid maps))

/-- What is readable can be reported when the keys are comparable. -/
theorem Operation.exists_report_of_readable {operation : Operation} {items : Value}
    {natives : List NativeItem} (checked : operation.check items = .ok ())
    (typed : nativesOf items = natives) (comparable : ∀ item ∈ natives, item.Comparable)
    {gathered : List Value}
    (readable : ∀ native ∈ gathered, Readable (keyNames natives) native) :
    ∃ reported, operation.report items gathered = .ok reported :=
  exists_report checked typed
    (fun key member => exists_fingerprint_toValue (comparable key member))
    fun native member => (readable native member).legible

end Batch

end TokenTable
