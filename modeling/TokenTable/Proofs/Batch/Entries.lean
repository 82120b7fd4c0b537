import TokenTable.Proofs.Batch.Operation

/-! # Entries of an operation

An operation translates map by map (`entriesOf_eq_ok_iff`). Each entry keeps the caller's own map
and has a plain fingerprint, and maps of the caller that are given once more make the same entries
(`entriesOf_sources`).
-/

namespace TokenTable.Batch.Operation

/-- The entry of one map. -/
def entryOf : Operation → Value → Except Fault Entry
  | .read .., key => return keyEntry (key, ← Item.encode key)
  | .write mode, item => return { source := item, native := mode.request (← Item.toNative item) }

/-- What the caller gave translates map by map. -/
theorem entriesOf_eq_ok_iff (operation : Operation) (items : Value) (entries : List Entry) :
    operation.entriesOf items = .ok entries ↔
      ∃ maps, items.elements = .ok maps ∧
        List.Forall₂ (fun map entry => operation.entryOf map = .ok entry) maps entries := by
  cases operation with
  | read consistent order =>
      have single : ∀ (key : Value) (pair : Value × NativeItem),
          (do return (key, ← Item.encode key) : Except Fault (Value × NativeItem)) = .ok pair →
            (read consistent order).entryOf key = .ok (keyEntry pair) := by
        intro key pair typed
        obtain ⟨native, encoded, typed⟩ := (bind_eq_ok_iff _ _ _).mp typed
        cases typed
        exact (bind_eq_ok_iff _ _ _).mpr ⟨native, encoded, rfl⟩
      constructor
      · intro translates
        obtain ⟨pairs, typed, translates⟩ := (bind_eq_ok_iff _ _ _).mp translates
        cases translates
        obtain ⟨keys, listed, typed⟩ := (bind_eq_ok_iff _ _ _).mp typed
        refine ⟨keys, listed, List.forall₂_map_right_iff.mpr ?_⟩
        exact (forall₂_of_mapM typed).imp fun key pair => single key pair
      · rintro ⟨keys, listed, each⟩
        have typed : ∃ pairs, keys.mapM (fun key => do return (key, ← Item.encode key)) =
            (.ok pairs : Except Fault (List (Value × NativeItem))) ∧
              pairs.map keyEntry = entries := by
          clear listed
          induction each with
          | nil => exact ⟨[], rfl, rfl⟩
          | @cons key entry keys entries first _ ih =>
              obtain ⟨native, encoded, first⟩ := (bind_eq_ok_iff _ _ _).mp first
              cases first
              obtain ⟨pairs, several, rfl⟩ := ih
              refine ⟨(key, native) :: pairs, ?_, rfl⟩
              refine (mapM_cons_eq_ok_iff _ _ _ _).mpr ⟨(key, native), pairs, ?_, several, rfl⟩
              exact (bind_eq_ok_iff _ _ _).mpr ⟨native, encoded, rfl⟩
        obtain ⟨pairs, typed, rfl⟩ := typed
        refine (bind_eq_ok_iff _ _ _).mpr ⟨pairs, ?_, rfl⟩
        exact (bind_eq_ok_iff _ _ _).mpr ⟨keys, listed, typed⟩
  | write mode =>
      constructor
      · intro translates
        obtain ⟨maps, listed, translated⟩ := (bind_eq_ok_iff _ _ _).mp translates
        exact ⟨maps, listed, forall₂_of_mapM translated⟩
      · rintro ⟨maps, listed, each⟩
        exact (bind_eq_ok_iff _ _ _).mpr ⟨maps, listed, mapM_of_forall₂ each⟩

/-- An entry keeps the caller's own map, and its fingerprint is plain. -/
theorem source_of_entryOf {operation : Operation} {map : Value} {entry : Entry}
    (single : operation.entryOf map = .ok entry) : entry.source = map ∧ entry.HasPlainMark := by
  cases operation with
  | read consistent order =>
      obtain ⟨native, encoded, single⟩ := (bind_eq_ok_iff _ _ _).mp single
      cases single
      refine ⟨rfl, fun value done => ?_⟩
      have each := Item.encoded_of_encode map native encoded
      exact isPlain_fingerprint_toValue native each value done
  | write mode =>
      obtain ⟨wire, wired, single⟩ := (bind_eq_ok_iff _ _ _).mp single
      obtain ⟨native, encoded, wired⟩ := (bind_eq_ok_iff _ _ _).mp wired
      cases wired
      cases single
      refine ⟨rfl, fun value done => ?_⟩
      have typed := Item.encoded_of_encode map native encoded
      exact isPlain_fingerprint_request mode native typed value done

/-- The native form in which an operation sends an item. -/
def wire : Operation → NativeItem → Value
  | .read .., key => key.toValue
  | .write mode, item => mode.request item.toValue

theorem entryOf_of_encode (operation : Operation) {map : Value} {item : NativeItem}
    (encoded : Item.encode map = .ok item) :
    operation.entryOf map = .ok ⟨map, operation.wire item⟩ := by
  cases operation with
  | read consistent order => exact (bind_eq_ok_iff _ _ _).mpr ⟨item, encoded, rfl⟩
  | write mode =>
      have wired : Item.toNative map = .ok item.toValue :=
        (bind_eq_ok_iff _ _ _).mpr ⟨item, encoded, rfl⟩
      exact (bind_eq_ok_iff _ _ _).mpr ⟨item.toValue, wired, rfl⟩

/-- What is encoded item by item translates, to one entry for each item. -/
theorem entriesOf_of_encode (operation : Operation) {items : Value} {natives : List NativeItem}
    (translates : (items.elements >>= fun maps => maps.mapM Item.encode) = .ok natives) :
    ∃ entries, operation.entriesOf items = .ok entries ∧
      entries.map Entry.native = natives.map operation.wire := by
  obtain ⟨maps, listed, several⟩ := (bind_eq_ok_iff _ _ _).mp translates
  suffices made : ∃ entries,
      List.Forall₂ (fun map entry => operation.entryOf map = .ok entry) maps entries ∧
        entries.map Entry.native = natives.map operation.wire by
    obtain ⟨entries, each, same⟩ := made
    exact ⟨entries, (operation.entriesOf_eq_ok_iff _ _).mpr ⟨maps, listed, each⟩, same⟩
  have each := forall₂_of_mapM several
  clear several listed translates
  induction each with
  | nil => exact ⟨[], .nil, rfl⟩
  | @cons map item _ _ single _ ih =>
      obtain ⟨entries, each, same⟩ := ih
      refine ⟨_, .cons (operation.entryOf_of_encode single) each, ?_⟩
      rw [List.map_cons, List.map_cons, same]

theorem wellFormed_of_translates {items : Value} {natives : List NativeItem}
    (translates : (items.elements >>= fun maps => maps.mapM Item.encode) = .ok natives) :
    ∀ item ∈ natives, item.WellFormed := by
  obtain ⟨maps, _, several⟩ := (bind_eq_ok_iff _ _ _).mp translates
  intro item member
  obtain ⟨map, _, encoded⟩ := exists_of_mem_mapM several member
  exact Item.wellFormed_of_encode encoded

/-- The typed keys of what is encoded item by item are the encoded items. -/
theorem nativesOf_of_encode {items : Value} {natives : List NativeItem}
    (translates : (items.elements >>= fun maps => maps.mapM Item.encode) = .ok natives) :
    nativesOf items = natives := by
  obtain ⟨maps, listed, several⟩ := (bind_eq_ok_iff _ _ _).mp translates
  suffices made : ∃ pairs, maps.mapM (fun key => do return (key, ← Item.encode key)) =
      (.ok pairs : Except Fault (List (Value × NativeItem))) ∧ pairs.map (·.2) = natives by
    obtain ⟨pairs, each, same⟩ := made
    have typed : typedKeys items = .ok pairs := (bind_eq_ok_iff _ _ _).mpr ⟨maps, listed, each⟩
    rw [nativesOf, typed]
    exact same
  have each := forall₂_of_mapM several
  clear several listed translates
  induction each with
  | nil => exact ⟨[], rfl, rfl⟩
  | @cons map item _ _ single _ ih =>
      obtain ⟨pairs, each, same⟩ := ih
      have first : (do return (map, ← Item.encode map) : Except Fault (Value × NativeItem)) =
          .ok (map, item) := (bind_eq_ok_iff _ _ _).mpr ⟨item, single, rfl⟩
      refine ⟨(map, item) :: pairs, ?_, by rw [List.map_cons, same]⟩
      exact (mapM_cons_eq_ok_iff _ _ _ _).mpr ⟨_, _, first, each, rfl⟩

/-- Every entry of what translates is the entry of its own map. -/
theorem entryOf_source {operation : Operation} {items : Value} {entries : List Entry}
    (translates : operation.entriesOf items = .ok entries) :
    ∀ entry ∈ entries, operation.entryOf entry.source = .ok entry := by
  obtain ⟨maps, _, each⟩ := (operation.entriesOf_eq_ok_iff items entries).mp translates
  intro entry member
  obtain ⟨map, _, single⟩ := exists_of_mem_mapM (mapM_of_forall₂ each) member
  rwa [(source_of_entryOf single).1]

theorem hasPlainMark_of_entriesOf {operation : Operation} {items : Value} {entries : List Entry}
    (translates : operation.entriesOf items = .ok entries) :
    ∀ entry ∈ entries, entry.HasPlainMark :=
  fun entry member => (source_of_entryOf (entryOf_source translates entry member)).2

/-- The sources of the entries are what the caller gave, in order. -/
theorem elements_of_entriesOf {operation : Operation} {items : Value} {entries : List Entry}
    (translates : operation.entriesOf items = .ok entries) :
    items.elements = .ok (entries.map Entry.source) := by
  obtain ⟨maps, listed, each⟩ := (operation.entriesOf_eq_ok_iff items entries).mp translates
  have back :=
    map_eq_of_mapM (fun _ _ single => (source_of_entryOf single).1) (mapM_of_forall₂ each)
  rw [listed, back]

/-- Some of the caller's own maps, given once more, make the same entries. -/
theorem entriesOf_sources {operation : Operation} {items : Value} {entries left : List Entry}
    (translates : operation.entriesOf items = .ok entries) (part : left.Subperm entries) :
    operation.entriesOf (.list (left.map Entry.source)) = .ok left := by
  refine (operation.entriesOf_eq_ok_iff _ _).mpr ⟨left.map Entry.source, rfl, ?_⟩
  refine List.forall₂_map_left_iff.mpr (List.forall₂_same.mpr fun entry member => ?_)
  exact entryOf_source translates entry (part.subset member)

end TokenTable.Batch.Operation
