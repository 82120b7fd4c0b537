import TokenTable.Fallible
import TokenTable.Fingerprint

/-! # What a store left unprocessed

A store hands back the entries it did not process in its own spelling. Each is matched by
fingerprint with an entry of the page that was sent, the earliest one not matched yet; an entry that
was not sent is taken over in a spelling made from the store's. Main statement:
`length_matchNatives`, one entry for each that came back. -/

namespace TokenTable.Batch

/-- An entry of a batch: the caller's own map and its native form. -/
structure Entry where
  source : Value
  native : Value

/-- Takes out the first entry with a fingerprint. -/
def takeMatch? (mark : Value) : List (Value × Entry) → Option (Entry × List (Value × Entry))
  | [] => none
  | (m, entry) :: rest =>
    if m.same mark then some (entry, rest)
    else (takeMatch? mark rest).map fun found => (found.1, (m, entry) :: found.2)

/-- Matches natives with marked entries, each of which is used once. -/
def matchNatives (restore : Value → Except Fault Value) :
    List (Value × Entry) → List Value → Except Fault (List Entry)
  | _, [] => .ok []
  | marked, native :: rest => do
    let mark ← fingerprint native
    match takeMatch? mark marked with
    | some (entry, left) => return entry :: (← matchNatives restore left rest)
    | none =>
      let source ← restore native
      return { source, native } :: (← matchNatives restore marked rest)

/-- The entries that a store left unprocessed. -/
def remainder (restore : Value → Except Fault Value) (entries : List Entry) (unprocessed : Value) :
    Except Fault (List Entry) := do
  let marked ← entries.mapM fun entry => do return (← fingerprint entry.native, entry)
  matchNatives restore marked (← unprocessed.elements)

theorem length_matchNatives (restore : Value → Except Fault Value) (marked : List (Value × Entry))
    (natives : List Value) (entries : List Entry)
    (matched : matchNatives restore marked natives = .ok entries) :
    entries.length = natives.length := by
  induction natives generalizing marked entries with
  | nil => cases matched; rfl
  | cons native rest ih =>
    obtain ⟨mark, _, matched⟩ := (bind_eq_ok_iff _ _ _).mp matched
    cases found : takeMatch? mark marked with
    | some taken =>
      rw [found] at matched
      obtain ⟨others, later, same⟩ := (bind_eq_ok_iff _ _ _).mp matched
      cases same
      rw [List.length_cons, List.length_cons, ih _ _ later]
    | none =>
      rw [found] at matched
      obtain ⟨source, _, matched⟩ := (bind_eq_ok_iff _ _ _).mp matched
      obtain ⟨others, later, same⟩ := (bind_eq_ok_iff _ _ _).mp matched
      cases same
      rw [List.length_cons, List.length_cons, ih _ _ later]

end TokenTable.Batch
