import TokenTable.Value.Basic

/-! # Equality of values

Values are compared by what they stand for. Numbers of different kinds are equal when their exact
values are, byte strings when their contents are, and sets and maps regardless of order. Main
statements: `same_text_iff`, and `sameList_text`, lists of texts are equal only to themselves. -/

namespace TokenTable.Value

/-- Equality of values that hold no others. -/
def sameAtom : Value → Value → Bool
  | .null, .null => true
  | .text s, .text t => s == t
  | .bytes _ content, .bytes _ content' => content == content'
  | .wildcard, .wildcard => true
  | v, w =>
    match v.number?, w.number? with
    | some x, some y => x.sameValue y
    | _, _ => false

mutual

/-- Whether two values stand for the same thing. -/
def same : Value → Value → Bool
  | .list items, .list items' => sameList items items'
  | .tuple items, .tuple items' => sameList items items'
  | .set _ members, .set _ members' =>
    members.length == members'.length && allWithin members members'
  | .map entries, .map entries' =>
    entries.length == entries'.length && entriesWithin entries entries'
  | v, w => sameAtom v w
termination_by structural v => v

def sameList : List Value → List Value → Bool
  | [], [] => true
  | v :: rest, w :: rest' => same v w && sameList rest rest'
  | _, _ => false
termination_by structural vs => vs

/-- Whether every member of the first list occurs in the second. -/
def allWithin : List Value → List Value → Bool
  | [], _ => true
  | v :: rest, ws => (ws.any fun w => same v w) && allWithin rest ws
termination_by structural vs => vs

/-- Whether every entry of the first map occurs in the second. -/
def entriesWithin : List (Value × Value) → List (Value × Value) → Bool
  | [], _ => true
  | (k, v) :: rest, entries =>
    (entries.any fun entry => same k entry.1 && same v entry.2) && entriesWithin rest entries
termination_by structural entries => entries

end

mutual

/-- Whether the value may be the key of a map: nothing in it can change. -/
def isKey : Value → Bool
  | .list _ | .map _ | .set false _ | .bytes .growable _ => false
  | .decimal (.nan _ signaling _) => !signaling
  | .tuple items | .set true items => allKeys items
  | _ => true
termination_by structural v => v

def allKeys : List Value → Bool
  | [] => true
  | v :: rest => isKey v && allKeys rest
termination_by structural vs => vs

end

/-- A collection with repeated members left out, as a set's members. -/
def distinct (members : List Value) : List Value :=
  members.foldl (fun kept v => if kept.any (same v) then kept else kept ++ [v]) []

@[simp] theorem same_text_iff (s t : String) : same (.text s) (.text t) = true ↔ s = t := by
  simp [same, sameAtom]

/-- Only a text stands for what a text stands for. -/
theorem same_text_right_iff (v : Value) (t : String) :
    same v (.text t) = true ↔ v = .text t := by
  cases v <;> simp [same, sameAtom, number?]

theorem same_text_left_iff (s : String) (w : Value) : same (.text s) w = true ↔ w = .text s := by
  cases w with
  | text t =>
      rw [same_text_iff, Value.text.injEq]
      exact eq_comm
  | _ => simp [same, sameAtom, number?]

theorem sameList_text (ss ts : List String) :
    sameList (ss.map .text) (ts.map .text) = true ↔ ss = ts := by
  induction ss generalizing ts with
  | nil => cases ts <;> simp [sameList]
  | cons s rest ih => cases ts <;> simp [sameList, ih]

theorem allWithin_iff (vs ws : List Value) :
    allWithin vs ws = true ↔ ∀ v ∈ vs, ∃ w ∈ ws, same v w = true := by
  induction vs with
  | nil => simp [allWithin]
  | cons v rest ih => rw [allWithin, Bool.and_eq_true, ih, List.any_eq_true, List.forall_mem_cons]

theorem entriesWithin_iff (entries others : Entries) :
    entriesWithin entries others = true ↔
      ∀ entry ∈ entries, ∃ other ∈ others,
        same entry.1 other.1 = true ∧ same entry.2 other.2 = true := by
  induction entries with
  | nil => simp [entriesWithin]
  | cons entry rest ih =>
      obtain ⟨k, v⟩ := entry
      rw [entriesWithin, Bool.and_eq_true, ih, List.any_eq_true, List.forall_mem_cons]
      simp only [Bool.and_eq_true]

end TokenTable.Value
