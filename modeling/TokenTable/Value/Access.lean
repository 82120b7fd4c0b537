import TokenTable.Fault
import TokenTable.Signature

/-! # Access to the parts of a value

Maps are read by key and collections member by member; a value of another shape is a fault. Main
statements: `lookup_upsert`, a written key reads back, and `elements_list`. -/

namespace TokenTable.Value

def lookup? (entries : Entries) (key : Value) : Option Value :=
  (entries.find? fun entry => same entry.1 key).map (·.2)

/-- The entries with a value under a key; a key already there keeps its place. -/
def upsert (key value : Value) : Entries → Entries
  | [] => [(key, value)]
  | (k, v) :: rest => if same k key then (k, value) :: rest else (k, v) :: upsert key value rest

def entries : Value → Except Fault Entries
  | .map entries => .ok entries
  | _ => .error .noSuchMember

/-- The value of a map under a key, or a default. -/
def findD (v key default : Value) : Except Fault Value :=
  return (lookup? (← v.entries) key).getD default

def getD (v : Value) (name : String) (default : Value) : Except Fault Value :=
  v.findD (.text name) default

def get (v : Value) (name : String) : Except Fault Value := v.getD name .null

/-- The map with one entry; the key must be one that maps may have. -/
def single (key value : Value) : Except Fault Value :=
  if key.isKey then .ok (.map [(key, value)]) else .error .wrongShape

/-- The value of a map under a name that must be there. -/
def index (v : Value) (name : String) : Except Fault Value :=
  match v with
  | .map entries =>
    match lookup? entries (.text name) with
    | some found => .ok found
    | none => .error .noSuchKey
  | _ => .error .wrongShape

/-- The names that the keys of a map are. -/
def names? (entries : Entries) : Option (List String) :=
  entries.mapM fun entry =>
    match entry.1 with
    | .text name => some name
    | _ => none

/-- The entries of a map of named arguments, which must fit a signature. -/
def arguments (signature : Signature) : Value → Except Fault Entries
  | .map entries =>
    if (names? entries).any signature.fits then .ok entries else .error .wrongShape
  | _ => .error .wrongShape

/-- The argument with a name, which must be there. -/
def required (arguments : Entries) (name : String) : Except Fault Value :=
  ((lookup? arguments (.text name)).map .ok).getD (.error .wrongShape)

/-- The argument with a name, or a default. -/
def optional (arguments : Entries) (name : String) (default : Value) : Value :=
  (lookup? arguments (.text name)).getD default

/-- The members of a value that can be gone through: a map's keys, a text's characters, a byte
string's bytes. -/
def elements : Value → Except Fault (List Value)
  | .list items | .tuple items | .set _ items => .ok items
  | .map entries => .ok (entries.map (·.1))
  | .text s => .ok (s.toList.map fun c => .text c.toString)
  | .bytes _ content => .ok (content.map fun b => .int b.toNat)
  | _ => .error .wrongShape

/-- Adds the entry that a pair of a key and a value spells. -/
def addPair (done : Entries) (pair : Value) : Except Fault Entries := do
  match ← pair.elements with
  | [key, value] => if key.isKey then return upsert key value done else throw .wrongShape
  | _ => throw .badValue

/-- The map that a value spells: a map itself, or any value whose members are pairs. -/
def toMap : Value → Except Fault Value
  | .map entries => .ok (.map entries)
  | v => return .map (← (← v.elements).foldlM addPair [])

def toMaps (v : Value) : Except Fault Value := return .list (← (← v.elements).mapM toMap)

/-- Whether some part of a text starts with the characters of another. -/
def hasInfix (part : List Char) : List Char → Bool
  | [] => part.isEmpty
  | c :: rest => part.isPrefixOf (c :: rest) || hasInfix part rest

/-- Whether a value holds a name: as a key, a member, or a part of a text. -/
def holds (v : Value) (name : String) : Except Fault Bool :=
  match v with
  | .map entries => .ok (lookup? entries (.text name)).isSome
  | .list items | .tuple items | .set _ items => .ok (items.any (same (.text name)))
  | .text s => .ok (hasInfix name.toList s.toList)
  | .bytes .view content => .ok (content.any fun b => same (.text name) (.int b.toNat))
  | _ => .error .wrongShape

theorem getD_map (entries : Entries) (name : String) (default : Value) :
    (map entries).getD name default = .ok ((lookup? entries (.text name)).getD default) := rfl

theorem lookup?_append (first second : Entries) (key : Value) :
    lookup? (first ++ second) key = (lookup? first key).or (lookup? second key) := by
  simp [lookup?, Option.map_or]

theorem lookup?_cons (entry : Value × Value) (rest : Entries) (key : Value) :
    lookup? (entry :: rest) key = if same entry.1 key then some entry.2 else lookup? rest key := by
  by_cases found : same entry.1 key = true <;> simp [lookup?, found]

theorem lookup_upsert (entries : Entries) (name : String) (value : Value) :
    lookup? (upsert (.text name) value entries) (.text name) = some value := by
  induction entries with
  | nil => simp [upsert, lookup?]
  | cons entry rest ih =>
    obtain ⟨k, v⟩ := entry
    simp only [lookup?] at ih ⊢
    by_cases found : same k (.text name) = true
    · simp [upsert, found]
    · simp [upsert, found, ih]

theorem lookup_upsert_of_ne (entries : Entries) (name other : String) (value : Value)
    (differs : other ≠ name) :
    lookup? (upsert (.text name) value entries) (.text other) = lookup? entries (.text other) := by
  have apart : same (.text name) (.text other) = false := by
    rw [← Bool.not_eq_true, same_text_iff]
    exact Ne.symm differs
  induction entries with
  | nil => simp [upsert, lookup?, apart]
  | cons entry rest ih =>
    obtain ⟨k, v⟩ := entry
    simp only [lookup?] at ih ⊢
    by_cases found : same k (.text name) = true
    · have held : k = .text name := (same_text_right_iff k name).mp found
      subst held
      simp [upsert, found, apart]
    · by_cases here : same k (.text other) = true
      · simp [upsert, found, here]
      · simp [upsert, found, here, ih]

/-- An entry under a new name goes to the end. -/
theorem upsert_of_absent {entries : Entries} {name : String}
    (absent : ∀ entry ∈ entries, entry.1 ≠ .text name) (value : Value) :
    upsert (.text name) value entries = entries ++ [(.text name, value)] := by
  induction entries with
  | nil => rfl
  | cons entry rest ih =>
    obtain ⟨k, v⟩ := entry
    rw [List.forall_mem_cons] at absent
    rw [upsert, if_neg (mt (same_text_right_iff k name).mp absent.1), ih absent.2, List.cons_append]

/-- A record holds under a name what its fields do. -/
theorem lookup_record (fields : List (String × Value)) (name : String) :
    lookup? (fields.map fun field => (.text field.1, field.2)) (.text name) =
      fields.lookup name := by
  induction fields with
  | nil => rfl
  | cons field rest ih =>
    obtain ⟨n, v⟩ := field
    rw [lookup?] at ih ⊢
    rw [List.map_cons, List.find?_cons, List.lookup_cons]
    by_cases found : name = n
    · subst found
      have alike : same (.text name) (.text name) = true := (same_text_iff name name).mpr rfl
      simp only [alike, beq_self_eq_true, Option.map_some]
    · have apart : same (.text n) (.text name) = false := by
        rw [Bool.eq_false_iff, ne_eq, same_text_iff]
        exact Ne.symm found
      have other : (name == n) = false := beq_eq_false_iff_ne.mpr found
      simp only [apart, other]
      exact ih

theorem getD_record (fields : List (String × Value)) (name : String) (default : Value) :
    (record fields).getD name default = .ok ((fields.lookup name).getD default) := by
  rw [record, getD_map, lookup_record]

@[simp] theorem elements_list (items : List Value) : elements (.list items) = .ok items := rfl

end TokenTable.Value
