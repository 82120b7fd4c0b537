import Mathlib.Data.String.Basic
import Mathlib.Data.Sum.Order
import TokenTable.Ordering
import TokenTable.Proofs.Number.Exact
import TokenTable.Proofs.Number.Readback

/-! # Where values stand in an order

Every value that items may be ordered by stands at one place in a line: texts that spell finite
numbers stand first, by their exact values, then other texts by code point, byte strings by byte,
lists, and the rest. Where a value stands is told without its sort key (`Value.StandsAt`); the sort
key finds that place (`Value.standsAt_iff`), and one sort key is before another exactly when its
place is (`SortKey.before_iff_place_lt`). So the comparison of values by their sort keys is total
and transitive as the order of places is.
-/

namespace TokenTable

namespace SortKey

/-- The places of values, group after group. -/
abbrev Place : Type := ℚ ⊕ₗ String ⊕ₗ List Nat ⊕ₗ List String ⊕ₗ String

namespace Place

abbrev ofNumber (value : ℚ) : Place := Sum.inlₗ value

abbrev ofText (s : String) : Place := Sum.inrₗ (Sum.inlₗ s)

abbrev ofBytes (content : List Nat) : Place := Sum.inrₗ (Sum.inrₗ (Sum.inlₗ content))

abbrev ofList (written : List String) : Place := Sum.inrₗ (Sum.inrₗ (Sum.inrₗ (Sum.inlₗ written)))

abbrev ofRest (written : String) : Place := Sum.inrₗ (Sum.inrₗ (Sum.inrₗ (Sum.inrₗ written)))

end Place

def place : SortKey → Place
  | .number negative c e => .ofNumber (Decimal.exactValue negative c e)
  | .text s => .ofText s
  | .bytes content => .ofBytes (content.map UInt8.toNat)
  | .list written => .ofList written
  | .other written => .ofRest written

theorem bytes_lt_iff (content other : List UInt8) :
    content < other ↔ content.map UInt8.toNat < other.map UInt8.toNat := by
  induction content generalizing other with
  | nil => cases other <;> simp
  | cons b rest ih =>
      cases other with
      | nil => simp
      | cons b' rest' =>
          rw [List.map_cons, List.map_cons, List.cons_lt_cons_iff, List.cons_lt_cons_iff, ← ih,
            UInt8.lt_iff_toNat_lt, UInt8.toNat_inj]

/-- **Sort keys stand in one line.** One is before another exactly when its place is. -/
theorem before_iff_place_lt (k k' : SortKey) : k.before k' = true ↔ k.place < k'.place := by
  cases k with
  | number n c e =>
      cases k' with
      | number n' c' e' =>
          rw [before, place, place, Sum.Lex.inl_lt_inl_iff, Decimal.compareFinite_eq_compare,
            beq_iff_eq, compare_lt_iff_lt]
      | _ => simp [before, rank, place]
  | text s =>
      cases k' with
      | text t => simp [before, place]
      | _ => simp [before, rank, place]
  | bytes b =>
      cases k' with
      | bytes b' => simp [before, place, bytes_lt_iff]
      | _ => simp [before, rank, place]
  | list l =>
      cases k' with
      | list l' => simp [before, place]
      | _ => simp [before, rank, place]
  | other s =>
      cases k' with
      | other t => simp [before, place]
      | _ => simp [before, rank, place]

end SortKey

namespace Value

/-- Whether a value is a number, which stands where the text that displays it does. -/
def isNumber : Value → Bool
  | .int _ | .float _ | .decimal _ => true
  | _ => false

/-- Whether a value is of the rest: no text, no number, no plain byte string and no list. -/
def isRest : Value → Bool
  | .text _ | .int _ | .float _ | .decimal _ | .bytes .plain _ | .list _ => false
  | _ => true

/-- Where a value stands. -/
inductive StandsAt : Value → SortKey.Place → Prop
  /-- However a text spells a finite number, it stands at the exact value. -/
  | number {s : String} {negative : Bool} {c : Nat} {e : Int}
      (spelled : Decimal.read? s = some (.finite negative c e)) :
      StandsAt (.text s) (.ofNumber (Decimal.exactValue negative c e))
  | text {s : String}
      (unspelled : ∀ negative c e, Decimal.read? s ≠ some (.finite negative c e)) :
      StandsAt (.text s) (.ofText s)
  | bytes (content : List UInt8) :
      StandsAt (.bytes .plain content) (.ofBytes (content.map UInt8.toNat))
  | list (items : List Value) : StandsAt (.list items) (.ofList (items.map written))
  | displayed {v : Value} {p : SortKey.Place} (number : v.isNumber = true)
      (stands : StandsAt (.text v.display) p) : StandsAt v p
  | rest {v : Value} (other : v.isRest = true) : StandsAt v (.ofRest v.written)

/-- A finite number that is written as a text stands at its exact value. -/
theorem standsAt_toText {n : Bool} {c : Nat} {e : Int} (legible : (Decimal.finite n c e).Legible) :
    (text (Decimal.finite n c e).toText).StandsAt (.ofNumber (Decimal.exactValue n c e)) :=
  .number (Decimal.read?_toText _ legible)

theorem standsAt_text (s : String) : (text s).StandsAt (SortKey.ofText s).place := by
  rw [SortKey.ofText]
  split
  · exact .number ‹_›
  · exact .text ‹_›

/-- Every value stands where its sort key says. -/
theorem standsAt_ofValue (v : Value) : v.StandsAt (SortKey.ofValue v).place := by
  cases v with
  | text s => exact standsAt_text s
  | int | float | decimal => exact .displayed rfl (standsAt_text _)
  | bytes form content =>
      cases form with
      | plain => exact .bytes content
      | growable | view => exact .rest rfl
  | list items => exact .list items
  | _ => exact .rest rfl

theorem ofValue_of_isNumber {v : Value} (number : v.isNumber = true) :
    SortKey.ofValue v = SortKey.ofText v.display := by
  cases v with
  | int | float | decimal => rfl
  | _ => cases number

theorem ofValue_of_isRest {v : Value} (other : v.isRest = true) :
    SortKey.ofValue v = .other v.written := by
  cases v with
  | bytes form =>
      cases form with
      | plain => cases other
      | growable | view => rfl
  | text | int | float | decimal | list => cases other
  | _ => rfl

/-- A value stands nowhere else. The induction follows a number to the text that displays it. -/
theorem place_of_standsAt {v : Value} {p : SortKey.Place} (stands : v.StandsAt p) :
    (SortKey.ofValue v).place = p := by
  induction stands with
  | number spelled => rw [SortKey.ofValue, SortKey.ofText, spelled, SortKey.place]
  | text unspelled =>
      rw [SortKey.ofValue, SortKey.ofText]
      split
      · exact absurd ‹_› (unspelled _ _ _)
      · rfl
  | bytes | list => rfl
  | displayed number _ ih => rwa [ofValue_of_isNumber number]
  | rest other => rw [ofValue_of_isRest other, SortKey.place]

/-- **The sort key finds the place of a value**, and there is no other. -/
theorem standsAt_iff (v : Value) (p : SortKey.Place) :
    v.StandsAt p ↔ (SortKey.ofValue v).place = p :=
  ⟨place_of_standsAt, fun same => same ▸ standsAt_ofValue v⟩

end Value

end TokenTable
