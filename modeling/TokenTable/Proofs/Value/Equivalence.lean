import TokenTable.Proofs.Number.Exact
import TokenTable.Value.Same

/-! # Standing for the same thing

What stands for the same thing as a value stands for what the value does: the relation is transitive
(`same_trans`). It is symmetric as well (`same_symm`) if no set has a member twice and no map a key,
since sets and maps of one size are compared by looking the members of one up in the other. It is
not reflexive, because a number that is none differs from itself.
-/

namespace TokenTable

namespace Decimal

/-- What a decimal stands for: one of the infinities or a rational number. -/
def magnitude? : Decimal → Option (Bool ⊕ ℚ)
  | .finite negative c e => some (.inr (exactValue negative c e))
  | .infinite negative => some (.inl negative)
  | .nan .. => none

theorem sameValue_iff (x y : Decimal) :
    x.sameValue y = true ↔ ∃ n, x.magnitude? = some n ∧ y.magnitude? = some n := by
  cases x with
  | finite n c e =>
      cases y with
      | finite n' c' e' =>
          rw [sameValue, compare?, compareFinite_eq_compare, beq_iff_eq, Option.some_inj,
            compare_eq_iff_eq]
          constructor
          · intro equal
            exact ⟨.inr (exactValue n c e), rfl, by rw [magnitude?, equal]⟩
          · rintro ⟨_, ⟨⟩, same⟩
            exact (Sum.inr.inj (Option.some.inj same)).symm
      | infinite n' => cases n' <;> simp [sameValue, compare?, magnitude?]
      | nan => simp [sameValue, compare?, magnitude?]
  | infinite n =>
      cases y with
      | finite => cases n <;> simp [sameValue, compare?, magnitude?]
      | infinite n' =>
          cases n <;> cases n' <;> simp [sameValue, compare?, magnitude?]
      | nan => simp [sameValue, compare?, magnitude?]
  | nan => simp [sameValue, compare?, magnitude?]

end Decimal

namespace Value

/-- What a value that holds no others stands for. -/
inductive Essence where
  | null
  | wildcard
  | text (s : String)
  | bytes (content : List UInt8)
  | number (magnitude : Bool ⊕ ℚ)

def essence? : Value → Option Essence
  | .null => some .null
  | .wildcard => some .wildcard
  | .text s => some (.text s)
  | .bytes _ content => some (.bytes content)
  | v => (v.number?.bind Decimal.magnitude?).map .number

theorem sameAtom_iff (v w : Value) :
    sameAtom v w = true ↔ ∃ e, v.essence? = some e ∧ w.essence? = some e := by
  have numbers : ∀ x y : Decimal, x.sameValue y = true ↔
      ∃ e, x.magnitude?.map Essence.number = some e ∧ y.magnitude?.map Essence.number = some e := by
    intro x y
    rw [Decimal.sameValue_iff]
    cases x.magnitude? <;> cases y.magnitude? <;> simp
  cases v with
  | bool | int | float | decimal =>
      cases w with
      | bool | int | float | decimal => exact numbers _ _
      | _ => simp [sameAtom, essence?, number?]
  | text s => cases w <;> simp [sameAtom, essence?, number?, @eq_comm _ s]
  | bytes form content => cases w <;> simp [sameAtom, essence?, number?, @eq_comm _ content]
  | _ => cases w <;> simp [sameAtom, essence?, number?]

/-- The values that a value is made of. -/
def parts : Value → List Value
  | .list items | .tuple items | .set _ items => items
  | .map entries => entries.flatMap fun entry => [entry.1, entry.2]
  | _ => []

theorem sizeOf_lt_of_mem_parts {v part : Value} (member : part ∈ v.parts) :
    sizeOf part < sizeOf v := by
  cases v with
  | list items | tuple items | set _ items =>
      have smaller : sizeOf part < sizeOf items := List.sizeOf_lt_of_mem member
      simp only [list.sizeOf_spec, tuple.sizeOf_spec, set.sizeOf_spec]
      omega
  | map entries =>
      obtain ⟨⟨k, w⟩, inside, here⟩ := List.mem_flatMap.mp member
      have smaller := List.sizeOf_lt_of_mem inside
      simp only [map.sizeOf_spec]
      simp only [Prod.mk.sizeOf_spec] at smaller
      rcases List.mem_pair.mp here with rfl | rfl <;> omega
  | _ => cases member

/-- What holds of a value when it holds of its parts holds of every value. -/
theorem induction_parts {motive : Value → Prop}
    (step : ∀ v, (∀ part ∈ v.parts, motive part) → motive v) (v : Value) : motive v :=
  step v fun part member =>
    have := sizeOf_lt_of_mem_parts member
    induction_parts step part
termination_by sizeOf v

theorem sameList_iff (vs ws : List Value) :
    sameList vs ws = true ↔ List.Forall₂ (fun v w => same v w = true) vs ws := by
  induction vs generalizing ws with
  | nil => cases ws <;> simp [sameList]
  | cons v rest ih => cases ws <;> simp [sameList, ih]

/-- The ways in which two values stand for the same thing, given which of their parts do. -/
inductive Corresponds (related : Value → Value → Prop) : Value → Value → Prop
  | atom {v w : Value} {e : Essence} (left : v.essence? = some e) (right : w.essence? = some e) :
      Corresponds related v w
  | list {vs ws : List Value} (each : List.Forall₂ related vs ws) :
      Corresponds related (.list vs) (.list ws)
  | tuple {vs ws : List Value} (each : List.Forall₂ related vs ws) :
      Corresponds related (.tuple vs) (.tuple ws)
  | set {frozen frozenOther : Bool} {vs ws : List Value} (size : vs.length = ws.length)
      (within : ∀ v ∈ vs, ∃ w ∈ ws, related v w) :
      Corresponds related (.set frozen vs) (.set frozenOther ws)
  | map {entries others : List (Value × Value)} (size : entries.length = others.length)
      (within : ∀ entry ∈ entries, ∃ other ∈ others,
        related entry.1 other.1 ∧ related entry.2 other.2) :
      Corresponds related (.map entries) (.map others)

theorem same_iff_corresponds (v w : Value) :
    v.same w = true ↔ Corresponds (fun v w => v.same w = true) v w := by
  constructor
  · intro agree
    unfold same at agree
    split at agree
    · exact .list ((sameList_iff _ _).mp agree)
    · exact .tuple ((sameList_iff _ _).mp agree)
    · rw [Bool.and_eq_true, beq_iff_eq, allWithin_iff] at agree
      exact .set agree.1 agree.2
    · rw [Bool.and_eq_true, beq_iff_eq, entriesWithin_iff] at agree
      exact .map agree.1 agree.2
    · obtain ⟨e, left, right⟩ := (sameAtom_iff v w).mp agree
      exact .atom left right
  · intro corresponds
    cases corresponds with
    | atom left right =>
        have atoms := (sameAtom_iff v w).mpr ⟨_, left, right⟩
        cases v with
        | list | tuple | set | map => cases left
        | _ => exact atoms
    | list each => exact (sameList_iff _ _).mpr each
    | tuple each => exact (sameList_iff _ _).mpr each
    | set size within =>
        rw [same, Bool.and_eq_true, beq_iff_eq, allWithin_iff]
        exact ⟨size, within⟩
    | map size within =>
        rw [same, Bool.and_eq_true, beq_iff_eq, entriesWithin_iff]
        exact ⟨size, within⟩

theorem mem_parts_map {entries : List (Value × Value)} {entry : Value × Value}
    (member : entry ∈ entries) : entry.1 ∈ (map entries).parts ∧ entry.2 ∈ (map entries).parts := by
  constructor
  · exact List.mem_flatMap.mpr ⟨entry, member, List.mem_cons_self⟩
  · exact List.mem_flatMap.mpr ⟨entry, member, List.mem_cons_of_mem _ List.mem_cons_self⟩

theorem forall₂_trans_of_mem {related : Value → Value → Prop} {us vs ws : List Value}
    (trans : ∀ u ∈ us, ∀ v w, related u v → related v w → related u w)
    (first : List.Forall₂ related us vs) (second : List.Forall₂ related vs ws) :
    List.Forall₂ related us ws := by
  induction first generalizing ws with
  | nil => exact second
  | cons here _ ih =>
      cases second with
      | cons there others =>
          rw [List.forall_mem_cons] at trans
          exact .cons (trans.1 _ _ here there) (ih trans.2 others)

/-- What a value stands for, what stands for the same thing as the value stands for too. -/
theorem same_trans {u v w : Value} (first : u.same v = true) (second : v.same w = true) :
    u.same w = true := by
  induction u using induction_parts generalizing v w with
  | step u ih =>
      replace ih : ∀ part ∈ u.parts, ∀ v w, part.same v = true → v.same w = true →
          part.same w = true := fun part member v w => ih part member
      rw [same_iff_corresponds] at first second ⊢
      cases first with
      | atom left right =>
          cases second with
          | atom middle other =>
              rw [right] at middle
              cases middle
              exact .atom left other
          | _ => cases right
      | list each =>
          cases second with
          | atom middle => cases middle
          | list others => exact .list (forall₂_trans_of_mem ih each others)
      | tuple each =>
          cases second with
          | atom middle => cases middle
          | tuple others => exact .tuple (forall₂_trans_of_mem ih each others)
      | set size within =>
          cases second with
          | atom middle => cases middle
          | set sizeOther withinOther =>
              refine .set (size.trans sizeOther) fun u member => ?_
              obtain ⟨v, inside, agree⟩ := within u member
              obtain ⟨w, found, agreeOther⟩ := withinOther v inside
              exact ⟨w, found, ih u member v w agree agreeOther⟩
      | map size within =>
          cases second with
          | atom middle => cases middle
          | map sizeOther withinOther =>
              refine .map (size.trans sizeOther) fun entry member => ?_
              obtain ⟨other, inside, agree⟩ := within entry member
              obtain ⟨last, found, agreeOther⟩ := withinOther other inside
              have parts := mem_parts_map member
              exact ⟨last, found, ih _ parts.1 _ _ agree.1 agreeOther.1,
                ih _ parts.2 _ _ agree.2 agreeOther.2⟩

mutual

/-- Whether no set in the value has a member twice, and no map a key. -/
def isProper : Value → Bool
  | .list items | .tuple items => allProper items
  | .set _ members =>
    allProper members && decide (members.Pairwise fun v w => same v w = false)
  | .map entries =>
    entriesProper entries && decide (entries.Pairwise fun e e' => same e.1 e'.1 = false)
  | _ => true
termination_by structural v => v

def allProper : List Value → Bool
  | [] => true
  | v :: rest => isProper v && allProper rest
termination_by structural vs => vs

def entriesProper : List (Value × Value) → Bool
  | [] => true
  | (k, v) :: rest => isProper k && isProper v && entriesProper rest
termination_by structural entries => entries

end

theorem allProper_iff (vs : List Value) : allProper vs = true ↔ ∀ v ∈ vs, v.isProper = true := by
  induction vs with
  | nil => simp [allProper]
  | cons v rest ih => simp [allProper, ih]

theorem entriesProper_iff (entries : List (Value × Value)) :
    entriesProper entries = true ↔
      ∀ entry ∈ entries, entry.1.isProper = true ∧ entry.2.isProper = true := by
  induction entries with
  | nil => simp [entriesProper]
  | cons entry rest ih => simp [entriesProper, ih]

/-- When each of some things is related to one of no more others, and no two of them to the same,
then each of the others is related to. -/
theorem exists_related_of_length_le {α β : Type} {related : α → β → Prop} {xs : List α}
    {ys : List β} (within : ∀ x ∈ xs, ∃ y ∈ ys, related x y)
    (apart : xs.Pairwise fun x x' => ∀ y, related x y → ¬ related x' y)
    (size : ys.length ≤ xs.length) : ∀ y ∈ ys, ∃ x ∈ xs, related x y := by
  induction xs generalizing ys with
  | nil =>
      intro y member
      rw [List.length_eq_zero_iff.mp (Nat.le_zero.mp size)] at member
      cases member
  | cons x rest ih =>
      rw [List.forall_mem_cons] at within
      obtain ⟨⟨y, inside, here⟩, later⟩ := within
      rw [List.pairwise_cons] at apart
      obtain ⟨before, after, rfl⟩ := List.append_of_mem inside
      have elsewhere : ∀ x' ∈ rest, ∃ y' ∈ before ++ after, related x' y' := by
        intro x' member
        obtain ⟨y', found, there⟩ := later x' member
        have other : y' ≠ y := by
          rintro rfl
          exact apart.1 x' member y' here there
        refine ⟨y', ?_, there⟩
        rw [List.mem_append, List.mem_cons] at found
        rw [List.mem_append]
        exact found.imp_right fun found => found.resolve_left other
      have fewer : (before ++ after).length ≤ rest.length := by
        simp only [List.length_append, List.length_cons] at size ⊢
        omega
      intro y' member
      by_cases equal : y' = y
      · exact ⟨x, List.mem_cons_self, equal ▸ here⟩
      · have others : y' ∈ before ++ after := by
          rw [List.mem_append, List.mem_cons] at member
          rw [List.mem_append]
          exact member.imp_right fun found => found.resolve_left equal
        obtain ⟨x', found, there⟩ := ih elsewhere apart.2 fewer y' others
        exact ⟨x', List.mem_cons_of_mem _ found, there⟩

theorem forall₂_symm_of_mem {related : Value → Value → Prop} {vs ws : List Value}
    (symm : ∀ v ∈ vs, ∀ w, related v w → related w v) (each : List.Forall₂ related vs ws) :
    List.Forall₂ related ws vs := by
  induction each with
  | nil => exact .nil
  | cons here _ ih =>
      rw [List.forall_mem_cons] at symm
      exact .cons (symm.1 _ here) (ih symm.2)

/-- What a proper value stands for the same thing as stands for the same thing as that value. -/
theorem same_symm {v w : Value} (proper : v.isProper = true) (agree : v.same w = true) :
    w.same v = true := by
  induction v using induction_parts generalizing w with
  | step v ih =>
      rw [same_iff_corresponds] at agree ⊢
      cases agree with
      | atom left right => exact .atom right left
      | list each =>
          rw [isProper, allProper_iff] at proper
          exact .list (forall₂_symm_of_mem (fun v member w => ih v member (proper v member)) each)
      | tuple each =>
          rw [isProper, allProper_iff] at proper
          exact .tuple (forall₂_symm_of_mem (fun v member w => ih v member (proper v member)) each)
      | @set frozen frozenOther vs ws size within =>
          rw [isProper, Bool.and_eq_true, allProper_iff, decide_eq_true_eq] at proper
          have symm : ∀ v ∈ vs, ∀ w, v.same w = true → w.same v = true :=
            fun v member w => ih v member (proper.1 v member)
          have apart := proper.2.imp_of_mem
            (S := fun v v' => ∀ w, v.same w = true → ¬ v'.same w = true) ?_
          · refine .set size.symm fun w member => ?_
            obtain ⟨v, inside, agree⟩ :=
              exists_related_of_length_le within apart size.ge w member
            exact ⟨v, inside, symm v inside w agree⟩
          · intro v v' member member' differ w first second
            rw [same_trans first (symm v' member' w second)] at differ
            cases differ
      | @map entries others size within =>
          rw [isProper, Bool.and_eq_true, entriesProper_iff, decide_eq_true_eq] at proper
          have symm : ∀ entry ∈ entries, ∀ w, (entry.1.same w = true → w.same entry.1 = true) ∧
              (entry.2.same w = true → w.same entry.2 = true) := by
            intro entry member w
            have parts := mem_parts_map member
            have each := proper.1 entry member
            exact ⟨ih _ parts.1 each.1, ih _ parts.2 each.2⟩
          have apart := proper.2.imp_of_mem
            (S := fun entry entry' => ∀ other : Value × Value,
              (entry.1.same other.1 = true ∧ entry.2.same other.2 = true) →
                ¬ (entry'.1.same other.1 = true ∧ entry'.2.same other.2 = true)) ?_
          · refine .map size.symm fun other member => ?_
            obtain ⟨entry, inside, agree⟩ :=
              exists_related_of_length_le within apart size.ge other member
            exact ⟨entry, inside, (symm entry inside _).1 agree.1,
              (symm entry inside _).2 agree.2⟩
          · intro entry entry' member member' differ other first second
            rw [same_trans first.1 ((symm entry' member' _).1 second.1)] at differ
            cases differ

end Value

end TokenTable
