import Mathlib.Data.List.FinRange
import Mathlib.Data.List.Sort
import Mathlib.Tactic.FinCases
import TokenTable.Proofs.Batch.Matching
import TokenTable.Proofs.Fingerprint.Agreement
import TokenTable.Proofs.Fingerprint.Proper

/-! # Which entry is taken for what came back

The entries with one fingerprint wait in a line, in the order in which they were submitted. Each
native that a store hands back gets the next one of its line, and an entry of its own once the line
is used up (`matchNatives_eq`). So no entry is taken twice, the entries of a line are taken in
order, and an entry is made exactly for what came back more often than it was submitted
(`remainder_assigns`).
-/

namespace TokenTable.Batch

variable {entries : List Entry} {natives : List Value}

/-- The number of natives before one that have its fingerprint. -/
def earlier (natives : List Value) (i : Fin natives.length) : Nat :=
  (natives.take i).countP fun other => sameMark other natives[i]

/-- The line for a native: those of some places whose entries have its fingerprint. -/
def line (entries : List Entry) (places : List (Fin entries.length)) (native : Value) :
    List (Fin entries.length) :=
  places.filter fun p => sameMark entries[p].native native

theorem line_append (places others : List (Fin entries.length)) (native : Value) :
    line entries (places ++ others) native =
      line entries places native ++ line entries others native :=
  List.filter_append ..

theorem line_cons (p : Fin entries.length) (places : List (Fin entries.length)) (native : Value) :
    line entries (p :: places) native =
      if sameMark entries[p].native native = true then p :: line entries places native
      else line entries places native :=
  List.filter_cons

theorem line_eq_nil {places : List (Fin entries.length)} {native : Value}
    (differ : ∀ p ∈ places, sameMark entries[p].native native = false) :
    line entries places native = [] :=
  List.filter_eq_nil_iff.mpr fun p member => by rw [differ p member]; exact Bool.false_ne_true

/-- What differs from a native differs from what has the fingerprint of the native. -/
theorem sameMark_eq_false {places : List (Fin entries.length)} {native other : Value}
    (differ : ∀ p ∈ places, sameMark entries[p].native native = false)
    (proper : native.isProper = true) (agree : sameMark native other = true) :
    ∀ p ∈ places, sameMark entries[p].native other = false := by
  intro p member
  refine Bool.eq_false_iff.mpr fun here => ?_
  have wrong := sameMark_trans here (sameMark_symm proper agree)
  rw [differ p member] at wrong
  cases wrong

/-- The place of the entry that is taken for a native, where those at some places are left. -/
def origin (entries : List Entry) (places : List (Fin entries.length)) (natives : List Value)
    (i : Fin natives.length) : Option (Fin entries.length) :=
  (line entries places natives[i])[earlier natives i]?

/-- The entry at a place, or one that is made for a native. -/
def taken (restore : Value → Except Fault Value) (entries : List Entry) (native : Value) :
    Option (Fin entries.length) → Except Fault Entry
  | some p => .ok entries[p]
  | none => do return { source := ← restore native, native }

section Steps

variable {native : Value} {rest : List Value}

theorem earlier_succ (i : Fin rest.length) :
    earlier (native :: rest) i.succ =
      earlier rest i + if sameMark native rest[i] = true then 1 else 0 := by
  have drop : (native :: rest).take (i.succ : Fin (rest.length + 1)) = native :: rest.take i := rfl
  rw [earlier, drop, List.countP_cons]
  rfl

/-- The line is as before for all natives if nothing is in the line of the first. -/
theorem origin_succ_of_empty {places : List (Fin entries.length)}
    (differ : ∀ p ∈ places, sameMark entries[p].native native = false)
    (proper : native.isProper = true) (i : Fin rest.length) :
    origin entries places (native :: rest) i.succ = origin entries places rest i := by
  have same : (native :: rest)[i.succ] = rest[i] := rfl
  rw [origin, origin, same, earlier_succ]
  by_cases agree : sameMark native rest[i] = true
  · rw [line_eq_nil (sameMark_eq_false differ proper agree), List.getElem?_nil, List.getElem?_nil]
  · rw [if_neg agree, Nat.add_zero]

/-- When the first native is given the next place of its line, that place leaves all lines. -/
theorem origin_succ_of_taken {before after : List (Fin entries.length)} {p : Fin entries.length}
    (differ : ∀ q ∈ before, sameMark entries[q].native native = false)
    (here : sameMark entries[p].native native = true) (proper : native.isProper = true)
    (properEntry : entries[p].native.isProper = true) (i : Fin rest.length) :
    origin entries (before ++ p :: after) (native :: rest) i.succ =
      origin entries (before ++ after) rest i := by
  have same : (native :: rest)[i.succ] = rest[i] := rfl
  rw [origin, origin, same, earlier_succ, line_append, line_append, line_cons]
  by_cases agree : sameMark native rest[i] = true
  · rw [line_eq_nil (sameMark_eq_false differ proper agree), if_pos (sameMark_trans here agree),
      if_pos agree]
    rfl
  · have elsewhere : ¬ sameMark entries[p].native rest[i] = true :=
      fun other => agree (sameMark_trans (sameMark_symm properEntry here) other)
    rw [if_neg elsewhere, if_neg agree, Nat.add_zero]

end Steps

theorem matchNatives_cons_of_some (restore : Value → Except Fault Value) {native mark : Value}
    (rest : List Value) {marked left : List (Value × Entry)} {entry : Entry}
    (done : fingerprint native = pure mark) (took : takeMatch? mark marked = some (entry, left)) :
    matchNatives restore marked (native :: rest) =
      (do return entry :: (← matchNatives restore left rest)) := by
  rw [matchNatives, done, pure_bind, took]

theorem matchNatives_cons_of_none (restore : Value → Except Fault Value) {native mark : Value}
    (rest : List Value) {marked : List (Value × Entry)}
    (done : fingerprint native = pure mark) (took : takeMatch? mark marked = none) :
    matchNatives restore marked (native :: rest) =
      (do return { source := ← restore native, native } ::
        (← matchNatives restore marked rest)) := by
  rw [matchNatives, done, pure_bind, took]

/-- Each native gets the next place of its line, as long as there is one. -/
theorem matchNatives_eq (restore : Value → Except Fault Value) {markAt : Fin entries.length → Value}
    (marked : ∀ p, fingerprint entries[p].native = .ok (markAt p))
    (proper : ∀ entry ∈ entries, entry.native.isProper = true)
    (markedNatives : ∀ native ∈ natives, ∃ mark, fingerprint native = .ok mark)
    (properNatives : ∀ native ∈ natives, native.isProper = true)
    (places : List (Fin entries.length)) :
    matchNatives restore (places.map fun p => (markAt p, entries[p])) natives =
      (List.finRange natives.length).mapM fun i =>
        taken restore entries natives[i] (origin entries places natives i) := by
  induction natives generalizing places with
  | nil => rfl
  | cons native rest ih =>
      rw [List.forall_mem_cons] at markedNatives properNatives
      obtain ⟨mark, done⟩ := markedNatives.1
      have marks : ∀ p : Fin entries.length,
          (markAt p).same mark = sameMark entries[p].native native :=
        fun p => (sameMark_of_fingerprint (marked p) done).symm
      have split : List.finRange (native :: rest).length =
          0 :: (List.finRange rest.length).map Fin.succ := List.finRange_succ
      rw [split, List.mapM_cons, List.mapM_map]
      rcases takeMatch?_map (fun p => (markAt p, entries[p])) mark places with
        ⟨before, p, after, rfl, differ, agree, took⟩ | ⟨differ, took⟩
      · simp only [marks] at differ agree
        have first : origin entries (before ++ p :: after) (native :: rest) 0 = some p := by
          have here : line entries (before ++ p :: after) native =
              p :: line entries after native := by
            rw [line_append, line_eq_nil differ, line_cons, if_pos agree, List.nil_append]
          exact congrArg (·[0]?) here
        have others : (fun i => taken restore entries (native :: rest)[i]
            (origin entries (before ++ p :: after) (native :: rest) i)) ∘ Fin.succ =
            fun i => taken restore entries rest[i] (origin entries (before ++ after) rest i) := by
          funext i
          exact congrArg (taken restore entries rest[i]) (origin_succ_of_taken differ agree
            properNatives.1 (proper _ (List.getElem_mem _)) i)
        rw [first, others, ← ih markedNatives.2 properNatives.2,
          matchNatives_cons_of_some restore rest done took]
        rfl
      · simp only [marks] at differ
        have first : origin entries places (native :: rest) 0 = none :=
          congrArg (·[0]?) (line_eq_nil differ)
        have others : (fun i => taken restore entries (native :: rest)[i]
            (origin entries places (native :: rest) i)) ∘ Fin.succ =
            fun i => taken restore entries rest[i] (origin entries places rest i) := by
          funext i
          exact congrArg (taken restore entries rest[i])
            (origin_succ_of_empty differ properNatives.1 i)
        rw [first, others, ← ih markedNatives.2 properNatives.2,
          matchNatives_cons_of_none restore rest done took, taken, bind_assoc]
        rfl

/-- If more than `k` of the first natives have a fingerprint, then one of them that has it comes
after just `k` of them. -/
theorem exists_earlier_eq {native : Value} {count k : Nat}
    (more : k < (natives.take count).countP fun other => sameMark other native) :
    ∃ i : Fin natives.length, i < count ∧ sameMark natives[i] native = true ∧
      ((natives.take i).countP fun other => sameMark other native) = k := by
  induction count with
  | zero => cases more
  | succ count ih =>
      by_cases before : k < (natives.take count).countP fun other => sameMark other native
      · obtain ⟨i, within, rest⟩ := ih before
        exact ⟨i, by omega, rest⟩
      · rw [List.take_add_one, List.countP_append] at more
        cases found : natives[count]? with
        | none =>
            rw [found] at more
            exact absurd more before
        | some other =>
            obtain ⟨inside, same⟩ := List.getElem?_eq_some_iff.mp found
            rw [found, Option.toList_some, List.countP_singleton] at more
            by_cases agree : sameMark other native = true
            · refine ⟨⟨count, inside⟩, Nat.lt_succ_self count, ?_, ?_⟩
              · rw [← same] at agree
                exact agree
              · rw [if_pos agree] at more
                simp only
                omega
            · rw [if_neg agree] at more
              exact absurd more before

/-- A fair assignment: each native is given a place whose entry has its fingerprint, or none. -/
structure Assigns (entries : List Entry) (natives : List Value)
    (assigned : Fin natives.length → Option (Fin entries.length)) : Prop where
  same : ∀ i p, assigned i = some p → sameMark entries[p].native natives[i] = true
  /-- No place is given twice. -/
  once : ∀ i j p, assigned i = some p → assigned j = some p → i = j
  /-- Entries with one fingerprint are given in their order. -/
  inOrder : ∀ i j p q, assigned i = some p → assigned j = some q →
    sameMark entries[p].native entries[q].native = true → (i < j ↔ p < q)
  /-- An entry is given only after all with its fingerprint before it. -/
  earliest : ∀ j q, assigned j = some q → ∀ p < q,
    sameMark entries[p].native entries[q].native = true → ∃ i < j, assigned i = some p
  /-- No place is given for a native exactly when the natives up to it with its fingerprint, itself
  included, are more than the entries with that fingerprint. -/
  none_iff : ∀ i, assigned i = none ↔
    (entries.countP fun entry => sameMark entry.native natives[i]) <
      ((natives.take i).countP fun other => sameMark other natives[i]) + 1

section Lines

variable (proper : ∀ entry ∈ entries, entry.native.isProper = true)
    (properNatives : ∀ native ∈ natives, native.isProper = true)

theorem pairwise_line (native : Value) :
    (line entries (List.finRange entries.length) native).Pairwise (· < ·) :=
  (List.pairwise_lt_finRange _).filter _

theorem mem_line_iff (p : Fin entries.length) (native : Value) :
    p ∈ line entries (List.finRange entries.length) native ↔
      sameMark entries[p].native native = true := by
  simp [line]

theorem length_line (native : Value) :
    (line entries (List.finRange entries.length) native).length =
      entries.countP fun entry => sameMark entry.native native := by
  conv_rhs => rw [← List.map_get_finRange entries]
  rw [line, List.countP_map, List.countP_eq_length_filter]
  rfl

theorem sameMark_of_origin {i : Fin natives.length} {p : Fin entries.length}
    (given : origin entries (List.finRange entries.length) natives i = some p) :
    sameMark entries[p].native natives[i] = true :=
  (mem_line_iff p _).mp (List.mem_of_getElem? given)

theorem origin_eq_none_iff (i : Fin natives.length) :
    origin entries (List.finRange entries.length) natives i = none ↔
      (entries.countP fun entry => sameMark entry.native natives[i]) <
        ((natives.take i).countP fun other => sameMark other natives[i]) + 1 := by
  rw [origin, List.getElem?_eq_none_iff, length_line, Nat.lt_succ_iff, earlier]

section Natives

include properNatives

theorem sameMark_congr {i j : Fin natives.length} (agree : sameMark natives[i] natives[j] = true)
    (native : Value) : sameMark native natives[i] = sameMark native natives[j] := by
  have back := sameMark_symm (properNatives _ (List.getElem_mem i.isLt)) agree
  rw [Bool.eq_iff_iff]
  exact ⟨fun here => sameMark_trans here agree, fun here => sameMark_trans here back⟩

theorem line_congr {i j : Fin natives.length} (agree : sameMark natives[i] natives[j] = true)
    (places : List (Fin entries.length)) :
    line entries places natives[i] = line entries places natives[j] :=
  List.filter_congr fun p _ => sameMark_congr properNatives agree entries[p].native

theorem earlier_congr {i j : Fin natives.length}
    (agree : sameMark natives[i] natives[j] = true) :
    earlier natives i = (natives.take i).countP fun other => sameMark other natives[j] :=
  List.countP_congr fun native _ => by rw [sameMark_congr properNatives agree native]

/-- Of two natives with one fingerprint the later one has more before it. -/
theorem earlier_lt {i j : Fin natives.length} (agree : sameMark natives[i] natives[j] = true)
    (before : i < j) : earlier natives i < earlier natives j := by
  have last : sameMark natives[(i : Nat)] natives[j] = true := agree
  have parts : (natives.take (i + 1)).countP (fun other => sameMark other natives[j]) =
      earlier natives i + 1 := by
    rw [List.take_add_one, List.countP_append, earlier_congr properNatives agree,
      List.getElem?_eq_getElem i.isLt, Option.toList_some, List.countP_singleton, if_pos last]
  have shorter : (natives.take (i + 1)).Sublist (natives.take j) :=
    (List.take_prefix_take_left before).sublist
  have least := shorter.countP_le (p := fun other => sameMark other natives[j])
  rw [parts] at least
  exact least

/-- Of two natives with one fingerprint the later one is given a later place. -/
theorem lt_of_origin {i j : Fin natives.length} {p q : Fin entries.length}
    (agree : sameMark natives[i] natives[j] = true) (before : i < j)
    (given : origin entries (List.finRange entries.length) natives i = some p)
    (givenOther : origin entries (List.finRange entries.length) natives j = some q) : p < q := by
  rw [origin, line_congr properNatives agree] at given
  obtain ⟨inside, rfl⟩ := List.getElem?_eq_some_iff.mp given
  obtain ⟨insideOther, rfl⟩ := List.getElem?_eq_some_iff.mp givenOther
  exact List.pairwise_iff_getElem.mp (pairwise_line natives[j]) _ _ inside insideOther
    (earlier_lt properNatives agree before)

end Natives

include proper

/-- Natives have one fingerprint if the entries that they are given have one. -/
theorem sameMark_of_origins {i j : Fin natives.length} {p q : Fin entries.length}
    (given : origin entries (List.finRange entries.length) natives i = some p)
    (givenOther : origin entries (List.finRange entries.length) natives j = some q)
    (agree : sameMark entries[p].native entries[q].native = true) :
    sameMark natives[i] natives[j] = true :=
  sameMark_trans (sameMark_symm (proper _ (List.getElem_mem p.isLt)) (sameMark_of_origin given))
    (sameMark_trans agree (sameMark_of_origin givenOther))

include properNatives

/-- Entries with one fingerprint are given in their order. -/
theorem lt_iff_of_origins {i j : Fin natives.length} {p q : Fin entries.length}
    (given : origin entries (List.finRange entries.length) natives i = some p)
    (givenOther : origin entries (List.finRange entries.length) natives j = some q)
    (agree : sameMark entries[p].native entries[q].native = true) : i < j ↔ p < q := by
  have forth := sameMark_of_origins proper given givenOther agree
  have back := sameMark_symm (properNatives _ (List.getElem_mem i.isLt)) forth
  constructor
  · intro before
    exact lt_of_origin properNatives forth before given givenOther
  · intro less
    rcases lt_trichotomy i j with before | rfl | after
    · exact before
    · rw [given] at givenOther
      cases givenOther
      exact absurd less (lt_irrefl p)
    · have more := lt_of_origin properNatives back after givenOther given
      exact absurd less (lt_asymm more)

theorem assigns_origin :
    Assigns entries natives (origin entries (List.finRange entries.length) natives) where
  same _ _ := sameMark_of_origin
  once i j p given givenOther := by
    have here := sameMark_of_origin given
    have agree := sameMark_trans here (sameMark_symm (proper _ (List.getElem_mem p.isLt)) here)
    have forth := lt_iff_of_origins proper properNatives given givenOther agree
    have back := lt_iff_of_origins proper properNatives givenOther given agree
    rcases lt_trichotomy i j with before | equal | after
    · exact absurd (forth.mp before) (lt_irrefl p)
    · exact equal
    · exact absurd (back.mp after) (lt_irrefl p)
  inOrder _ _ _ _ := lt_iff_of_origins proper properNatives
  earliest j q given p less agree := by
    have present : p ∈ line entries (List.finRange entries.length) natives[j] :=
      (mem_line_iff p _).mpr (sameMark_trans agree (sameMark_of_origin given))
    obtain ⟨k, inside, found⟩ := List.mem_iff_getElem.mp present
    obtain ⟨insideOther, foundOther⟩ := List.getElem?_eq_some_iff.mp given
    rw [← found, ← foundOther] at less
    have few := (pairwise_line natives[j]).sortedLT.getElem_lt_getElem_iff.mp less
    obtain ⟨i, before, same, count⟩ := exists_earlier_eq few
    refine ⟨i, before, ?_⟩
    rw [origin, line_congr properNatives same, earlier_congr properNatives same, count]
    exact List.getElem?_eq_some_iff.mpr ⟨inside, found⟩
  none_iff := origin_eq_none_iff

end Lines

/-- What is left for each native: the entry at the place that it was given, or one that is made from
the native. -/
structure Filled (restore : Value → Except Fault Value) (entries : List Entry)
    (natives : List Value) (assigned : Fin natives.length → Option (Fin entries.length))
    (left : List Entry) : Prop where
  length_eq : left.length = natives.length
  given : ∀ i p, assigned i = some p → left[i]? = some entries[p]
  made : ∀ i, assigned i = none →
    ∃ source, restore natives[i] = .ok source ∧ left[i]? = some { source, native := natives[i] }

theorem filled_of_mapM {restore : Value → Except Fault Value} {left : List Entry}
    {assigned : Fin natives.length → Option (Fin entries.length)}
    (done : ((List.finRange natives.length).mapM fun i =>
      taken restore entries natives[i] (assigned i)) = .ok left) :
    Filled restore entries natives assigned left := by
  have each := List.forall₂_iff_get.mp (forall₂_of_mapM done)
  have length_eq : left.length = natives.length := by
    rw [← each.1, List.length_finRange]
  have single : ∀ i : Fin natives.length, ∃ entry,
      taken restore entries natives[i] (assigned i) = .ok entry ∧ left[i]? = some entry := by
    intro i
    have inside : (i : Nat) < left.length := by omega
    have took := each.2 i (by rw [List.length_finRange]; exact i.isLt) inside
    rw [List.get_finRange] at took
    exact ⟨left[i], took, List.getElem?_eq_getElem inside⟩
  refine ⟨length_eq, fun i p given => ?_, fun i none => ?_⟩
  · obtain ⟨entry, took, found⟩ := single i
    rw [given] at took
    cases took
    exact found
  · obtain ⟨entry, took, found⟩ := single i
    rw [none] at took
    obtain ⟨source, done, made⟩ := (bind_eq_ok_iff _ _ _).mp took
    cases made
    exact ⟨source, done, found⟩

/-- **Which entry is taken for what came back.** If all fingerprints can be computed, there is a
fair assignment of places to the natives that came back. An entry is left for each of them, in their
order: the one at the place that it was given or, if there is none, one made from the native. The
matching fails only where no source can be made for such a native. -/
theorem remainder_assigns (restore : Value → Except Fault Value) {unprocessed : Value}
    (listed : unprocessed.elements = .ok natives)
    (marked : ∀ entry ∈ entries, ∃ mark, fingerprint entry.native = .ok mark)
    (proper : ∀ entry ∈ entries, entry.native.isProper = true)
    (markedNatives : ∀ native ∈ natives, ∃ mark, fingerprint native = .ok mark)
    (properNatives : ∀ native ∈ natives, native.isProper = true) :
    ∃ assigned, Assigns entries natives assigned ∧
      (∀ left, remainder restore entries unprocessed = .ok left →
        Filled restore entries natives assigned left) ∧
      ((∀ i, assigned i = none → ∃ source, restore natives[i] = .ok source) →
        ∃ left, remainder restore entries unprocessed = .ok left) := by
  have each : ∀ p : Fin entries.length, ∃ mark, fingerprint entries[p].native = .ok mark :=
    fun p => marked _ (List.getElem_mem p.isLt)
  choose markAt markedAt using each
  have marking : (entries.mapM fun entry => do return (← fingerprint entry.native, entry)) =
      .ok ((List.finRange entries.length).map fun p => (markAt p, entries[p])) := by
    apply mapM_of_forall₂
    conv_lhs => rw [← List.map_get_finRange entries]
    rw [List.forall₂_map_left_iff, List.forall₂_map_right_iff, List.forall₂_same]
    intro p _
    exact (bind_eq_ok_iff _ _ _).mpr ⟨markAt p, markedAt p, rfl⟩
  have same : remainder restore entries unprocessed =
      (List.finRange natives.length).mapM fun i => taken restore entries natives[i]
        (origin entries (List.finRange entries.length) natives i) := by
    rw [← matchNatives_eq restore markedAt proper markedNatives properNatives]
    rw [remainder, marking, listed]
    rfl
  refine ⟨_, assigns_origin proper properNatives, fun left done => ?_, fun restored => ?_⟩
  · rw [same] at done
    exact filled_of_mapM done
  · rw [same]
    refine exists_mapM fun i _ => ?_
    cases given : origin entries (List.finRange entries.length) natives i with
    | some p => exact ⟨entries[p], rfl⟩
    | none =>
        obtain ⟨source, done⟩ := restored i given
        exact exists_bind done ⟨_, rfl⟩

theorem sameMark_numbered {s t : String} (inRange : (Decimal.normalOf? s).isSome = true)
    (inRangeOther : (Decimal.normalOf? t).isSome = true) :
    sameMark (numberedItem s).toValue (numberedItem t).toValue =
      decide (Decimal.respelled s = Decimal.respelled t) := by
  rw [sameMark_of_fingerprint (fingerprint_numbered inRange rfl)
    (fingerprint_numbered inRangeOther rfl)]
  simp [Value.same, Value.sameList, Value.sameAtom, Bool.beq_eq_decide_eq]

/-- Entries with a number each, two of which are one number. -/
def sentNumbers : List Entry :=
  ["1", "2", "1.0"].map fun s => { source := .text s, native := (numberedItem s).toValue }

/-- What came back: one number three times, and a number that was not sent. -/
def returnedNumbers : List Value :=
  ["1E0", "1", "1.00", "7"].map fun s => (numberedItem s).toValue

/-- The third number that came back and the fourth are no entries that were sent. -/
theorem remainder_assigns_numbers :
    (Value.list returnedNumbers).elements = .ok returnedNumbers ∧
      (∀ entry ∈ sentNumbers, ∃ mark, fingerprint entry.native = .ok mark) ∧
      (∀ entry ∈ sentNumbers, entry.native.isProper = true) ∧
      (∀ native ∈ returnedNumbers, ∃ mark, fingerprint native = .ok mark) ∧
      (∀ native ∈ returnedNumbers, native.isProper = true) ∧
      ∃ assigned left, Assigns sentNumbers returnedNumbers assigned ∧
        remainder .ok sentNumbers (.list returnedNumbers) = .ok left ∧
        Filled .ok sentNumbers returnedNumbers assigned left ∧
        ∀ i, assigned i = none ↔ 2 ≤ i.val := by
  have spelled : ∀ entry ∈ [("1", "1"), ("2", "2"), ("1.0", "1"), ("1E0", "1"), ("1.00", "1"),
      ("7", "7")], (Decimal.normalOf? entry.1).isSome = true ∧
        Decimal.respelled entry.1 = entry.2 := by
    decide +kernel
  simp only [List.forall_mem_cons, List.not_mem_nil, false_imp_iff, implies_true, and_true]
    at spelled
  obtain ⟨one, two, oneTenth, oneExponent, oneHundredth, seven⟩ := spelled
  have marked : ∀ entry ∈ sentNumbers, ∃ mark, fingerprint entry.native = .ok mark := by
    simp only [sentNumbers, List.map_cons, List.map_nil, List.forall_mem_cons, List.not_mem_nil,
      false_imp_iff, implies_true, and_true]
    exact ⟨⟨_, fingerprint_numbered one.1 one.2⟩, ⟨_, fingerprint_numbered two.1 two.2⟩,
      ⟨_, fingerprint_numbered oneTenth.1 oneTenth.2⟩⟩
  have markedNatives : ∀ native ∈ returnedNumbers, ∃ mark, fingerprint native = .ok mark := by
    simp only [returnedNumbers, List.map_cons, List.map_nil, List.forall_mem_cons,
      List.not_mem_nil, false_imp_iff, implies_true, and_true]
    exact ⟨⟨_, fingerprint_numbered oneExponent.1 oneExponent.2⟩,
      ⟨_, fingerprint_numbered one.1 one.2⟩,
      ⟨_, fingerprint_numbered oneHundredth.1 oneHundredth.2⟩,
      ⟨_, fingerprint_numbered seven.1 seven.2⟩⟩
  have proper : ∀ entry ∈ sentNumbers, entry.native.isProper = true := by
    decide
  have properNatives : ∀ native ∈ returnedNumbers, native.isProper = true := by
    decide
  have listed : (Value.list returnedNumbers).elements = .ok returnedNumbers := rfl
  obtain ⟨assigned, fair, filled, returns⟩ := remainder_assigns .ok listed marked proper
    markedNatives properNatives
  obtain ⟨left, done⟩ := returns fun i _ => ⟨_, rfl⟩
  refine ⟨listed, marked, proper, markedNatives, properNatives, assigned, left, fair, done,
    filled left done, fun i => ?_⟩
  rw [fair.none_iff]
  fin_cases i <;>
    simp [sentNumbers, returnedNumbers, sameMark_numbered, one, two, oneTenth, oneExponent,
      oneHundredth, seven]

end TokenTable.Batch
