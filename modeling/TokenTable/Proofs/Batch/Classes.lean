import TokenTable.Proofs.Batch.Wire

/-! # Natives up to their fingerprints

Fingerprints are matched by what they stand for. Natives are of one class if their fingerprints are
matched, directly or through others. Whatever values a page holds, what is left of it is of the
classes that came back (`classesOf_remainder`). So as long as a store hands back no class more often
than it was sent, what it accepted and what is queued are, class by class, the entries that the
batch started with (`accepted_add_queued_of_reaches`). What is left of a page are its own entries if
each fingerprint is matched by all of its class (`remainder_of_classes_le`), as the plain ones are.
-/

namespace TokenTable

open Classical

/-- Values up to what they stand for. -/
def Value.Class : Type := Quot fun v w : Value => v.same w = true

def Value.Class.of (v : Value) : Value.Class := Quot.mk _ v

theorem Value.Class.of_eq_of_same {v w : Value} (agree : v.same w = true) : of v = of w :=
  Quot.sound agree

/-- The class of a native's fingerprint, if it has one. -/
def classOf (native : Value) : Option Value.Class :=
  (fingerprint native).toOption.map Value.Class.of

/-- The classes of some natives, each as often as it occurs. -/
def classes (natives : List Value) : Multiset (Option Value.Class) :=
  Multiset.ofList (natives.map classOf)

theorem classOf_of_fingerprint {native value : Value} (done : fingerprint native = .ok value) :
    classOf native = some (.of value) := by
  rw [classOf, done]
  rfl

namespace Value

mutual

/-- Values that stand for the same thing are the same once they are plain. -/
theorem plain_eq_of_same (v w : Value) (agree : v.same w = true)
    (either : v.plain.isPlain = true ∨ w.plain.isPlain = true) : v.plain = w.plain := by
  cases v with
  | text s =>
      rw [(same_text_left_iff s w).mp agree]
  | bytes form content =>
      cases w with
      | bytes other content' =>
          have same : content = content' := by simpa [same, sameAtom] using agree
          rw [same]
          rfl
      | _ => simp [same, sameAtom, number?] at agree
  | tuple items =>
      cases w with
      | tuple items' =>
          have members := plainList_eq_of_sameList items items' agree either
          rw [plain, plain, members]
      | _ => simp [same, sameAtom, number?] at agree
  | _ =>
      -- nothing else is plain, and none of the plain shapes stands for it
      cases w <;> simp_all [same, sameAtom, number?, plain, isPlain]
termination_by structural v

theorem plainList_eq_of_sameList (vs ws : List Value) (agree : sameList vs ws = true)
    (either : allPlain (plainList vs) = true ∨ allPlain (plainList ws) = true) :
    plainList vs = plainList ws := by
  cases vs with
  | nil =>
      cases ws with
      | nil => rfl
      | cons w others => cases agree
  | cons v rest =>
      cases ws with
      | nil => cases agree
      | cons w others =>
          rw [sameList, Bool.and_eq_true] at agree
          simp only [plainList, allPlain, Bool.and_eq_true] at either
          rw [plainList, plainList, plain_eq_of_same v w agree.1 (either.imp And.left And.left),
            plainList_eq_of_sameList rest others agree.2 (either.imp And.right And.right)]
termination_by structural vs

end

/-- The plain value of a class, if it has one. -/
def Class.plain? : Class → Option Value :=
  Quot.lift (fun v => if v.plain.isPlain then some v.plain else none) (by
    intro v w agree
    by_cases either : v.plain.isPlain = true ∨ w.plain.isPlain = true
    · simp only [plain_eq_of_same v w agree either]
    · rw [not_or] at either
      rw [if_neg either.1, if_neg either.2])

theorem Class.plain?_of (v : Value) :
    Class.plain? (.of v) = if v.plain.isPlain then some v.plain else none := rfl

/-- A value that stands for the same thing as every value of its class. -/
def Settled (v : Value) : Prop := ∀ w, Class.of v = Class.of w → v.same w = true

theorem settled_of_isPlain {v : Value} (isPlain : v.isPlain = true) : v.Settled := by
  intro w alike
  have values := congrArg Class.plain? alike
  rw [Class.plain?_of, Class.plain?_of, plain_of_isPlain v isPlain, if_pos isPlain] at values
  apply (same_iff_plain_eq v w isPlain).mpr
  split at values
  · exact (Option.some.inj values).symm
  · cases values

end Value

@[simp] theorem classes_nil : classes [] = 0 := rfl

namespace Batch

variable {ω : Type}

/-- The classes of some entries, each as often as it occurs. -/
def classesOf (entries : List Entry) : Multiset (Option Value.Class) :=
  classes (entries.map Entry.native)

theorem classesOf_append (first second : List Entry) :
    classesOf (first ++ second) = classesOf first + classesOf second := by
  unfold classesOf classes
  rw [List.map_append, List.map_append, Multiset.coe_add]

/-- Each native that came back is matched with an entry of its class, or stands for itself. -/
theorem classOf_matchNatives {restore : Value → Except Fault Value}
    {marked : List (Value × Entry)} {natives : List Value} {left : List Entry}
    (each : ∀ pair ∈ marked, fingerprint pair.2.native = .ok pair.1)
    (matched : matchNatives restore marked natives = .ok left) :
    (left.map fun entry => classOf entry.native) = natives.map classOf := by
  induction natives generalizing marked left with
  | nil =>
      cases matched
      rfl
  | cons native rest ih =>
      obtain ⟨value, done, matched⟩ := (bind_eq_ok_iff _ _ _).mp matched
      cases found : takeMatch? value marked with
      | some taken =>
          obtain ⟨entry, others⟩ := taken
          rw [found] at matched
          obtain ⟨later, several, matched⟩ := (bind_eq_ok_iff _ _ _).mp matched
          cases matched
          obtain ⟨mark, agrees, perm⟩ := agrees_of_takeMatch? found
          have taken := each _ (perm.subset List.mem_cons_self)
          have kept : ∀ pair ∈ others, fingerprint pair.2.native = .ok pair.1 :=
            fun pair member => each pair (perm.subset (List.mem_cons_of_mem _ member))
          rw [List.map_cons, List.map_cons, ih kept several, classOf_of_fingerprint taken,
            classOf_of_fingerprint done,
            Value.Class.of_eq_of_same agrees]
      | none =>
          rw [found] at matched
          obtain ⟨source, _, matched⟩ := (bind_eq_ok_iff _ _ _).mp matched
          obtain ⟨later, several, matched⟩ := (bind_eq_ok_iff _ _ _).mp matched
          cases matched
          rw [List.map_cons, List.map_cons, ih each several]

/-- What is left of a page is of the classes that came back. -/
theorem classesOf_remainder {restore : Value → Except Fault Value} {entries left : List Entry}
    {reply : Reply} (matched : remainder restore entries reply.unprocessed = .ok left) :
    classesOf left = classes reply.returned := by
  obtain ⟨marked, marking, matched⟩ := (bind_eq_ok_iff _ _ _).mp matched
  obtain ⟨natives, listed, matched⟩ := (bind_eq_ok_iff _ _ _).mp matched
  have same := classOf_matchNatives (marked_of_mapM entries marked marking).2 matched
  rw [Reply.returned_of_elements listed, classesOf, classes, classes, List.map_map]
  exact congrArg Multiset.ofList same

/-- The fingerprint of an entry is matched by all of its class. -/
def Entry.HasSettledMark (entry : Entry) : Prop :=
  ∀ value, fingerprint entry.native = .ok value → value.Settled

theorem exists_takeMatch? {value : Value} {marked : List (Value × Entry)} {pair : Value × Entry}
    (member : pair ∈ marked) (agrees : pair.1.same value = true) :
    ∃ taken, takeMatch? value marked = some taken := by
  induction marked with
  | nil => cases member
  | cons first rest ih =>
      rw [takeMatch?]
      split
      · exact ⟨_, rfl⟩
      · rename_i other
        rcases List.mem_cons.mp member with rfl | later
        · exact absurd agrees other
        · obtain ⟨taken, found⟩ := ih later
          rw [found]
          exact ⟨_, rfl⟩

/-- Natives that are, class by class, among the marked entries are matched with marked entries, each
of which is used at most once. -/
theorem matchNatives_of_classes_le {restore : Value → Except Fault Value}
    {marked : List (Value × Entry)} {natives : List Value} {left : List Entry}
    (settled : ∀ pair ∈ marked, pair.1.Settled)
    (within : classes natives ≤
      Multiset.ofList (marked.map fun pair => some (Value.Class.of pair.1)))
    (matched : matchNatives restore marked natives = .ok left) :
    left.Subperm (marked.map Prod.snd) := by
  induction natives generalizing marked left with
  | nil =>
      cases matched
      exact List.nil_subperm
  | cons native rest ih =>
      obtain ⟨value, single, matched⟩ := (bind_eq_ok_iff _ _ _).mp matched
      have split : classes (native :: rest) = some (Value.Class.of value) ::ₘ classes rest := by
        rw [classes, List.map_cons, classOf_of_fingerprint single, ← Multiset.cons_coe]
        rfl
      rw [split] at within
      have listed := Multiset.mem_of_le within (Multiset.mem_cons_self _ _)
      obtain ⟨pair, inside, alike⟩ := List.mem_map.mp (Multiset.mem_coe.mp listed)
      have agrees := settled pair inside value (Option.some.inj alike)
      obtain ⟨⟨entry, others⟩, found⟩ := exists_takeMatch? inside agrees
      rw [found] at matched
      obtain ⟨later, several, matched⟩ := (bind_eq_ok_iff _ _ _).mp matched
      cases matched
      obtain ⟨mark, stands, perm⟩ := agrees_of_takeMatch? found
      have smaller : classes rest ≤
          Multiset.ofList (others.map fun pair => some (Value.Class.of pair.1)) := by
        have same := Multiset.coe_eq_coe.mpr (perm.map fun pair => some (Value.Class.of pair.1))
        rw [← same, List.map_cons, ← Multiset.cons_coe, Value.Class.of_eq_of_same stands] at within
        exact (Multiset.cons_le_cons_iff _).mp within
      have kept : ∀ pair ∈ others, pair.1.Settled := fun pair member =>
        settled pair (perm.subset (List.mem_cons_of_mem _ member))
      exact ((List.subperm_cons entry).mpr (ih kept smaller several)).trans
        (perm.map Prod.snd).subperm

/-- What is left of a page are entries of the page if, class by class, the page held what came
back. -/
theorem remainder_of_classes_le {restore : Value → Except Fault Value} {entries left : List Entry}
    {reply : Reply} (settled : ∀ entry ∈ entries, entry.HasSettledMark)
    (within : classes reply.returned ≤ classesOf entries)
    (matched : remainder restore entries reply.unprocessed = .ok left) : left.Subperm entries := by
  obtain ⟨marked, marking, matched⟩ := (bind_eq_ok_iff _ _ _).mp matched
  obtain ⟨natives, listed, matched⟩ := (bind_eq_ok_iff _ _ _).mp matched
  rw [Reply.returned_of_elements listed] at within
  obtain ⟨kept, each⟩ := marked_of_mapM entries marked marking
  have ofMarked : classesOf entries =
      Multiset.ofList (marked.map fun pair => some (Value.Class.of pair.1)) := by
    rw [classesOf, classes, ← kept, List.map_map, List.map_map]
    exact congrArg Multiset.ofList
      (List.map_congr_left fun pair member => classOf_of_fingerprint (each pair member))
  rw [ofMarked] at within
  rw [← kept]
  refine matchNatives_of_classes_le (fun pair member => ?_) within matched
  have inside : pair.2 ∈ entries := by
    rw [← kept]
    exact List.mem_map_of_mem member
  exact settled pair.2 inside pair.1 (each pair member)

namespace Operation

/-- The classes that the store accepted in a call: those of the page, but for those that it handed
back. -/
noncomputable def acceptedClasses (operation : Operation) (table : String) (exchange : Exchange) :
    Multiset (Option Value.Class) :=
  match operation.pageOf table exchange.request, exchange.answer >>= operation.reply table with
  | .ok page, .ok reply => classes page - classes reply.returned
  | _, _ => 0

/-- The classes that the store accepted in some calls. -/
noncomputable def acceptedClassesIn (operation : Operation) (table : String)
    (calls : List Exchange) : Multiset (Option Value.Class) :=
  (calls.map (operation.acceptedClasses table)).sum

/-- The store hands back no class more often than the page of the call held it. -/
def HandsBackOwn (operation : Operation) (store : Store ω) (table : String) : Prop :=
  ∀ page exchange reply, operation.Exchanged store table page exchange reply →
    classes reply.returned ≤ classes page

variable {operation : Operation} {store : Store ω} {table : String} {items : Value}
  {control : Control ω} {retries : Nat}

theorem leavesOwn_of_handsBackOwn {entries : List Entry}
    (own : operation.HandsBackOwn store table) (settled : ∀ entry ∈ entries, entry.HasSettledMark) :
    operation.LeavesOwn store table entries := by
  intro page exchange reply left inside exchanged matched
  exact remainder_of_classes_le (fun entry member => settled entry (inside entry member))
    (own _ exchange reply exchanged) matched

theorem acceptedClasses_add_returned {page : List Value} {exchange : Exchange} {reply : Reply}
    (exchanged : operation.Exchanged store table page exchange reply)
    (within : classes reply.returned ≤ classes page) :
    operation.acceptedClasses table exchange + classes reply.returned = classes page := by
  obtain ⟨response, answered, replied, _⟩ := exchanged.answered
  have heard : exchange.answer >>= operation.reply table = .ok reply := by
    rw [answered]
    exact replied
  rw [acceptedClasses, pageOf_request exchanged.requested, heard]
  exact Multiset.sub_add_cancel within

/-- A call, its reply and what the reply leaves to do keep what is accepted and queued. -/
theorem acceptedClasses_add_next {page : Page} {later : List Page} {gathered : List Value}
    {exchange : Exchange} {reply : Reply} {next : Progress}
    (exchanged : operation.Exchanged store table (page.entries.map Entry.native) exchange reply)
    (within : classes reply.returned ≤ classesOf page.entries)
    (follows : Follows operation page later gathered reply next) :
    operation.acceptedClasses table exchange + classesOf next.entries =
      classesOf (page.entries ++ later.flatMap Page.entries) := by
  have whole : operation.acceptedClasses table exchange + classes reply.returned =
      classesOf page.entries := acceptedClasses_add_returned exchanged within
  rw [classesOf_append, ← whole]
  cases follows with
  | finished complete =>
      rw [Reply.returned_of_not_given reply complete, classes_nil, add_zero]
      rfl
  | retried given left matched =>
      rw [Progress.entries, List.flatMap_cons, classesOf_append, classesOf_remainder matched,
        add_assoc]

/-- **Class by class, nothing is lost and nothing is accepted twice.** As long as the store hands
back no class more often than it was sent, what it accepted and what is queued are what the batch
started with, whatever values its entries hold. -/
theorem accepted_add_queued_of_reaches (own : operation.HandsBackOwn store table)
    {start : Progress} {world : Journaled ω Exchange} {point : Progress × Journaled ω Exchange}
    (reached : (operation.plan store.journaled table items retries control.journaled).Reaches
      (start, world) point) :
    ∃ calls, Event.calls point.2.2 = Event.calls world.2 ++ calls ∧
      operation.acceptedClassesIn table calls + classesOf point.1.entries =
        classesOf start.entries := by
  refine reaches_induct (motive := fun progress calls =>
    operation.acceptedClassesIn table calls + classesOf progress.entries =
      classesOf start.entries) (zero_add _) ?_ reached
  intro page later gathered calls exchange reply next balance exchanged follows
  have kept := acceptedClasses_add_next exchanged (own _ _ _ exchanged) follows
  rw [acceptedClassesIn, List.map_append, List.sum_append, List.map_singleton, List.sum_singleton,
    add_assoc, kept, ← balance]
  rfl

theorem handsBackOwn_scheduledStore (operation : Operation) (table : String) :
    operation.HandsBackOwn (operation.scheduledStore table) table := by
  intro page exchange reply exchanged
  obtain ⟨count, same⟩ := returned_of_scheduledStore exchanged
  have perm := (List.reverse_perm (page.take count)).map classOf
  rw [same]
  exact Multiset.coe_le.mpr (perm.subperm.trans ((List.take_sublist _ _).map classOf).subperm)

end Operation

end Batch

end TokenTable
