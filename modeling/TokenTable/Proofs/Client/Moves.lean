import TokenTable.Client.Scan
import TokenTable.Proofs.Fallible

/-! # The moves of a scan

A scan asks for pages and hands out their items. What it does with some pages, if it goes on to its
end, is a list of moves (`moves`). It hands out the items of the natives within its limit
(`handed_moves`). If it stops at one of these items, it has asked for the pages up to it, with what
the limit left for each (`asked_cut_moves`).
-/

namespace TokenTable.Scan

/-- A page of a scan: its native items, and where the next page starts. -/
structure Page where
  natives : List Value
  resume : Value

/-- Pages that follow one another: the last one does not say where a next page starts, and all
others do. -/
def Linked : List Page → Prop
  | [] => False
  | page :: later => if page.resume.isGiven then Linked later else later = []

/-- The items that some natives carry. -/
def itemsOf (natives : List Value) : List Value :=
  natives.filterMap fun native => (Item.decode native).toOption.join

/-- Every native can be decoded. -/
def Decodes (natives : List Value) : Prop :=
  ∀ native ∈ natives, ∃ item, Item.decode native = .ok item

/-- A limit as it is given; null stands for none. -/
def limitValue : Option Nat → Value
  | none => .null
  | some n => .int n

/-- Whether a limit leaves something after a number of natives. -/
def outlasts (limit : Option Nat) (count : Nat) : Bool := limit.all (count < ·)

/-- What a limit leaves after a number of natives. -/
def less (limit : Option Nat) (count : Nat) : Option Nat := limit.map (· - count)

/-- The natives that are within a limit. -/
def within {α : Type} (limit : Option Nat) (natives : List α) : List α :=
  match limit with
  | none => natives
  | some n => natives.take n

/-- The request for a page under a limit, after a page that said where it starts. -/
def requestOf (base : Request) (limit : Option Nat) (resume : Option Value) : Request :=
  base ++ (limit.toList.map fun n : Nat => ("Limit", .int n)) ++
    resume.toList.map fun start => ("ExclusiveStartKey", start)

/-- What a scan does: it asks for a page or hands out an item. -/
inductive Move where
  | asks (request : Request)
  | hands (item : Value)

/-- The pages that are asked for. -/
def asked (todo : List Move) : List Request :=
  todo.filterMap fun move =>
    match move with
    | .asks request => some request
    | .hands _ => none

/-- The items that are handed out. -/
def handed (todo : List Move) : List Value :=
  todo.filterMap fun move =>
    match move with
    | .asks _ => none
    | .hands item => some item

/-- What is done with the natives of a page, before what is done with the pages after it. -/
def readMoves (limit : Option Nat) (natives : List Value) (rest : List Move) : List Move :=
  (itemsOf (within limit natives)).map .hands ++
    if outlasts limit natives.length then rest else []

/-- What is done with pages that are still to be asked for. -/
def moves (base : Request) : Option Nat → Option Value → List Page → List Move
  | _, _, [] => []
  | limit, resume, page :: later =>
    .asks (requestOf base limit resume) :: readMoves limit page.natives
      (moves base (less limit page.natives.length) (some page.resume) later)

/-- The moves up to an item with a number, counted from one; all moves if there are fewer items. -/
def cut : Nat → List Move → List Move
  | 0, _ => []
  | _ + 1, [] => []
  | k + 1, .asks request :: rest => .asks request :: cut (k + 1) rest
  | k + 1, .hands item :: rest => .hands item :: cut k rest

@[simp] theorem cut_nil (count : Nat) : cut count [] = [] := by cases count <;> rfl

@[simp] theorem asked_nil : asked [] = [] := rfl

@[simp] theorem handed_nil : handed [] = [] := rfl

@[simp] theorem asked_append (first second : List Move) :
    asked (first ++ second) = asked first ++ asked second := List.filterMap_append

@[simp] theorem handed_append (first second : List Move) :
    handed (first ++ second) = handed first ++ handed second := List.filterMap_append

@[simp] theorem asked_cons_asks (request : Request) (rest : List Move) :
    asked (.asks request :: rest) = request :: asked rest := rfl

@[simp] theorem asked_cons_hands (item : Value) (rest : List Move) :
    asked (.hands item :: rest) = asked rest := rfl

@[simp] theorem handed_cons_asks (request : Request) (rest : List Move) :
    handed (.asks request :: rest) = handed rest := rfl

@[simp] theorem handed_cons_hands (item : Value) (rest : List Move) :
    handed (.hands item :: rest) = item :: handed rest := rfl

@[simp] theorem asked_map_asks (requests : List Request) :
    asked (requests.map .asks) = requests := by
  induction requests with
  | nil => rfl
  | cons request rest ih => rw [List.map_cons, asked_cons_asks, ih]

@[simp] theorem asked_map_hands (items : List Value) : asked (items.map .hands) = [] := by
  induction items with
  | nil => rfl
  | cons item rest ih => rw [List.map_cons, asked_cons_hands, ih]

@[simp] theorem handed_map_asks (requests : List Request) : handed (requests.map .asks) = [] := by
  induction requests with
  | nil => rfl
  | cons request rest ih => rw [List.map_cons, handed_cons_asks, ih]

@[simp] theorem handed_map_hands (items : List Value) : handed (items.map .hands) = items := by
  induction items with
  | nil => rfl
  | cons item rest ih => rw [List.map_cons, handed_cons_hands, ih]

theorem outlasts_iff (limit : Option Nat) (count : Nat) :
    outlasts limit count = true ↔ ∀ n, limit = some n → count < n := by
  cases limit with
  | none => simp [outlasts]
  | some n => simp [outlasts]

theorem outlasts_less (limit : Option Nat) (first second : Nat) :
    outlasts (less limit first) second = outlasts limit (first + second) := by
  cases limit with
  | none => rfl
  | some n =>
      simp only [outlasts, less, Option.map_some, Option.all_some, decide_eq_decide]
      omega

theorem less_less (limit : Option Nat) (first second : Nat) :
    less (less limit first) second = less limit (first + second) := by
  cases limit with
  | none => rfl
  | some n => simp [less, Nat.sub_sub]

/-- A native that carries no item is counted only. -/
theorem itemsOf_cons_none {native : Value} (natives : List Value)
    (empty : Item.decode native = .ok none) : itemsOf (native :: natives) = itemsOf natives := by
  rw [itemsOf, List.filterMap_cons, empty]
  rfl

theorem itemsOf_cons_some {native item : Value} (natives : List Value)
    (carries : Item.decode native = .ok (some item)) :
    itemsOf (native :: natives) = item :: itemsOf natives := by
  rw [itemsOf, List.filterMap_cons, carries]
  rfl

theorem readMoves_nil {limit : Option Nat} (positive : outlasts limit 0 = true)
    (rest : List Move) : readMoves limit [] rest = rest := by
  have none : within limit ([] : List Value) = [] := by cases limit <;> simp [within]
  rw [readMoves, none, List.length_nil, if_pos positive]
  rfl

/-- The first native of a page is counted, and the rest is read if the limit leaves something. -/
theorem readMoves_cons {limit : Option Nat} (positive : outlasts limit 0 = true) (native : Value)
    (natives : List Value) (rest : List Move) :
    readMoves limit (native :: natives) rest =
      (itemsOf [native]).map .hands ++
        if outlasts limit 1 then readMoves (less limit 1) natives rest else [] := by
  have items : ∀ others, itemsOf (native :: others) = itemsOf [native] ++ itemsOf others :=
    fun others => List.filterMap_append (l := [native])
  cases limit with
  | none =>
      simp only [readMoves, within, items natives, List.map_append, outlasts, less,
        Option.map_none, Option.all_none, ↓reduceIte, List.append_assoc]
  | some n =>
      have least : 0 < n := (outlasts_iff _ _).mp positive n rfl
      obtain ⟨n, rfl⟩ := Nat.exists_eq_succ_of_ne_zero (Nat.ne_of_gt least)
      rw [readMoves, within, List.take_succ_cons, items, List.map_append, List.append_assoc]
      congr 1
      cases n with
      | zero => simp [itemsOf, outlasts]
      | succ n =>
          have more : outlasts (some (n + 2)) 1 = true := by simp [outlasts]
          rw [if_pos more, readMoves, outlasts_less, List.length_cons, Nat.add_comm 1]
          rfl

variable {base : Request}

theorem length_asked_readMoves_le (limit : Option Nat) (natives : List Value) (rest : List Move) :
    (asked (readMoves limit natives rest)).length ≤ (asked rest).length := by
  rw [readMoves, asked_append, asked_map_hands, List.nil_append]
  split
  · exact Nat.le_refl _
  · exact Nat.zero_le _

theorem length_asked_moves_le (limit : Option Nat) (resume : Option Value) (pages : List Page) :
    (asked (moves base limit resume pages)).length ≤ pages.length := by
  induction pages generalizing limit resume with
  | nil => exact Nat.zero_le _
  | cons page later ih =>
      rw [moves, asked_cons_asks]
      exact Nat.succ_le_succ (Nat.le_trans (length_asked_readMoves_le _ _ _) (ih _ _))

/-- Pages that are asked for before an item are asked for together with it. -/
theorem cut_asks (count : Nat) (requests : List Request) (rest : List Move) :
    cut (count + 1) (requests.map .asks ++ rest) = requests.map .asks ++ cut (count + 1) rest := by
  induction requests with
  | nil => rfl
  | cons request others ih => rw [List.map_cons, List.cons_append, cut, ih, List.cons_append]

/-- The natives of the pages before a place. -/
def seen (pages : List Page) (place : Nat) : List Value := (pages.take place).flatMap Page.natives

/-- Where the page at a place starts: as it is given for the first page, and where the page before
it says for the others. -/
def startAt (resume : Option Value) (pages : List Page) : Nat → Option Value
  | 0 => resume
  | place + 1 => pages[place]?.map Page.resume

/-- The request for the page at a place. -/
def requestAt (base : Request) (limit : Option Nat) (resume : Option Value) (pages : List Page)
    (place : Nat) : Request :=
  requestOf base (less limit (seen pages place).length) (startAt resume pages place)

theorem seen_cons (page : Page) (later : List Page) (place : Nat) :
    seen (page :: later) (place + 1) = page.natives ++ seen later place := by
  rw [seen, List.take_succ_cons, List.flatMap_cons]
  rfl

theorem itemsOf_append (first second : List Value) :
    itemsOf (first ++ second) = itemsOf first ++ itemsOf second := List.filterMap_append

/-- A limit cuts off the end. -/
theorem within_append {α : Type} (limit : Option Nat) (first second : List α) :
    within limit (first ++ second) = within limit first ++
      if outlasts limit first.length then within (less limit first.length) second else [] := by
  cases limit with
  | none => rfl
  | some n =>
      rw [within, List.take_append]
      by_cases more : first.length < n
      · simp [within, outlasts, less, more]
      · have none : n - first.length = 0 := by omega
        simp [within, outlasts, more, none]

theorem within_of_outlasts {α : Type} {limit : Option Nat} {natives : List α}
    (more : outlasts limit natives.length = true) : within limit natives = natives := by
  cases limit with
  | none => rfl
  | some n => exact List.take_of_length_le (Nat.le_of_lt ((outlasts_iff _ _).mp more n rfl))

/-- The items of the pages are handed out as far as the limit goes. -/
theorem handed_moves (limit : Option Nat) (resume : Option Value) (pages : List Page) :
    handed (moves base limit resume pages) =
      itemsOf (within limit (pages.flatMap Page.natives)) := by
  induction pages generalizing limit resume with
  | nil =>
      have none : within limit ([] : List Value) = [] := by cases limit <;> simp [within]
      rw [List.flatMap_nil, none]
      rfl
  | cons page later ih =>
      rw [moves, handed_cons_asks, readMoves, handed_append, handed_map_hands, List.flatMap_cons,
        within_append, itemsOf_append]
      congr 1
      split
      · exact ih _ _
      · rfl

theorem asked_cut_hands (count : Nat) (items : List Value) (rest : List Move) :
    asked (cut count (items.map .hands ++ rest)) = asked (cut (count - items.length) rest) := by
  induction items generalizing count with
  | nil => rfl
  | cons item others ih =>
      cases count with
      | zero => simp [cut]
      | succ count =>
          rw [List.map_cons, List.cons_append, cut, asked_cons_hands, ih, List.length_cons,
            Nat.add_sub_add_right]

/-- A page is asked for exactly when the pages before it hold fewer items than are wanted and the
limit goes beyond them. -/
theorem asked_cut_moves (limit : Option Nat) (resume : Option Value) (pages : List Page)
    (count : Nat) (positive : outlasts limit 0 = true) :
    ∃ number ≤ pages.length,
      asked (cut count (moves base limit resume pages)) =
          (List.range number).map (requestAt base limit resume pages) ∧
        ∀ place < pages.length, place < number ↔
          (itemsOf (seen pages place)).length < count ∧
            outlasts limit (seen pages place).length = true := by
  induction pages generalizing limit resume count with
  | nil =>
      refine ⟨0, Nat.le_refl 0, ?_, fun _ inside => absurd inside (Nat.not_lt_zero _)⟩
      rw [moves, cut_nil]
      rfl
  | cons page later ih =>
      have first : requestAt base limit resume (page :: later) 0 = requestOf base limit resume := by
        have whole : less limit 0 = limit := by cases limit <;> rfl
        exact congrArg (fun left => requestOf base left resume) whole
      cases count with
      | zero =>
          refine ⟨0, Nat.zero_le _, rfl, fun place _ => ?_⟩
          simp
      | succ count =>
          rw [moves, cut, asked_cons_asks, readMoves, asked_cut_hands]
          by_cases more : outlasts limit page.natives.length = true
          · rw [if_pos more, within_of_outlasts more]
            have still : outlasts (less limit page.natives.length) 0 = true := by
              rwa [outlasts_less]
            obtain ⟨number, inside, requests, needed⟩ := ih (less limit page.natives.length)
              (some page.resume) (count + 1 - (itemsOf page.natives).length) still
            refine ⟨number + 1, Nat.succ_le_succ inside, ?_, ?_⟩
            · rw [requests, List.range_succ_eq_map, List.map_cons, first, List.map_map]
              refine congrArg _ (List.map_congr_left fun place _ => ?_)
              have start : startAt (some page.resume) later place =
                  startAt resume (page :: later) (place + 1) := by cases place <;> rfl
              rw [Function.comp_apply, requestAt, requestAt, seen_cons, List.length_append,
                less_less, start]
            · intro place within
              cases place with
              | zero => simp [seen, itemsOf, positive]
              | succ place =>
                  rw [Nat.succ_lt_succ_iff, needed place (Nat.lt_of_succ_lt_succ within),
                    seen_cons, itemsOf_append, List.length_append, List.length_append,
                    outlasts_less, Nat.lt_sub_iff_add_lt']
          · rw [if_neg more, cut_nil]
            refine ⟨1, Nat.succ_le_succ (Nat.zero_le _), ?_, ?_⟩
            · rw [List.range_one, List.map_singleton, first]
              rfl
            · intro place within
              cases place with
              | zero => simp [seen, itemsOf, positive]
              | succ place =>
                  have ended :
                      ¬ outlasts limit (seen (page :: later) (place + 1)).length = true := by
                    rw [seen_cons, List.length_append, outlasts_iff]
                    intro longer
                    apply more
                    rw [outlasts_iff]
                    exact fun n same => Nat.lt_of_le_of_lt (Nat.le_add_right _ _) (longer n same)
                  simp [ended]

/-- What can be decoded is decoded to the items that it carries. -/
theorem decodeAll_eq_ok {natives : List Value} (readable : Decodes natives) :
    Item.decodeAll natives = .ok (itemsOf natives) := by
  have several : natives.mapM Item.decode =
      .ok (natives.map fun native => (Item.decode native).toOption.join) := by
    induction natives with
    | nil => rfl
    | cons native rest ih =>
        rw [Decodes, List.forall_mem_cons] at readable
        obtain ⟨⟨item, single⟩, readable⟩ := readable
        refine (mapM_cons_eq_ok_iff _ _ _ _).mpr ⟨item, _, single, ih readable, ?_⟩
        rw [List.map_cons, single]
        rfl
  refine (bind_eq_ok_iff _ _ _).mpr ⟨_, several, ?_⟩
  rw [List.filterMap_map]
  rfl

end TokenTable.Scan
