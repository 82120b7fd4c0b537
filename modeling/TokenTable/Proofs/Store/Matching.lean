import Mathlib.Data.List.Forall2
import Mathlib.Logic.Relation
import TokenTable.Fallible
import TokenTable.Proofs.Fields
import TokenTable.Proofs.Value.Equivalence
import TokenTable.Store.Script

/-! # What a request has to hold

An expected value matches another one if it is the wildcard, if both are maps and each of its keys
is there with a value that it matches, if both are lists and match position by position, or if it is
compared as a whole and is equal (`matchValue_eq_ok_iff`). A value matches itself, and what matches
a value matches what that value matches. Keys that are added to the maps of a value, at any depth
below its maps and lists, leave what matches it matching (`Meets.of_gains`). Main statement:
`meets_preorder`.
-/

namespace TokenTable

open Relation (ReflTransGen)

namespace Value

theorem equalWhole_eq_ok_iff (v w : Value) (equal : Bool) :
    equalWhole v w = .ok equal ↔ signals v w = false ∧ v.same w = equal := by
  rw [equalWhole]
  cases signals v w <;> simp

/-- What a value equals that stands for something and holds no others. -/
theorem equal_eq_ok_true_iff {v : Value} {e : Essence} (settled : v.essence? = some e)
    (w : Value) : v.equal w = .ok true ↔ w.essence? = some e := by
  have whole : v.equal w = equalWhole v w := by
    cases v with
    | list | tuple | map => cases settled
    | _ => rfl
  have alike : v.same w = true ↔ w.essence? = some e := by
    rw [same_iff_corresponds]
    constructor
    · intro corresponds
      cases corresponds with
      | atom left right =>
          rw [settled] at left
          cases left
          exact right
      | _ => cases settled
    · exact fun right => .atom settled right
  have sound : ∀ u : Value, u.essence? = some e → u.isSignaling = false := by
    intro u some
    cases u with
    | decimal d =>
        cases d with
        | nan => cases some
        | _ => rfl
    | _ => rfl
  rw [whole, equalWhole_eq_ok_iff, alike]
  refine and_iff_right_of_imp fun right => ?_
  rw [signals, sound v settled, sound w right]
  rfl

theorem eq_wildcard_of_essence {v : Value} (settled : v.essence? = some .wildcard) :
    v = .wildcard := by
  cases v with
  | wildcard => rfl
  | _ => simp [essence?, Option.bind_eq_some_iff] at settled

/-- A value that requests are made of: an atom that stands for something, such as null, the
wildcard, a truth value, a number, a text or a byte string, a list of such values, or a map of them
under distinct names. -/
inductive IsDocument : Value → Prop
  | atom {v : Value} {e : Essence} (settled : v.essence? = some e) : IsDocument v
  | list {items : List Value} (each : ∀ item ∈ items, IsDocument item) : IsDocument (.list items)
  | record {fields : List (String × Value)} (distinct : (fields.map Prod.fst).Nodup)
      (each : ∀ field ∈ fields, IsDocument field.2) : IsDocument (.record fields)

end Value

namespace Matching

open Value

/-- Whether an expected value is compared as a whole. -/
def isWhole : Value → Bool
  | .wildcard | .map _ | .list _ => false
  | _ => true

/-- Whether a value has everything that an expected value asks for. -/
inductive Meets : Value → Value → Prop
  | wildcard (actual : Value) : Meets .wildcard actual
  | map {expected actual : Entries}
      (present : ∀ entry ∈ expected, (lookup? actual entry.1).isSome)
      (each : ∀ entry ∈ expected, ∀ found, lookup? actual entry.1 = some found →
        Meets entry.2 found) : Meets (.map expected) (.map actual)
  | list {expected actual : List Value} (size : expected.length = actual.length)
      (each : ∀ pair ∈ expected.zip actual, Meets pair.1 pair.2) :
      Meets (.list expected) (.list actual)
  | whole {expected actual : Value} (whole : isWhole expected = true)
      (equal : expected.equal actual = .ok true) : Meets expected actual

/-- What equals a value that is compared as a whole is compared as a whole. -/
theorem isWhole_of_equal {expected actual : Value} (whole : isWhole expected = true)
    (equal : expected.equal actual = .ok true) : isWhole actual = true := by
  cases actual with
  | wildcard | map | list =>
      cases expected with
      | wildcard | map | list => cases whole
      | _ => simp [Value.equal, equalWhole_eq_ok_iff, same, sameAtom, number?] at equal
  | _ => rfl

theorem meets_map_iff (expected actual : Entries) :
    Meets (.map expected) (.map actual) ↔
      ∀ entry ∈ expected, ∃ found, lookup? actual entry.1 = some found ∧ Meets entry.2 found := by
  constructor
  · intro meets entry member
    cases meets with
    | whole whole => cases whole
    | map present each =>
        obtain ⟨found, here⟩ := Option.isSome_iff_exists.mp (present entry member)
        exact ⟨found, here, each entry member found here⟩
  · intro all
    refine .map (fun entry member => ?_) fun entry member found here => ?_
    · obtain ⟨found, here, _⟩ := all entry member
      exact Option.isSome_iff_exists.mpr ⟨found, here⟩
    · obtain ⟨other, there, meets⟩ := all entry member
      rw [here, Option.some.injEq] at there
      rwa [there]

theorem meets_list_iff (expected actual : List Value) :
    Meets (.list expected) (.list actual) ↔ List.Forall₂ Meets expected actual := by
  rw [List.forall₂_iff_zip]
  constructor
  · intro meets
    cases meets with
    | whole whole => cases whole
    | list size each => exact ⟨size, fun member => each _ member⟩
  · rintro ⟨size, each⟩
    exact .list size fun pair member => each member

theorem meets_iff_of_isWhole {expected : Value} (whole : isWhole expected = true)
    (actual : Value) : Meets expected actual ↔ expected.equal actual = .ok true := by
  constructor
  · intro meets
    cases meets with
    | whole _ equal => exact equal
    | _ => cases whole
  · exact .whole whole

theorem exists_of_meets_map {expected : Entries} {actual : Value}
    (meets : Meets (.map expected) actual) : ∃ entries, actual = .map entries := by
  cases meets with
  | whole whole => cases whole
  | map => exact ⟨_, rfl⟩

theorem exists_of_meets_list {expected : List Value} {actual : Value}
    (meets : Meets (.list expected) actual) : ∃ items, actual = .list items := by
  cases meets with
  | whole whole => cases whole
  | list => exact ⟨_, rfl⟩

theorem matchLeaf_eq_ok_iff (path : String) (expected actual : Value) :
    matchLeaf path expected actual = .ok () ↔ expected.equal actual = .ok true := by
  rw [matchLeaf, bind_eq_ok_iff]
  constructor
  · rintro ⟨equal, same, done⟩
    cases equal with
    | true => exact same
    | false => cases done
  · exact fun same => ⟨true, same, rfl⟩

/-- Of two checks both pass, or not both do. -/
theorem unit_bind_eq_ok_iff (first second : Except Fault Unit) :
    (do first; second) = .ok () ↔ first = .ok () ∧ second = .ok () := by
  rw [bind_eq_ok_iff]
  exact ⟨fun ⟨_, both⟩ => both, fun both => ⟨(), both⟩⟩

theorem matchEntries_eq_ok_iff {expected : Entries}
    (each : ∀ entry ∈ expected, ∀ path actual,
      matchValue path entry.2 actual = .ok () ↔ Meets entry.2 actual)
    (path : String) (actual : Entries) :
    matchEntries path actual expected = .ok () ↔ Meets (.map expected) (.map actual) := by
  rw [meets_map_iff]
  induction expected with
  | nil => simp [matchEntries]
  | cons entry rest ih =>
      rw [List.forall_mem_cons] at each ⊢
      rw [matchEntries, ← ih each.2]
      cases lookup? actual entry.1 with
      | none => simp
      | some found =>
          simp only [Option.some.injEq, exists_eq_left']
          rw [← each.1 (underKey path entry.1)]
          exact unit_bind_eq_ok_iff _ _

theorem matchItems_eq_ok_iff {expected : List Value}
    (each : ∀ item ∈ expected, ∀ path actual,
      matchValue path item actual = .ok () ↔ Meets item actual)
    (path : String) (position : Nat) {actual : List Value}
    (size : expected.length = actual.length) :
    matchItems path position expected actual = .ok () ↔ Meets (.list expected) (.list actual) := by
  rw [meets_list_iff]
  induction expected generalizing position actual with
  | nil =>
      cases actual with
      | nil => simp [matchItems]
      | cons => cases size
  | cons item rest ih =>
      rw [List.forall_mem_cons] at each
      cases actual with
      | nil => cases size
      | cons value others =>
          rw [matchItems, List.forall₂_cons, ← each.1 (atPosition path position),
            ← ih each.2 (position + 1) (Nat.succ.inj size)]
          exact unit_bind_eq_ok_iff _ _

/-- Matching succeeds exactly with what has everything that is expected, whatever the path. -/
theorem matchValue_eq_ok_iff (path : String) (expected actual : Value) :
    matchValue path expected actual = .ok () ↔ Meets expected actual := by
  induction expected using induction_parts generalizing path actual with
  | step expected ih =>
      cases expected with
      | wildcard => exact ⟨fun _ => .wildcard actual, fun _ => matches_wildcard path actual⟩
      | map entries =>
          cases actual with
          | map others =>
              exact matchEntries_eq_ok_iff (fun entry member path actual =>
                ih entry.2 (mem_parts_map member).2 path actual) path others
          | _ =>
              refine ⟨nofun, fun meets => ?_⟩
              obtain ⟨_, same⟩ := exists_of_meets_map meets
              cases same
      | list items =>
          cases actual with
          | list others =>
              have unfolded : matchValue path (.list items) (.list others) =
                  if items.length = others.length then matchItems path 0 items others
                  else .error (.lengthDiffers path items.length others.length) := rfl
              rw [unfolded]
              split
              · exact matchItems_eq_ok_iff (fun item member path actual =>
                  ih item member path actual) path 0 ‹_›
              · rename_i differ
                refine ⟨nofun, fun meets => ?_⟩
                exact absurd ((meets_list_iff _ _).mp meets).length_eq differ
          | _ =>
              refine ⟨nofun, fun meets => ?_⟩
              obtain ⟨_, same⟩ := exists_of_meets_list meets
              cases same
      | _ => exact (matchLeaf_eq_ok_iff path _ actual).trans (meets_iff_of_isWhole rfl actual).symm

/-- A document matches itself. -/
theorem Meets.refl {v : Value} (document : v.IsDocument) : Meets v v := by
  induction document with
  | @atom v e settled =>
      have equal := (equal_eq_ok_true_iff settled v).mpr settled
      cases v with
      | wildcard => exact .wildcard _
      | list | map => cases settled
      | _ => exact .whole rfl equal
  | list each ih => exact (meets_list_iff _ _).mpr (List.forall₂_same.mpr ih)
  | @record fields distinct each ih =>
      refine (meets_map_iff _ _).mpr fun entry member => ?_
      obtain ⟨field, inside, rfl⟩ := List.mem_map.mp member
      refine ⟨field.2, ?_, ih field inside⟩
      rw [lookup_record]
      exact (lookup_eq_some_iff_mem distinct _ _).mpr inside

/-- A key is found with a value that stands under what is the same key. -/
theorem exists_mem_of_lookup {entries : Entries} {key found : Value}
    (here : lookup? entries key = some found) :
    ∃ entry ∈ entries, entry.1.same key = true ∧ entry.2 = found := by
  obtain ⟨entry, first, same⟩ := Option.map_eq_some_iff.mp here
  have alike : entry.1.same key = true := by simpa using List.find?_some first
  exact ⟨entry, List.mem_of_find?_eq_some first, alike, same⟩

/-- What is matched by a document matches what the document matches. -/
theorem Meets.trans {u v w : Value} (document : u.IsDocument) (first : Meets u v)
    (second : Meets v w) : Meets u w := by
  induction document generalizing v w with
  | @atom u e settled =>
      cases first with
      | wildcard => exact .wildcard w
      | map | list => cases settled
      | whole whole equal =>
          -- what an atom equals is an atom too, and as an expected value compared as a whole
          have middle := (equal_eq_ok_true_iff settled v).mp equal
          cases second with
          | wildcard =>
              cases middle
              rw [eq_wildcard_of_essence settled] at whole
              cases whole
          | map | list => cases middle
          | whole _ equalOther =>
              have last := (equal_eq_ok_true_iff middle w).mp equalOther
              exact .whole whole ((equal_eq_ok_true_iff settled w).mpr last)
  | list each ih =>
      obtain ⟨items, rfl⟩ := exists_of_meets_list first
      obtain ⟨others, rfl⟩ := exists_of_meets_list second
      rw [meets_list_iff] at first second ⊢
      exact forall₂_trans_of_mem (fun item member _ _ => ih item member) first second
  | record distinct each ih =>
      obtain ⟨entries, rfl⟩ := exists_of_meets_map first
      obtain ⟨others, rfl⟩ := exists_of_meets_map second
      rw [Value.record, meets_map_iff] at first ⊢
      rw [meets_map_iff] at second
      intro entry member
      obtain ⟨field, inside, rfl⟩ := List.mem_map.mp member
      obtain ⟨found, here, meets⟩ := first _ member
      -- the key is a text, so the entry that was found has the very key
      obtain ⟨middle, among, same, rfl⟩ := exists_mem_of_lookup here
      have key := (same_text_right_iff middle.1 field.1).mp same
      obtain ⟨last, there, meetsLast⟩ := second middle among
      rw [key] at there
      exact ⟨last, there, ih field inside meets meetsLast⟩

/-- One key is added to a map in a value, at some depth below its maps and lists. -/
inductive GainsKey : Value → Value → Prop
  | here (before after : Entries) (name : String) (value : Value)
      (fresh : lookup? (before ++ after) (.text name) = none) :
      GainsKey (.map (before ++ after)) (.map (before ++ (.text name, value) :: after))
  | inMap (before after : Entries) (key : Value) {value later : Value}
      (inside : GainsKey value later) :
      GainsKey (.map (before ++ (key, value) :: after)) (.map (before ++ (key, later) :: after))
  | inList (before after : List Value) {value later : Value} (inside : GainsKey value later) :
      GainsKey (.list (before ++ value :: after)) (.list (before ++ later :: after))

/-- A member of a list is replaced by one that is related to more. -/
theorem forall₂_of_replaced {α β : Type} {related : α → β → Prop} {items : List α}
    {before after : List β} {member later : β}
    (each : List.Forall₂ related items (before ++ member :: after))
    (more : ∀ a, related a member → related a later) :
    List.Forall₂ related items (before ++ later :: after) := by
  induction before generalizing items with
  | nil =>
      cases each with
      | cons single others => exact .cons (more _ single) others
  | cons first before ih =>
      cases each with
      | cons single others => exact .cons single (ih others)

/-- What a map matches is the wildcard, or a map whose keys are all there. -/
theorem Meets.cases_map {expected : Value} {actual : Entries}
    (meets : Meets expected (.map actual)) :
    expected = .wildcard ∨ ∃ entries, expected = .map entries ∧
      ∀ entry ∈ entries, ∃ found, lookup? actual entry.1 = some found ∧ Meets entry.2 found := by
  cases meets with
  | wildcard => exact Or.inl rfl
  | whole whole equal => cases isWhole_of_equal whole equal
  | map present each => exact Or.inr ⟨_, rfl, (meets_map_iff _ _).mp (.map present each)⟩

theorem Meets.cases_list {expected : Value} {actual : List Value}
    (meets : Meets expected (.list actual)) :
    expected = .wildcard ∨ ∃ items, expected = .list items ∧ List.Forall₂ Meets items actual := by
  cases meets with
  | wildcard => exact Or.inl rfl
  | whole whole equal => cases isWhole_of_equal whole equal
  | list size each => exact Or.inr ⟨_, rfl, (meets_list_iff _ _).mp (.list size each)⟩

/-- A key that is added to what is matched leaves it matched. -/
theorem Meets.of_gainsKey {expected actual later : Value} (meets : Meets expected actual)
    (gains : GainsKey actual later) : Meets expected later := by
  induction gains generalizing expected with
  | here before after name value fresh =>
      obtain rfl | ⟨entries, rfl, held⟩ := meets.cases_map
      · exact .wildcard _
      refine (meets_map_iff _ _).mpr fun entry member => ?_
      obtain ⟨found, there, meets⟩ := held entry member
      refine ⟨found, ?_, meets⟩
      have apart : same (.text name) entry.1 = false := by
        rw [Bool.eq_false_iff, ne_eq, same_text_left_iff]
        intro key
        rw [key, fresh] at there
        cases there
      rw [lookup?_append] at there
      rwa [lookup?_append, lookup?_cons, if_neg (Bool.eq_false_iff.mp apart)]
  | @inMap before after key value later inside ih =>
      obtain rfl | ⟨entries, rfl, held⟩ := meets.cases_map
      · exact .wildcard _
      refine (meets_map_iff _ _).mpr fun entry member => ?_
      obtain ⟨found, there, meets⟩ := held entry member
      rw [lookup?_append, lookup?_cons] at there
      rw [lookup?_append, lookup?_cons]
      cases early : lookup? before entry.1 with
      | some other =>
          rw [early] at there
          exact ⟨found, there, meets⟩
      | none =>
          rw [early, Option.none_or] at there
          rw [Option.none_or]
          by_cases same : key.same entry.1 = true
          · rw [if_pos same, Option.some.injEq] at there
            rw [if_pos same]
            subst there
            exact ⟨later, rfl, ih meets⟩
          · rw [if_neg same] at there ⊢
            exact ⟨found, there, meets⟩
  | inList before after inside ih =>
      obtain rfl | ⟨items, rfl, held⟩ := meets.cases_list
      · exact .wildcard _
      exact (meets_list_iff _ _).mpr (forall₂_of_replaced held fun _ => ih)

/-- Keys that are added to what is matched leave it matched. -/
theorem Meets.of_gains {expected actual later : Value} (meets : Meets expected actual)
    (gains : ReflTransGen GainsKey actual later) : Meets expected later := by
  induction gains with
  | refl => exact meets
  | tail _ gainsKey ih => exact ih.of_gainsKey gainsKey

/-- What a requirement without a judge lets pass it lets pass with more keys. -/
theorem check_of_gains {method : String} {request later : Request} {requirement : Requirement}
    (unjudged : ∀ judge, requirement ≠ .judged judge)
    (gains : ReflTransGen GainsKey (.record request) (.record later))
    (passes : Script.check method request requirement = .ok ()) :
    Script.check method later requirement = .ok () := by
  cases requirement with
  | anything => rfl
  | matching expected =>
      obtain ⟨entries, made, passes⟩ := (bind_eq_ok_iff _ _ _).mp passes
      refine (bind_eq_ok_iff _ _ _).mpr ⟨entries, made, ?_⟩
      rw [matchValue_eq_ok_iff] at passes ⊢
      exact passes.of_gains gains
  | judged judge => exact absurd rfl (unjudged judge)

/-- **Matching is a preorder that added keys keep.** An expected value matches another one exactly
if the latter has everything that the former asks for. Every document matches itself, and it matches
whatever is matched by what it matches. A match stays one when keys are added to maps in the actual
value, at any depth below its maps and lists. So what a script makes of a request that passes its
requirement does not change when the request gains keys, unless the requirement is a judge, who may
look at the whole request. -/
theorem meets_preorder :
    (∀ path expected actual, matchValue path expected actual = .ok () ↔ Meets expected actual) ∧
      (∀ v : Value, v.IsDocument → Meets v v) ∧
      (∀ u v w : Value, u.IsDocument → Meets u v → Meets v w → Meets u w) ∧
      (∀ expected actual later, Meets expected actual → ReflTransGen GainsKey actual later →
        Meets expected later) ∧
      ∀ (expectation : Expectation) (method : String) (request later : Request),
        (∀ judge, expectation.requirement ≠ .judged judge) →
        ReflTransGen GainsKey (.record request) (.record later) →
          Script.check method request expectation.requirement = .ok () →
            Script.meet expectation method later = Script.meet expectation method request := by
  refine ⟨matchValue_eq_ok_iff, fun v => Meets.refl, fun u v w => Meets.trans,
    fun expected actual later => Meets.of_gains, ?_⟩
  intro expectation method request later unjudged gains passes
  rw [Script.meet, Script.meet, passes, check_of_gains unjudged gains passes]

/-- A request for the item under one key, with some more attributes in the key. -/
def keyRequest (fields : List (String × Value)) : Request :=
  [("Keys", .list [.record (("id", .int 7) :: fields)])]

/-- A pattern for such requests: any key will do. -/
def keyPattern : Value := .record [("Keys", .list [.record [("id", .wildcard)]])]

/-- A pattern that asks for less matches what that pattern matches, also with one more attribute in
the key. -/
theorem meets_preorder_keyPattern :
    let loose : Value := .record [("Keys", .wildcard)]
    let grown := keyRequest [("name", .text "x")]
    let expectation : Expectation := ⟨.text "query", .matching keyPattern, .null, .none⟩
    loose.IsDocument ∧ Meets loose loose ∧
      Meets loose keyPattern ∧ Meets keyPattern (.record (keyRequest [])) ∧
      Meets loose (.record (keyRequest [])) ∧
      ReflTransGen GainsKey (.record (keyRequest [])) (.record grown) ∧
      Meets keyPattern (.record grown) ∧ matchValue "query" keyPattern (.record grown) = .ok () ∧
      Script.check "query" (keyRequest []) expectation.requirement = .ok () ∧
      Script.meet expectation "query" grown = Script.meet expectation "query" (keyRequest []) := by
  intro loose grown expectation
  obtain ⟨decides, refl, trans, kept, scripted⟩ := meets_preorder
  have document : loose.IsDocument := .record (by decide) fun field member => by
    rw [List.mem_singleton.mp member]
    exact .atom rfl
  have looser : Meets loose keyPattern := (decides "" _ _).mp rfl
  have fits : Meets keyPattern (.record (keyRequest [])) := (decides "" _ _).mp rfl
  have gains : ReflTransGen GainsKey (.record (keyRequest [])) (.record grown) :=
    .single (.inMap [] [] (.text "Keys") (.inList [] []
      (.here [(.text "id", .int 7)] [] "name" (.text "x") rfl)))
  have fitsLater := kept _ _ _ fits gains
  exact ⟨document, refl loose document, looser, fits, trans _ _ _ document looser fits, gains,
    fitsLater, (decides "query" _ _).mpr fitsLater, rfl,
    scripted expectation "query" _ grown nofun gains rfl⟩

end Matching

end TokenTable
