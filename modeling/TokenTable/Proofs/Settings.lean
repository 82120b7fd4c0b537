import Mathlib.Data.List.TakeWhile
import TokenTable.Proofs.Fallible
import TokenTable.Proofs.Fields
import TokenTable.Settings

/-! # Settings from environment variables

What a variable says is its text without the blanks around it. All settings but the region depend on
what the variables say only (`ofEnvironment_toValue`), so a blank variable is as good as one that is
not set. The region is read from the first of two variables that is not empty, and only then are
blanks removed: a blank one hides the other (`Environment.HidesRegion`). The number of attempts is
made whole after it was read, which fails if it is beyond all bounds. Main statements:
`ofEnvironment_eq_error_iff`, `documented_iff` and `ofEnvironment_withoutBlanks_iff`.
-/

namespace TokenTable

theorem Text.trimOf_eq_nil_iff {α : Type} (blank : α → Bool) (items : List α) :
    trimOf blank items = [] ↔ ∀ a ∈ items, blank a = true := by
  rw [trimOf, List.reverse_eq_nil_iff, List.dropWhile_eq_nil_iff]
  simp only [List.mem_reverse]
  constructor
  · intro rest a member
    rw [← List.takeWhile_append_dropWhile (p := blank) (l := items), List.mem_append] at member
    rcases member with front | back
    · exact List.mem_takeWhile_imp front
    · exact rest a back
  · exact fun all a member => all a (List.dropWhile_subset _ member)

theorem Text.trim_eq_empty_iff (s : String) : trim s = "" ↔ s.toList.all isBlank = true := by
  rw [trim, String.ofList_eq_empty_iff, trimOf_eq_nil_iff, List.all_eq_true]

/-- Environment variables: texts under distinct names. -/
structure Environment where
  texts : List (String × String)
  distinct : (texts.map Prod.fst).Nodup

namespace Environment

def toValue (environment : Environment) : Value :=
  .record (environment.texts.map fun field => (field.1, .text field.2))

/-- The text in a variable, the empty one if it is not set. -/
def raw (environment : Environment) (name : String) : String :=
  (environment.texts.lookup name).getD ""

/-- What a variable says: its text without the blanks around it. -/
def content (environment : Environment) (name : String) : String :=
  Text.trim (environment.raw name)

/-- The environment without the variables that are empty or hold nothing but blanks. -/
def withoutBlanks (environment : Environment) : Environment where
  texts := environment.texts.filter fun field => !field.2.toList.all Text.isBlank
  distinct := environment.distinct.sublist (List.filter_sublist.map _)

/-- A text as a setting, which is null if nothing is said. -/
def orNull (s : String) : Value := if s = "" then .null else .text s

/-- The region that the first variable with something to say names. -/
def region (environment : Environment) : Value :=
  orNull <|
    if environment.content "AWS_REGION" = "" then environment.content "AWS_DEFAULT_REGION"
    else environment.content "AWS_REGION"

/-- A blank variable stands before the one that names the region. -/
def HidesRegion (environment : Environment) : Prop :=
  environment.raw "AWS_REGION" ≠ "" ∧ environment.content "AWS_REGION" = "" ∧
    environment.content "AWS_DEFAULT_REGION" ≠ ""

instance (environment : Environment) : Decidable environment.HidesRegion :=
  inferInstanceAs (Decidable (_ ∧ _ ∧ _))

/-- The region that is read: the one that the first variable names which is not empty. -/
def regionRead (environment : Environment) : Value :=
  if environment.HidesRegion then .null else environment.region

/-- The variable that holds the number of attempts. -/
def attemptsName : String := "DYNAWRAP_MAX_ATTEMPTS"

/-- The variables that hold numbers, in the order in which they are read. -/
def numberNames : List String :=
  ["DYNAWRAP_CONNECT_TIMEOUT", "DYNAWRAP_READ_TIMEOUT", attemptsName]

/-- A variable spells a number. -/
def Spells (environment : Environment) (name : String) (x : Binary64) : Prop :=
  environment.content name ≠ "" ∧ Binary64.read? (environment.content name).toList = some x

/-- A variable for a number says nothing, or it spells one. -/
def Legible (environment : Environment) (name : String) : Prop :=
  environment.content name = "" ∨ ∃ x, environment.Spells name x

/-- The number in a variable, or a default if it says nothing. -/
def numberOr (environment : Environment) (name : String) (default : Value) :
    Except Fault Value :=
  if environment.content name = "" then .ok default
  else
    match Binary64.read? (environment.content name).toList with
    | some x => .ok (.float x)
    | none => .error (.notANumber name (.text (environment.content name)))

/-- The ways in which an environment is refused: the first variable that spells no number is told,
or all of them do but the number of attempts is no number or infinite. -/
inductive Refuses (environment : Environment) : Fault → Prop
  | illegible (earlier later : List String) (name : String)
      (order : numberNames = earlier ++ name :: later)
      (first : ∀ other ∈ earlier, environment.Legible other)
      (unread : ¬ environment.Legible name) :
      Refuses environment (.notANumber name (.text (environment.content name)))
  | undefined (legible : ∀ name ∈ numberNames, environment.Legible name)
      (spelled : environment.Spells attemptsName .nan) : Refuses environment .badValue
  | boundless (legible : ∀ name ∈ numberNames, environment.Legible name) (negative : Bool)
      (spelled : environment.Spells attemptsName (.infinite negative)) :
      Refuses environment .outOfRange

variable (environment : Environment) (name : String)

theorem get_toValue :
    environment.toValue.get name =
      .ok (((environment.texts.lookup name).map Value.text).getD .null) := by
  rw [toValue, Value.record, Value.get, Value.getD_map, Value.lookup_record, lookup_mapValues]

/-- Empty variables are passed over. -/
theorem held_cons (rest : List String) :
    Settings.held environment.toValue (name :: rest) =
      if environment.raw name = "" then Settings.held environment.toValue rest
      else .ok (.text (environment.raw name)) := by
  rw [Settings.held, get_toValue, raw]
  cases environment.texts.lookup name with
  | none => rfl
  | some s =>
      by_cases empty : s = ""
      · subst empty
        rfl
      · simp [bind, Except.bind, pure, Except.pure, Value.isGiven, empty]

theorem held_singleton :
    Settings.held environment.toValue [name] = .ok (.text (environment.raw name)) := by
  rw [held_cons, Settings.held]
  split
  · rename_i empty
    rw [empty]
  · rfl

theorem number_toValue (default : Value) :
    Settings.number environment.toValue name default = environment.numberOr name default := by
  have trimmed : Settings.trimmed (.text (environment.raw name)) =
      .ok (.text (environment.content name)) := rfl
  rw [Settings.number, held_singleton, numberOr]
  simp only [bind, Except.bind, trimmed, Value.isGiven_text, Bool.not_not, decide_eq_true_eq,
    Settings.readNumber?]
  split
  · rfl
  · cases Binary64.read? (environment.content name).toList <;> rfl

theorem text_of_held {names : List String} {s : String}
    (held : Settings.held environment.toValue names = .ok (.text s)) :
    Settings.text environment.toValue names = .ok (orNull (Text.trim s)) := by
  have trimmed : Settings.trimmed (.text s) = .ok (.text (Text.trim s)) := rfl
  rw [Settings.text, held, orNull]
  simp only [bind, Except.bind, trimmed, Value.isGiven_text]
  by_cases silent : Text.trim s = ""
  · simp only [silent, decide_true, Bool.not_true, Bool.false_eq_true, ↓reduceIte]
    rfl
  · simp only [silent, decide_false, Bool.not_false, ↓reduceIte]
    rfl

theorem text_endpoint :
    Settings.text environment.toValue ["DYNAMODB_ENDPOINT"] =
      .ok (orNull (environment.content "DYNAMODB_ENDPOINT")) :=
  environment.text_of_held (environment.held_singleton _)

theorem text_region :
    Settings.text environment.toValue ["AWS_REGION", "AWS_DEFAULT_REGION"] =
      .ok environment.regionRead := by
  rw [regionRead, region]
  by_cases first : environment.raw "AWS_REGION" = ""
  · have silent : environment.content "AWS_REGION" = "" := by
      rw [content, first]
      rfl
    have held := environment.held_cons "AWS_REGION" ["AWS_DEFAULT_REGION"]
    rw [if_pos first, held_singleton] at held
    rw [environment.text_of_held held, if_pos silent, if_neg fun hides => hides.1 first, content]
  · have held := environment.held_cons "AWS_REGION" ["AWS_DEFAULT_REGION"]
    rw [if_neg first] at held
    rw [environment.text_of_held held, ← content]
    by_cases silent : environment.content "AWS_REGION" = ""
    · by_cases second : environment.content "AWS_DEFAULT_REGION" = ""
      · rw [if_neg fun hides => hides.2.2 second, if_pos silent, silent, second]
      · rw [if_pos ⟨first, silent, second⟩, silent]
        rfl
    · rw [if_neg fun hides => silent hides.2.1, if_neg silent]

/-- The settings with a given region. -/
def settingsIn (region : Value) : Except Fault Settings := do
  let connectTimeout ← environment.numberOr "DYNAWRAP_CONNECT_TIMEOUT"
    Settings.default.connectTimeout
  let readTimeout ← environment.numberOr "DYNAWRAP_READ_TIMEOUT" Settings.default.readTimeout
  let attempts ← environment.numberOr attemptsName Settings.default.maxAttempts
  let maxAttempts ← attempts.wholeNumber
  return {
    region, connectTimeout, readTimeout
    endpoint := orNull (environment.content "DYNAMODB_ENDPOINT")
    maxAttempts := .int maxAttempts }

/-- All settings but the region depend on what the variables say only. -/
theorem ofEnvironment_toValue :
    Settings.ofEnvironment environment.toValue =
      environment.settingsIn environment.regionRead := by
  rw [Settings.ofEnvironment, text_region, text_endpoint, number_toValue, number_toValue,
    number_toValue]
  simp only [settingsIn, attemptsName, bind, Except.bind]

theorem numberOr_eq_ok_iff (default v : Value) :
    environment.numberOr name default = .ok v ↔
      environment.content name = "" ∧ default = v ∨
        ∃ x, environment.Spells name x ∧ .float x = v := by
  unfold numberOr Spells
  by_cases silent : environment.content name = ""
  · simp [silent]
  · cases Binary64.read? (environment.content name).toList <;> simp [silent]

theorem numberOr_eq_error_iff (default : Value) (fault : Fault) :
    environment.numberOr name default = .error fault ↔
      ¬ environment.Legible name ∧
        .notANumber name (.text (environment.content name)) = fault := by
  unfold numberOr Legible Spells
  by_cases silent : environment.content name = ""
  · simp [silent]
  · cases Binary64.read? (environment.content name).toList <;> simp [silent]

/-- The number in a variable is read exactly if the variable is legible. -/
theorem exists_numberOr_iff (default : Value) :
    (∃ v, environment.numberOr name default = .ok v) ↔ environment.Legible name := by
  simp only [numberOr_eq_ok_iff, Legible]
  constructor
  · rintro ⟨_, ⟨silent, _⟩ | ⟨x, spelled, _⟩⟩
    · exact Or.inl silent
    · exact Or.inr ⟨x, spelled⟩
  · rintro (silent | ⟨x, spelled⟩)
    · exact ⟨default, Or.inl ⟨silent, rfl⟩⟩
    · exact ⟨.float x, Or.inr ⟨x, spelled, rfl⟩⟩

/-- The number of attempts cannot be made whole if it is no number or infinite. -/
theorem wholeNumber_eq_error_iff (fault : Fault) :
    (∃ attempts, environment.numberOr attemptsName Settings.default.maxAttempts = .ok attempts ∧
        attempts.wholeNumber = .error fault) ↔
      environment.Spells attemptsName .nan ∧ fault = .badValue ∨
        (∃ negative, environment.Spells attemptsName (.infinite negative)) ∧
          fault = .outOfRange := by
  simp only [numberOr_eq_ok_iff]
  constructor
  · rintro ⟨_, ⟨_, rfl⟩ | ⟨x, spelled, rfl⟩, failed⟩
    · cases failed
    · cases x with
      | nan =>
          cases failed
          exact Or.inl ⟨spelled, rfl⟩
      | infinite negative =>
          cases failed
          exact Or.inr ⟨⟨negative, spelled⟩, rfl⟩
      | finite => cases failed
  · rintro (⟨spelled, rfl⟩ | ⟨⟨negative, spelled⟩, rfl⟩)
    · exact ⟨_, Or.inr ⟨_, spelled, rfl⟩, rfl⟩
    · exact ⟨_, Or.inr ⟨_, spelled, rfl⟩, rfl⟩

theorem forall_numberNames_iff :
    (∀ name ∈ numberNames, environment.Legible name) ↔
      environment.Legible "DYNAWRAP_CONNECT_TIMEOUT" ∧
        environment.Legible "DYNAWRAP_READ_TIMEOUT" ∧ environment.Legible attemptsName := by
  simp only [numberNames, List.forall_mem_cons, List.not_mem_nil, false_imp_iff, implies_true,
    and_true]

/-- The settings are refused at the first step that fails: at one of the three variables, or where
the number of attempts is made whole. -/
theorem settingsIn_eq_error_iff (region : Value) (fault : Fault) :
    environment.settingsIn region = .error fault ↔ environment.Refuses fault := by
  simp only [settingsIn, bind_eq_error_iff, numberOr_eq_error_iff, pure, Except.pure,
    reduceCtorEq, and_false, exists_false, or_false, wholeNumber_eq_error_iff,
    exists_and_right, exists_numberOr_iff]
  constructor
  · rintro (⟨unread, rfl⟩ | ⟨connect, ⟨unread, rfl⟩ | ⟨read, ⟨unread, rfl⟩ | whole⟩⟩)
    · exact .illegible [] _ _ rfl (by simp) unread
    · exact .illegible ["DYNAWRAP_CONNECT_TIMEOUT"] _ _ rfl (by simpa using connect) unread
    · exact .illegible ["DYNAWRAP_CONNECT_TIMEOUT", "DYNAWRAP_READ_TIMEOUT"] _ _ rfl
        (by simpa using ⟨connect, read⟩) unread
    · rcases whole with ⟨spelled, rfl⟩ | ⟨⟨negative, spelled⟩, rfl⟩
      · exact .undefined
          (environment.forall_numberNames_iff.mpr ⟨connect, read, Or.inr ⟨_, spelled⟩⟩) spelled
      · exact .boundless
          (environment.forall_numberNames_iff.mpr ⟨connect, read, Or.inr ⟨_, spelled⟩⟩) negative
          spelled
  · intro refuses
    cases refuses with
    | illegible earlier later name order first unread =>
        match earlier, order with
        | [], order =>
            cases order
            exact Or.inl ⟨unread, rfl⟩
        | [_], order =>
            cases order
            exact Or.inr ⟨first _ (by simp), Or.inl ⟨unread, rfl⟩⟩
        | [_, _], order =>
            cases order
            exact Or.inr ⟨first _ (by simp), Or.inr ⟨first _ (by simp), Or.inl ⟨unread, rfl⟩⟩⟩
        | _ :: _ :: _ :: others, order => cases others <;> cases order
    | undefined legible spelled =>
        obtain ⟨connect, read, _⟩ := environment.forall_numberNames_iff.mp legible
        exact Or.inr ⟨connect, Or.inr ⟨read, Or.inr (Or.inl ⟨spelled, rfl⟩)⟩⟩
    | boundless legible negative spelled =>
        obtain ⟨connect, read, _⟩ := environment.forall_numberNames_iff.mp legible
        exact Or.inr ⟨connect, Or.inr ⟨read, Or.inr (Or.inr ⟨⟨negative, spelled⟩, rfl⟩)⟩⟩

/-- **An environment is refused for a variable that spells no number**, the first one, or for a
number of attempts that is no number or infinite. -/
theorem ofEnvironment_eq_error_iff (fault : Fault) :
    Settings.ofEnvironment environment.toValue = .error fault ↔ environment.Refuses fault := by
  rw [ofEnvironment_toValue, settingsIn_eq_error_iff]

/-- A number with a whole part: not infinite, and a number at all. -/
def IsBounded (x : Binary64) : Prop := ∃ negative m e, x = .finite negative m e

/-- The variables for numbers are legible, but the number of attempts cannot be made whole. -/
def Unbounded : Prop :=
  (∀ name ∈ numberNames, environment.Legible name) ∧
    ∃ x, environment.Spells attemptsName x ∧ ¬ IsBounded x

theorem refuses_of_unbounded (unbounded : environment.Unbounded) :
    environment.Refuses .badValue ∨ environment.Refuses .outOfRange := by
  obtain ⟨legible, x, spelled, beyond⟩ := unbounded
  cases x with
  | nan => exact Or.inl (.undefined legible spelled)
  | infinite negative => exact Or.inr (.boundless legible negative spelled)
  | finite negative m e => exact absurd ⟨negative, m, e, rfl⟩ beyond

/-- **An environment gives settings, or it fails validation, unless it is unbounded.** Then all its
numbers are read, and the last step fails. -/
theorem documented_iff :
    ((∃ settings, Settings.ofEnvironment environment.toValue = .ok settings) ∨
        ∃ fault, Settings.ofEnvironment environment.toValue = .error fault ∧
          fault.category = .validation) ↔
      ¬ environment.Unbounded := by
  constructor
  · intro documented unbounded
    have fails : ∃ fault, Settings.ofEnvironment environment.toValue = .error fault ∧
        fault.category ≠ .validation := by
      rcases environment.refuses_of_unbounded unbounded with refuses | refuses
      · exact ⟨_, (environment.ofEnvironment_eq_error_iff _).mpr refuses, nofun⟩
      · exact ⟨_, (environment.ofEnvironment_eq_error_iff _).mpr refuses, nofun⟩
    obtain ⟨fault, failed, other⟩ := fails
    rw [failed] at documented
    rcases documented with ⟨_, done⟩ | ⟨_, same, validation⟩
    · cases done
    · cases same
      exact other validation
  · intro bounded
    cases result : Settings.ofEnvironment environment.toValue with
    | ok settings => exact Or.inl ⟨settings, rfl⟩
    | error fault =>
        refine Or.inr ⟨fault, rfl, ?_⟩
        cases (environment.ofEnvironment_eq_error_iff fault).mp result with
        | illegible => rfl
        | undefined legible spelled =>
            exact absurd ⟨legible, .nan, spelled, nofun⟩ bounded
        | boundless legible negative spelled =>
            exact absurd ⟨legible, .infinite negative, spelled, nofun⟩ bounded

/-- An environment with one variable. -/
def single (name text : String) : Environment := ⟨[(name, text)], List.nodup_singleton _⟩

/-- A number of attempts may be spelled without being whole: as infinite, as no number, or greater
than every double. -/
theorem boundless_attempts :
    Settings.ofEnvironment (single attemptsName "inf").toValue = .error .outOfRange ∧
      Settings.ofEnvironment (single attemptsName "1e999").toValue = .error .outOfRange ∧
      Settings.ofEnvironment (single attemptsName "nan").toValue = .error .badValue ∧
      Fault.outOfRange.category ≠ .validation ∧ Fault.badValue.category ≠ .validation :=
  ⟨rfl, rfl, rfl, nofun, nofun⟩

theorem raw_withoutBlanks :
    environment.withoutBlanks.raw name =
      if environment.content name = "" then "" else environment.raw name := by
  rw [raw, withoutBlanks, lookup_filter environment.distinct, content, raw]
  cases environment.texts.lookup name with
  | none => simp
  | some s =>
      have silent : Text.trim s = "" ↔ s.toList.all Text.isBlank = true :=
        Text.trim_eq_empty_iff s
      by_cases blank : s.toList.all Text.isBlank = true
      · rw [Option.getD_some, if_pos (silent.mpr blank), Option.filter, blank]
        rfl
      · rw [Option.getD_some, if_neg (mt silent.mp blank), Option.filter,
          Bool.eq_false_iff.mpr blank]
        rfl

/-- Without its blank variables, an environment says the same. -/
theorem content_withoutBlanks :
    environment.withoutBlanks.content name = environment.content name := by
  rw [content, raw_withoutBlanks]
  split
  · rename_i silent
    rw [silent]
    rfl
  · rfl

/-- Only blank variables hide others. -/
theorem regionRead_withoutBlanks :
    environment.withoutBlanks.regionRead = environment.region := by
  have shows : ¬ environment.withoutBlanks.HidesRegion := by
    rintro ⟨set, silent, _⟩
    rw [content_withoutBlanks] at silent
    rw [raw_withoutBlanks, if_pos silent] at set
    exact set rfl
  rw [regionRead, if_neg shows, region, content_withoutBlanks, content_withoutBlanks, region]

theorem settingsIn_withoutBlanks (region : Value) :
    environment.withoutBlanks.settingsIn region = environment.settingsIn region := by
  unfold settingsIn numberOr
  simp only [content_withoutBlanks]

/-- The region of the settings is the one that was given. -/
theorem region_of_settingsIn {region : Value} {settings : Settings}
    (done : environment.settingsIn region = .ok settings) : settings.region = region := by
  simp only [settingsIn, bind_eq_ok_iff] at done
  obtain ⟨_, _, _, _, _, _, _, _, done⟩ := done
  cases done
  rfl

/-- A region that is hidden is named by some variable. -/
theorem region_ne_null_of_hidesRegion (hides : environment.HidesRegion) :
    environment.region ≠ .null := by
  obtain ⟨_, silent, second⟩ := hides
  rw [region, if_pos silent, orNull, if_neg second]
  exact nofun

/-- **A blank variable is an unset one, unless it hides the region.** Without its blank variables an
environment gives the same settings or the same fault, and the region is the one that the first
variable with something to say names. Only where a blank variable stands before that one is there
no region. -/
theorem ofEnvironment_withoutBlanks_iff :
    (Settings.ofEnvironment environment.withoutBlanks.toValue =
        Settings.ofEnvironment environment.toValue ↔
      ¬ (environment.HidesRegion ∧
        ∃ settings, Settings.ofEnvironment environment.toValue = .ok settings)) ∧
    ∀ settings, Settings.ofEnvironment environment.toValue = .ok settings →
      settings.region = if environment.HidesRegion then .null else environment.region := by
  rw [ofEnvironment_toValue, ofEnvironment_toValue, regionRead_withoutBlanks,
    settingsIn_withoutBlanks]
  refine ⟨?_, fun settings done => environment.region_of_settingsIn done⟩
  by_cases hides : environment.HidesRegion
  · simp only [hides, true_and]
    cases result : environment.settingsIn environment.regionRead with
    | ok settings =>
        -- The settings differ in the region.
        refine iff_of_false (fun same => ?_) (not_not.mpr ⟨settings, rfl⟩)
        have none := environment.region_of_settingsIn result
        rw [environment.region_of_settingsIn same, regionRead, if_pos hides] at none
        exact environment.region_ne_null_of_hidesRegion hides none
    | error fault =>
        -- The fault does not depend on the region.
        have refuses := (environment.settingsIn_eq_error_iff _ fault).mp result
        exact iff_of_true ((environment.settingsIn_eq_error_iff _ fault).mpr refuses) nofun
  · simp only [hides, false_and, not_false_eq_true, regionRead, ↓reduceIte]

/-- A blank variable in front of the one that names the region hides it. -/
theorem blank_region_hides :
    let environment : Environment :=
      ⟨[("AWS_REGION", " "), ("AWS_DEFAULT_REGION", "eu-west-1")], by decide⟩
    Settings.ofEnvironment environment.toValue = .ok Settings.default ∧
      Settings.ofEnvironment environment.withoutBlanks.toValue =
        .ok { Settings.default with region := .text "eu-west-1" } ∧
      Settings.ofEnvironment environment.withoutBlanks.toValue ≠
        Settings.ofEnvironment environment.toValue := by
  refine ⟨rfl, rfl, fun same => ?_⟩
  have regions := congrArg (fun result => result.toOption.map Settings.region) same
  exact absurd regions (by rintro ⟨⟩)

end Environment

end TokenTable
