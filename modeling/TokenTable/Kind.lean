/-! # Kinds of attributes

An attribute holds one text, number or byte string, or a set of these. Each kind has a tag of one
or two letters. Main statement: `ofTag?_eq_some_iff`, a tag names exactly one kind. -/

namespace TokenTable

/-- The kinds of single values. -/
inductive ScalarKind where
  | text
  | number
  | binary
deriving DecidableEq, Repr, Inhabited

inductive Kind where
  | scalar (element : ScalarKind)
  | set (element : ScalarKind)
deriving DecidableEq, Repr, Inhabited

/-- The letter of a scalar kind. -/
def ScalarKind.letter : ScalarKind → String
  | .text => "S"
  | .number => "N"
  | .binary => "B"

namespace Kind

def tag : Kind → String
  | .scalar .text => "S"
  | .scalar .number => "N"
  | .scalar .binary => "B"
  | .set .text => "SS"
  | .set .number => "NS"
  | .set .binary => "BS"

def ofTag? : String → Option Kind
  | "S" => some (.scalar .text)
  | "N" => some (.scalar .number)
  | "B" => some (.scalar .binary)
  | "SS" => some (.set .text)
  | "NS" => some (.set .number)
  | "BS" => some (.set .binary)
  | _ => none

/-- The kind of an attribute whose token names none. -/
def default : Kind := .scalar .text

/-- The kind of a set's elements; a scalar kind stays. -/
def element : Kind → Kind
  | .scalar e | .set e => .scalar e

@[simp] theorem ofTag?_tag (kind : Kind) : ofTag? kind.tag = some kind := by
  rcases kind with e | e <;> cases e <;> rfl

theorem ofTag?_eq_some_iff (tag : String) (kind : Kind) :
    ofTag? tag = some kind ↔ kind.tag = tag := by
  constructor
  · intro named
    unfold ofTag? at named
    split at named <;> cases named <;> rfl
  · rintro rfl
    exact ofTag?_tag kind

end Kind

end TokenTable
