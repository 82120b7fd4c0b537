import TokenTable.Fault

/-! # Attribute tokens

A token names an attribute and its kind in one text, such as `Age::N`. The name is what stands
before the first separator, and a token without a separator has the default kind. A strict reading
refuses a second separator and an unknown tag; a lenient one falls back to the default kind. Main
statement: `append_of_cut?`, cutting loses nothing but the separator. -/

namespace TokenTable

structure Token where
  name : String
  kind : Kind
deriving DecidableEq, Repr

namespace Token

/-- The text between the name and the tag. -/
def separator : String := "::"

/-- Cuts a text at its first separator into what stands before and after. -/
def cut? : List Char → Option (List Char × List Char)
  | [] => none
  | ':' :: ':' :: rest => some ([], rest)
  | c :: rest => (cut? rest).map fun parts => (c :: parts.1, parts.2)

/-- A malformed token: refused, or read with the default kind. -/
def fallBack (strict : Bool) (fault : Fault) (name : String) : Except Fault Token :=
  if strict then .error fault else .ok ⟨name, .default⟩

def parseText (strict : Bool) (s : String) : Except Fault Token :=
  match cut? s.toList with
  | none => .ok ⟨s, .default⟩
  | some (front, back) =>
    let name := String.ofList front
    if front.isEmpty then .error (.emptyName s)
    else if (cut? back).isSome then fallBack strict (.extraSeparator s) name
    else
      match Kind.ofTag? (String.ofList back) with
      | some kind => .ok ⟨name, kind⟩
      | none => fallBack strict (.unknownTag s) name

def parse (strict : Bool) : Value → Except Fault Token
  | .text s => if s = "" then .error (.emptyToken (.text s)) else parseText strict s
  | v => .error (.emptyToken v)

/-- The text of a token; the default kind needs no tag. -/
def toText (token : Token) : String :=
  if token.kind = .default then token.name
  else token.name ++ separator ++ token.kind.tag

/-- Where a cut text is joined again, nothing is lost. -/
theorem append_of_cut? (cs front back : List Char) (found : cut? cs = some (front, back)) :
    cs = front ++ ':' :: ':' :: back := by
  fun_induction cut? cs generalizing front with
  | case1 => cases found
  | case2 rest => cases found; rfl
  | case3 c rest _ ih =>
    obtain ⟨parts, cut, same⟩ := Option.map_eq_some_iff.mp found
    cases same
    rw [ih parts.1 cut, List.cons_append]

end Token

end TokenTable
