/-! # Signatures

An operation takes named arguments, some of which it requires. Arguments fit if none that is
required is missing and none is unknown. Main statement: `fits_iff`. -/

namespace TokenTable

/-- The names of the arguments that an operation takes. -/
structure Signature where
  required : List String
  optional : List String
deriving Repr

namespace Signature

def fits (signature : Signature) (names : List String) : Bool :=
  signature.required.all (names.contains ·) &&
    names.all fun name => signature.required.contains name || signature.optional.contains name

/-- Arguments fit exactly if every required name is theirs and every name of theirs is taken. -/
theorem fits_iff (signature : Signature) (names : List String) :
    signature.fits names = true ↔
      (∀ name ∈ signature.required, name ∈ names) ∧
        ∀ name ∈ names, name ∈ signature.required ∨ name ∈ signature.optional := by
  simp [fits]

end Signature

end TokenTable
