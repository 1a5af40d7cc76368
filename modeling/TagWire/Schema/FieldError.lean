/-!
# Refused values

Why an instance refuses a value for one of its fields, or a value does not convert.
-/

namespace TagWire

/-- Why a value is refused. -/
inductive FieldError where
  | unknownIndex (index : Nat)
  | unknownField (name : String)
  | typeMismatch (expected got : String)
  | invalidValue (reason : String)
deriving DecidableEq, Repr

/-- The wording of a refusal. -/
def FieldError.message : FieldError → String
  | .unknownIndex i => s!"no field at index {i}"
  | .unknownField name => s!"no field named '{name}'"
  | .typeMismatch expected got => s!"expected {expected}, got {got}"
  | .invalidValue reason => s!"invalid value: {reason}"

end TagWire
