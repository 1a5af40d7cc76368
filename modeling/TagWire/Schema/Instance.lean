import TagWire.Localization.Access
import TagWire.Schema.Record

/-!
# Storing into instances

`Instance.setField` stores a value under the index of its field, in a record or in an entity.
-/

namespace TagWire

/-- Stores a value at an index. -/
def Instance.setField (i : Instance) (index : Nat) (v : Value) : Except FieldError Instance :=
  match i with
  | .record shape values => (shape.setField values index v).map (.record shape)
  | .entity e => (e.setField index v).map .entity

end TagWire
