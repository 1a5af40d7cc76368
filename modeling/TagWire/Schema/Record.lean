import TagWire.Schema.Value

/-!
# Records

A `Record` is an instance whose shape is known only at run time. Its values stand in field order,
and each one that is stored is checked against its field. Where two fields share a name, the name
means the first of them.
-/

namespace TagWire

/-- Index of the first field of a name. -/
def Field.indexOf? (fields : List Field) (name : String) : Option Nat :=
  fields.findIdx? (·.name == name)

namespace RecordShape

/-- The values of a fresh record. -/
def initialValues (shape : RecordShape) : List Value := shape.fields.map Field.initial

/-- The values after storing one at an index. -/
def setField (shape : RecordShape) (values : List Value) (index : Nat) (v : Value) :
    Except FieldError (List Value) :=
  match shape.fields[index]? with
  | none => .error (.unknownIndex index)
  | some f =>
    if f.accepts v then .ok (values.set index v)
    else .error (.typeMismatch f.describe v.kindName)

end RecordShape

/-- An instance whose shape is known only at run time. -/
structure Record where
  shape : RecordShape
  values : List Value

namespace Record

/-- A record that holds what its fields hold at first. -/
def fresh (shape : RecordShape) : Record := ⟨shape, shape.initialValues⟩

/-- The record as an instance. -/
def toInstance (r : Record) : Instance := .record r.shape r.values

/-- The instance as a record, if it is one. -/
def ofInstance? : Instance → Option Record
  | .record shape values => some ⟨shape, values⟩
  | .entity _ => none

/-- Stores a value at an index. -/
def setField (r : Record) (index : Nat) (v : Value) : Except FieldError Record :=
  (r.shape.setField r.values index v).map fun values => { r with values }

/-- Stores a value under a name. -/
def set (r : Record) (name : String) (v : Value) : Except FieldError Record :=
  match Field.indexOf? r.shape.fields name with
  | none => .error (.unknownField name)
  | some index => r.setField index v

/-- Stores several values, one after the other, up to the first that is refused. -/
def setAll (r : Record) : List (String × Value) → Except FieldError Record
  | [] => .ok r
  | (name, v) :: rest => do (← r.set name v).setAll rest

/-- The value under a name. -/
def get? (r : Record) (name : String) : Option Value := do
  r.values[← Field.indexOf? r.shape.fields name]?

/-- Names and values in field order. -/
def entries (r : Record) : List (String × Value) :=
  (r.shape.fields.map Field.name).zip r.values

end Record

end TagWire
