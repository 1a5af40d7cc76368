import TagWire.Schema.Scalar

/-!
# Fields

A `Field` has a name, a `FieldKind` and may be nullable; lists and maps describe their elements,
keys and values by fields of their own. Two fields are the same exactly when all of this agrees, at
every depth.
-/

namespace TagWire

/-- An enumeration: a name and its variants in order. A variant travels as its name. -/
structure Enumeration where
  name : String
  variants : List String
deriving DecidableEq, Repr

namespace Enumeration

/-- Whether a variant is declared. -/
def contains (e : Enumeration) (variant : String) : Bool := e.variants.contains variant

/-- The first declared variant. -/
def first? (e : Enumeration) : Option String := e.variants.head?

end Enumeration

mutual

/-- What a field holds when it is not null. -/
inductive FieldKind where
  | scalar (kind : ScalarKind)
  | string
  | bytes
  | enum (enumeration : Enumeration)
  /-- An instance of the named type or of a type that extends it. -/
  | nested (tag : String)
  | list (element : Field)
  | map (key value : Field)
deriving DecidableEq, Repr

/-- A named field of a kind. -/
structure Field where
  name : String
  kind : FieldKind
  nullable : Bool
deriving DecidableEq, Repr

end

mutual

/-- The text of a kind in messages, such as `list<string?>`. -/
def FieldKind.describe : FieldKind → String
  | .scalar k => k.name
  | .string => "string"
  | .bytes => "bytes"
  | .enum e => "enum<" ++ e.name ++ ">"
  | .nested tag => "nested<" ++ tag ++ ">"
  | .list element => "list<" ++ element.describe ++ ">"
  | .map key value => "map<" ++ key.describe ++ ", " ++ value.describe ++ ">"
termination_by structural k => k

/-- The text of a field's type: its kind, with a question mark where null is allowed. -/
def Field.describe : Field → String
  | ⟨_, kind, nullable⟩ => if nullable then kind.describe ++ "?" else kind.describe
termination_by structural f => f

end

/-- The tags that a kind refers to, at any depth of lists and maps, in the order written. -/
def FieldKind.references : FieldKind → List String
  | .nested tag => [tag]
  | .list ⟨_, element, _⟩ => element.references
  | .map ⟨_, key, _⟩ ⟨_, value, _⟩ => key.references ++ value.references
  | _ => []
termination_by structural k => k

/-- A list refers to what its elements refer to. -/
theorem FieldKind.references_list (f : Field) :
    (FieldKind.list f).references = f.kind.references := by
  cases f; rfl

/-- A map refers to what its keys and then its values refer to. -/
theorem FieldKind.references_map (f g : Field) :
    (FieldKind.map f g).references = f.kind.references ++ g.kind.references := by
  cases f; cases g; rfl

end TagWire
