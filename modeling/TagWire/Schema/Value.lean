import TagWire.Schema.FieldError
import TagWire.Localization.Types

/-!
# Values and instances

A `Value` is what a field holds, an `Instance` an object of a schema: a record whose shape is known
only at run time, or an entity of the localization family. The codec sees every instance in one way,
as the list `Instance.values` of its values in field order; `weight_values` says that this list is
lighter than the instance, which is why a walk along it ends.
-/

namespace TagWire

open TagWire.Localization (Entity EntityType Choice)

/-- Tag and fields of a record. -/
structure RecordShape where
  tag : String
  fields : List Field
deriving DecidableEq, Repr

mutual

/-- A field value. -/
inductive Value where
  | null
  | scalar (s : Scalar)
  | string (s : String)
  | bytes (b : List UInt8)
  /-- A variant of an enumeration, by name. -/
  | enum (variant : String)
  | list (items : List Value)
  /-- Entries in their own order. -/
  | map (entries : List (Value × Value))
  | nested (i : Instance)

/-- An object of a schema. -/
inductive Instance where
  | record (shape : RecordShape) (values : List Value)
  | entity (e : Entity)

end

instance : Inhabited Value := ⟨.null⟩
instance : Inhabited Instance := ⟨.record ⟨"", []⟩ []⟩

/-- What an instance is: any record, or an entity of one of the localization types. -/
inductive InstanceType where
  | record
  | entity (t : EntityType)
deriving DecidableEq, Repr

/-- The full name under which messages speak of a type. -/
def InstanceType.fullName : InstanceType → String
  | record => "dynserial::schema::record::DynamicRecord"
  | entity t => t.fullName

namespace Value

/-- Whether a value is null. -/
def isNull : Value → Bool
  | null => true
  | _ => false

/-- The name of a value's kind in messages. -/
def kindName : Value → String
  | null => "null"
  | scalar s => s.kind.name
  | string _ => "string"
  | bytes _ => "bytes"
  | enum _ => "enum"
  | list _ => "list"
  | map _ => "map"
  | nested _ => "nested"

/-- A text or null. -/
def ofOptionalText : Option String → Value
  | none => null
  | some s => string s

/-- A byte string or null. -/
def ofOptionalBytes : Option (List UInt8) → Value
  | none => null
  | some b => bytes b

end Value

/-- The values of an entity in the order of its type's fields. -/
def Localization.Entity.values : Entity → List Value
  | .user u => [.ofOptionalText u.userId]
  | .context c =>
    [.enum (Choice.wireName c.tree), .enum (Choice.wireName c.level), .ofOptionalText c.contextName]
  | .streamRequest r => requestValues r
  | .getRequest g =>
    requestValues g.request ++ [.scalar (.i32 g.offset), .scalar (.i32 g.numBytes)]
  | .putRequest p =>
    requestValues p.request ++
      [.ofOptionalBytes p.bytes, .scalar (.i32 p.offset), .scalar (.bool p.isEnd)]
where
  /-- The values that every stream request starts with. -/
  requestValues (r : Localization.StreamRequest) : List Value :=
    [match r.context with
      | none => .null
      | some c => .nested (.entity (.context c)),
      .ofOptionalText r.fileName, .ofOptionalText r.myContextName,
      .nested (.entity (.user r.user))]

namespace Instance

/-- The values of an instance in field order. -/
def values : Instance → List Value
  | record _ vs => vs
  | entity e => e.values

/-- The value of the field at an index. -/
def value? (i : Instance) (index : Nat) : Option Value := i.values[index]?

/-- The tag that an instance carries itself. The tag of an entity depends on a registry. -/
def ownTag? : Instance → Option String
  | record shape _ => some shape.tag
  | entity _ => none

/-- The type of an instance. -/
def type : Instance → InstanceType
  | record _ _ => .record
  | entity e => .entity e.type

end Instance

/-! ## Weight

A measure for recursion along `Instance.values`. The values of an entity are not parts of it in the
sense of the inductive type, so an entity is given by hand a weight above that of its values.
-/

/-- The weight of an entity: more than that of its values. -/
def Localization.EntityType.weight : EntityType → Nat
  | .user => 2
  | .context => 4
  | .streamRequest => 12
  | .getRequest => 14
  | .putRequest => 15

mutual

/-- The weight of a value. -/
def Value.weight : Value → Nat
  | .list items => Value.listWeight items
  | .map entries => Value.entriesWeight entries
  | .nested i => i.weight
  | _ => 0
termination_by structural v => v

/-- The weight of an instance. -/
def Instance.weight : Instance → Nat
  | .record _ vs => 1 + Value.listWeight vs
  | .entity e => e.type.weight
termination_by structural i => i

/-- The weight of a list of values. -/
def Value.listWeight : List Value → Nat
  | [] => 0
  | v :: vs => 1 + v.weight + Value.listWeight vs
termination_by structural vs => vs

/-- The weight of the entries of a map. -/
def Value.entriesWeight : List (Value × Value) → Nat
  | [] => 0
  | (k, v) :: es => 1 + k.weight + v.weight + Value.entriesWeight es
termination_by structural es => es

end

/-- The weight of two lists of values in a row. -/
theorem Value.listWeight_append (vs ws : List Value) :
    Value.listWeight (vs ++ ws) = Value.listWeight vs + Value.listWeight ws := by
  induction vs with
  | nil => simp [Value.listWeight]
  | cons v vs ih => simp only [List.cons_append, Value.listWeight, ih]; omega

/-- An optional text weighs nothing. -/
@[simp] theorem Value.weight_ofOptionalText (s : Option String) :
    (Value.ofOptionalText s).weight = 0 := by
  cases s <;> rfl

/-- An optional byte string weighs nothing. -/
@[simp] theorem Value.weight_ofOptionalBytes (b : Option (List UInt8)) :
    (Value.ofOptionalBytes b).weight = 0 := by
  cases b <;> rfl

/-- The values that a stream request starts with are lighter than it. -/
theorem Localization.Entity.weight_requestValues (r : Localization.StreamRequest) :
    Value.listWeight (Entity.values.requestValues r) < EntityType.streamRequest.weight := by
  obtain ⟨context, _, _, _⟩ := r
  cases context <;>
    simp [Entity.values.requestValues, Value.listWeight, Value.weight, Instance.weight,
      Entity.type, EntityType.weight]

/-- The values of an instance are lighter than the instance. -/
theorem Instance.weight_values (i : Instance) : Value.listWeight i.values < i.weight := by
  cases i with
  | record _ vs => simp [Instance.values, Instance.weight]
  | entity e =>
    cases e with
    | user u => simp [Instance.values, Entity.values, Value.listWeight, Instance.weight,
        Entity.type, EntityType.weight]
    | context c => simp [Instance.values, Entity.values, Value.listWeight, Instance.weight,
        Entity.type, EntityType.weight, Value.weight]
    | streamRequest r => exact Entity.weight_requestValues r
    | getRequest g =>
      have := Entity.weight_requestValues g.request
      simp only [Instance.values, Entity.values, Value.listWeight_append, Value.listWeight,
        Value.weight, Instance.weight, Entity.type, EntityType.weight] at this ⊢
      omega
    | putRequest p =>
      have := Entity.weight_requestValues p.request
      simp only [Instance.values, Entity.values, Value.listWeight_append, Value.listWeight,
        Value.weight, Instance.weight, Entity.type, EntityType.weight,
        Value.weight_ofOptionalBytes] at this ⊢
      omega

/-- An element of a list is lighter than the list. -/
theorem Value.weight_lt_of_mem {v : Value} {vs : List Value} (h : v ∈ vs) :
    v.weight < Value.listWeight vs := by
  induction vs with
  | nil => cases h
  | cons w ws ih =>
    simp only [Value.listWeight]
    cases h with
    | head => omega
    | tail _ h => have := ih h; omega

/-! ## Comparison

Equality as the program knows it: floats compare as numbers, records by tag and values. Equality in
the logic is finer, it compares bits and shapes.
-/

mutual

/-- Whether two values compare as equal. -/
def Value.alike : Value → Value → Bool
  | .null, .null => true
  | .scalar a, .scalar b => a.alike b
  | .string a, .string b => a == b
  | .bytes a, .bytes b => a == b
  | .enum a, .enum b => a == b
  | .list a, .list b => Value.listAlike a b
  | .map a, .map b => Value.entriesAlike a b
  | .nested a, .nested b => a.alike b
  | _, _ => false
termination_by structural v => v

/-- Whether two instances compare as equal. -/
def Instance.alike : Instance → Instance → Bool
  | .record s vs, .record t ws => s.tag == t.tag && Value.listAlike vs ws
  | .entity a, .entity b => a == b
  | _, _ => false
termination_by structural i => i

/-- Whether two lists compare as equal. -/
def Value.listAlike : List Value → List Value → Bool
  | [], [] => true
  | v :: vs, w :: ws => v.alike w && Value.listAlike vs ws
  | _, _ => false
termination_by structural vs => vs

/-- Whether the entries of two maps compare as equal, in order. -/
def Value.entriesAlike : List (Value × Value) → List (Value × Value) → Bool
  | [], [] => true
  | (k, v) :: es, (l, w) :: fs => k.alike l && v.alike w && Value.entriesAlike es fs
  | _, _ => false
termination_by structural es => es

end

/-! ## Fields and values -/

/-- Whether a value is of a kind. Only the outermost layer is looked at: elements of collections and
the type of nested instances are left to the encoder. -/
def FieldKind.accepts : FieldKind → Value → Bool
  | .scalar k, .scalar s => s.kind == k
  | .string, .string _ => true
  | .bytes, .bytes _ => true
  | .enum e, .enum variant => e.contains variant
  | .nested _, .nested _ => true
  | .list _, .list _ => true
  | .map _ _, .map _ => true
  | _, _ => false

/-- Whether a field may hold a value. -/
def Field.accepts (f : Field) (v : Value) : Bool :=
  if v.isNull then f.nullable else f.kind.accepts v

/-- What a fresh required field of a kind holds. It is null where only the owner can say more: for
nested instances, and for enumerations without variants. -/
def FieldKind.initial : FieldKind → Value
  | .scalar k => .scalar k.zero
  | .string => .string ""
  | .bytes => .bytes []
  | .enum e =>
    match e.first? with
    | some variant => .enum variant
    | none => .null
  | .nested _ => .null
  | .list _ => .list []
  | .map _ _ => .map []

/-- What a fresh field holds. -/
def Field.initial (f : Field) : Value := if f.nullable then .null else f.kind.initial

end TagWire
