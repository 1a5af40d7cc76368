import TagWire.Json.View
import TagWire.Schema.Instance

/-!
# Instances from their JSON view

The type decides how JSON is taken: `Registry.ofJson` makes a fresh instance of the type named under
`$type`, or of the declared one, and stores the members of the object in the order of the fields.
Fields without a member stay as they are in a fresh instance, and members without a field are an
error. The recursion is along the JSON value; the members of an object are turned into readers,
which the fields then look for by name.
-/

namespace TagWire

open Number (Binary64)

namespace Json

/-- The text of a text. -/
def toText : Json → Except ImportError String
  | text s => .ok s
  | j => .error (.notText j)

/-- The integer of so many bits, one of which is the sign. -/
def toSigned? (bits : Nat) : Json → Option Int
  | int n =>
    let bound : Int := Nat.pow 2 (bits - 1)
    if -bound ≤ n ∧ n < bound then some n else none
  | _ => none

/-- The natural number of so many bits. -/
def toUnsigned? (bits : Nat) : Json → Option Nat
  | int n =>
    let bound : Int := Nat.pow 2 bits
    if 0 ≤ n ∧ n < bound then some n.toNat else none
  | _ => none

/-- The float of a number. -/
def toFloat? : Json → Option Binary64
  | int n => some (.ofInt n)
  | float x => some x
  | _ => none

/-- The scalar of a kind other than a character. -/
def toScalar? (k : ScalarKind) (j : Json) : Option Scalar :=
  match k with
  | .bool =>
    match j with
    | bool b => some (.bool b)
    | _ => none
  | .i8 => (j.toSigned? 8).map fun n => .i8 n.toInt8
  | .i16 => (j.toSigned? 16).map fun n => .i16 n.toInt16
  | .i32 => (j.toSigned? 32).map fun n => .i32 n.toInt32
  | .i64 => (j.toSigned? 64).map fun n => .i64 n.toInt64
  | .u8 => (j.toUnsigned? 8).map fun n => .u8 n.toUInt8
  | .u16 => (j.toUnsigned? 16).map fun n => .u16 n.toUInt16
  | .u32 => (j.toUnsigned? 32).map fun n => .u32 n.toUInt32
  | .u64 => (j.toUnsigned? 64).map fun n => .u64 n.toUInt64
  | .f32 => j.toFloat?.map fun x => .f32 x.narrow
  | .f64 => j.toFloat?.map .f64
  | .char => none

/-- The scalar of a kind. -/
def toScalar (k : ScalarKind) (j : Json) : Except ImportError Scalar :=
  match k with
  | .char => do
    let s ← j.toText
    match s.toList with
    | [c] => return .char c
    | _ => throw (.notOneCharacter s)
  | k =>
    match j.toScalar? k with
    | some s => .ok s
    | none => .error (.notOfKind k j)

/-- The value of a kind that has no parts. The kinds that have parts take nothing. -/
def toLeaf (kind : FieldKind) (j : Json) : Except ImportError Value :=
  match kind with
  | .scalar k => (j.toScalar k).map .scalar
  | .string => j.toText.map .string
  | .bytes => do
    match Text.Hex.decode (← j.toText) with
    | .ok bytes => return .bytes bytes
    | .error fault => throw (.badHex fault)
  | .enum e => do
    let variant ← j.toText
    if e.contains variant then return .enum variant else throw (.unknownVariant variant e)
  | .nested tag => .error (.notObject tag)
  | .list _ | .map _ _ => .error (.notArray j)

end Json

namespace Registry

/-- The tag of the type to make an instance of: the one that the object names, which has to be
assignable to the declared one, or else the declared one. -/
def concreteTag (r : Registry) (declared : String) (members : List (String × Json)) :
    Except ImportError String :=
  match Json.member? members Json.typeName with
  | none => .ok declared
  | some (.text concrete) =>
    if r.isAssignable concrete declared then .ok concrete
    else .error (.unrelatedType concrete declared)
  | some found => .error (.typeNotText found)

/-- A value of a field that is to be read from JSON. -/
abbrev FieldReader := Field → Except ImportError Value

/-- Stores what the readers of members read into an instance. The fields come in wire order, the
first of them with the given index. -/
def storeMembers (tag : String) (readers : List (String × FieldReader)) :
    Nat → List Field → Instance → Except ImportError Instance
  | _, [], i => .ok i
  | index, f :: fs, i =>
    match readers.find? (·.1 == f.name) with
    | none => storeMembers tag readers (index + 1) fs i
    | some (_, read) =>
      match read f with
      | .error cause => .error (.inField tag f.name cause)
      | .ok v =>
        match i.setField index v with
        | .error cause => .error (.inField tag f.name (.refused cause))
        | .ok i => storeMembers tag readers (index + 1) fs i

/-- The first name of a member, `$type` aside, that names no field. -/
def unknownMember? (d : Descriptor) (members : List (String × Json)) : Option String :=
  (members.find? fun m => m.1 != Json.typeName && (d.field? m.1).isNone).map Prod.fst

/-- The instance of an object whose members are read by readers. -/
def ofMembers (r : Registry) (declared : String) (members : List (String × Json))
    (readers : List (String × FieldReader)) : Except ImportError Instance := do
  let tag ← r.concreteTag declared members
  match r.lookup tag with
  | .error cause => throw (.unregistered cause)
  | .ok d =>
    match unknownMember? d members with
    | some name => throw (.unknownMember tag name)
    | none => storeMembers tag readers 0 d.fields d.prototype

mutual

/-- The value of a field. Null is left to the setter of the field. -/
def valueOfJson (r : Registry) : Json → Field → Except ImportError Value
  | .null, _ => .ok .null
  | .array items, ⟨_, kind, _⟩ =>
    match kind with
    | .list element => (r.itemsOfJson items element).map .list
    | .map key value => (r.entriesOfJson items key value).map .map
    | kind => Json.toLeaf kind (.array items)
  | .object members, ⟨_, kind, _⟩ =>
    match kind with
    | .nested declared => (r.ofMembers declared members (r.readersOfJson members)).map .nested
    | kind => Json.toLeaf kind (.object members)
  | j, ⟨_, kind, _⟩ => j.toLeaf kind
termination_by structural j => j

/-- The items of a list. -/
def itemsOfJson (r : Registry) : List Json → Field → Except ImportError (List Value)
  | [], _ => .ok []
  | j :: js, element => do
    let v ← r.valueOfJson j element
    return v :: (← r.itemsOfJson js element)
termination_by structural js => js

/-- The entries of a map. -/
def entriesOfJson (r : Registry) :
    List Json → Field → Field → Except ImportError (List (Value × Value))
  | [], _, _ => .ok []
  | .array [k, v] :: js, key, value => do
    let k ← r.valueOfJson k key
    let v ← r.valueOfJson v value
    return (k, v) :: (← r.entriesOfJson js key value)
  | j :: _, _, _ => .error (.notPair j)
termination_by structural js => js

/-- The members of an object as readers. -/
def readersOfJson (r : Registry) : List (String × Json) → List (String × FieldReader)
  | [] => []
  | (name, j) :: ms => (name, r.valueOfJson j) :: r.readersOfJson ms
termination_by structural ms => ms

end

/-- The instance of a JSON value where a type is declared. -/
def ofJson (r : Registry) (declared : String) : Json → Except ImportError Instance
  | .object members => r.ofMembers declared members (r.readersOfJson members)
  | _ => .error (.notObject declared)

end Registry

end TagWire
