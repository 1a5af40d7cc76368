import TagWire.Json.Error
import TagWire.Registry.Basic

/-!
# The JSON view of instances

An instance is viewed as an object: first its tag under `$type`, then its fields in wire order.
Bytes are viewed as hexadecimal text, characters and variants as text, maps as arrays of pairs, and
floats that are no numbers as null.
-/

namespace TagWire

/-- The name of the member that holds the tag of an instance. -/
def Json.typeName : String := "$type"

/-- The view of a float. -/
def Number.Binary64.toJson (x : Number.Binary64) : Json := if x.isFinite then .float x else .null

/-- The view of a scalar. -/
def Scalar.toJson : Scalar → Json
  | .bool b => .bool b
  | .i8 n => .int n.toInt
  | .i16 n => .int n.toInt
  | .i32 n => .int n.toInt
  | .i64 n => .int n.toInt
  | .u8 n => .int n.toNat
  | .u16 n => .int n.toNat
  | .u32 n => .int n.toNat
  | .u64 n => .int n.toNat
  | .f32 x => x.widen.toJson
  | .f64 x => x.toJson
  | .char c => .text (String.singleton c)

mutual

/-- The view of a value. -/
def Value.toJson (r : Registry) : Value → Except ExportError Json
  | .null => .ok .null
  | .scalar s => .ok s.toJson
  | .string s => .ok (.text s)
  | .bytes b => .ok (.text (Text.Hex.encode b))
  | .enum variant => .ok (.text variant)
  | .list items => (Value.itemsToJson r items).map .array
  | .map entries => (Value.entriesToJson r entries).map .array
  | .nested i => i.toJson r
termination_by v => (v.weight, 1)
decreasing_by all_goals simp only [Value.weight]; decreasing_tactic

/-- The view of an instance. -/
def Instance.toJson (r : Registry) (i : Instance) : Except ExportError Json :=
  match r.lookupInstance i with
  | .error cause => .error (.unregistered cause)
  | .ok d => do
    let members ← Value.fieldsToJson r d.tag d.fields i.values
    return .object (Json.putMembers [(Json.typeName, .text d.tag)] members)
termination_by (i.weight, 0)
decreasing_by exact Prod.Lex.left _ _ i.weight_values

/-- The views of the values of fields, under their names. -/
def Value.fieldsToJson (r : Registry) (tag : String) :
    List Field → List Value → Except ExportError (List (String × Json))
  | [], _ => .ok []
  | f :: _, [] => .error (.noValue tag f.name)
  | f :: fs, v :: vs => do
    let j ← v.toJson r
    return (f.name, j) :: (← Value.fieldsToJson r tag fs vs)
termination_by _ vs => (Value.listWeight vs, 0)
decreasing_by all_goals simp only [Value.listWeight]; apply Prod.Lex.left; omega

/-- The views of the items of a list. -/
def Value.itemsToJson (r : Registry) : List Value → Except ExportError (List Json)
  | [] => .ok []
  | v :: vs => do
    let j ← v.toJson r
    return j :: (← Value.itemsToJson r vs)
termination_by vs => (Value.listWeight vs, 0)
decreasing_by all_goals simp only [Value.listWeight]; apply Prod.Lex.left; omega

/-- The views of the entries of a map. -/
def Value.entriesToJson (r : Registry) : List (Value × Value) → Except ExportError (List Json)
  | [] => .ok []
  | (k, v) :: es => do
    let key ← k.toJson r
    let value ← v.toJson r
    return .array [key, value] :: (← Value.entriesToJson r es)
termination_by es => (Value.entriesWeight es, 0)
decreasing_by all_goals simp only [Value.entriesWeight]; apply Prod.Lex.left; omega

end

end TagWire
