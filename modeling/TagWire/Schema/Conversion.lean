import TagWire.Schema.Expect

/-!
# Conversions

A `Target` names a type of ordinary data, built from scalars, texts, values, instances and the
localization enumerations by options, lists and maps. `Target.ofValue` takes a field value to data
of that type, `Target.toValue` takes it back. Maps are kept by ascending keys, and of two entries
with equal keys the later one counts.
-/

namespace TagWire

open TagWire.Localization (Choice Tree)
open Number (Binary32 Binary64)

/-- The data of a scalar kind. -/
abbrev ScalarKind.Carrier : ScalarKind → Type
  | .bool => Bool
  | .i8 => Int8
  | .i16 => Int16
  | .i32 => Int32
  | .i64 => Int64
  | .u8 => UInt8
  | .u16 => UInt16
  | .u32 => UInt32
  | .u64 => UInt64
  | .f32 => Binary32
  | .f64 => Binary64
  | .char => Char

namespace ScalarKind

/-- Data as a scalar. -/
def toScalar : (k : ScalarKind) → k.Carrier → Scalar
  | .bool, b => .bool b
  | .i8, n => .i8 n
  | .i16, n => .i16 n
  | .i32, n => .i32 n
  | .i64, n => .i64 n
  | .u8, n => .u8 n
  | .u16, n => .u16 n
  | .u32, n => .u32 n
  | .u64, n => .u64 n
  | .f32, x => .f32 x
  | .f64, x => .f64 x
  | .char, c => .char c

/-- The data of a scalar of the expected kind. -/
def ofScalar? : (k : ScalarKind) → Scalar → Option k.Carrier
  | .bool, .bool b => some b
  | .i8, .i8 n => some n
  | .i16, .i16 n => some n
  | .i32, .i32 n => some n
  | .i64, .i64 n => some n
  | .u8, .u8 n => some n
  | .u16, .u16 n => some n
  | .u32, .u32 n => some n
  | .u64, .u64 n => some n
  | .f32, .f32 x => some x
  | .f64, .f64 x => some x
  | .char, .char c => some c
  | _, _ => none

/-- The order of data. Floats stand in the order of their bits. -/
def compare : (k : ScalarKind) → k.Carrier → k.Carrier → Ordering
  | .bool, a, b => Ord.compare a.toNat b.toNat
  | .i8, a, b => Ord.compare a.toInt b.toInt
  | .i16, a, b => Ord.compare a.toInt b.toInt
  | .i32, a, b => Ord.compare a.toInt b.toInt
  | .i64, a, b => Ord.compare a.toInt b.toInt
  | .u8, a, b => Ord.compare a.toNat b.toNat
  | .u16, a, b => Ord.compare a.toNat b.toNat
  | .u32, a, b => Ord.compare a.toNat b.toNat
  | .u64, a, b => Ord.compare a.toNat b.toNat
  | .f32, a, b => Ord.compare a.bits.toNat b.bits.toNat
  | .f64, a, b => Ord.compare a.bits.toNat b.bits.toNat
  | .char, a, b => Ord.compare a.toNat b.toNat

end ScalarKind

/-- A type of ordinary data. -/
inductive Target where
  | scalar (kind : ScalarKind)
  | string
  | value
  | nested
  | tree
  | level
  | option (t : Target)
  | list (t : Target)
  | map (key value : Target)
deriving DecidableEq, Repr

namespace Target

/-- The data of a target. -/
abbrev Carrier : Target → Type
  | scalar k => k.Carrier
  | string => String
  | value => Value
  | nested => Instance
  | tree => Localization.Tree
  | level => Localization.Level
  | option t => Option t.Carrier
  | list t => List t.Carrier
  | map k v => List (k.Carrier × v.Carrier)

/-- Whether the data of a target have an order of their own, so that they can be keys of a map. -/
def isOrdered : Target → Bool
  | scalar .f32 | scalar .f64 => false
  | scalar _ | string => true
  | option t | list t => t.isOrdered
  | map k v => k.isOrdered && v.isOrdered
  | value | nested | tree | level => false

/-- The lexicographic order of lists. -/
def compareLists {α : Type} (compare : α → α → Ordering) : List α → List α → Ordering
  | [], [] => .eq
  | [], _ :: _ => .lt
  | _ :: _, [] => .gt
  | a :: as, b :: bs => (compare a b).then (compareLists compare as bs)

/-- The order of texts by code points, which is also that of their UTF-8 bytes. -/
def compareTexts (s t : String) : Ordering :=
  compareLists (fun (a b : Char) => Ord.compare a.toNat b.toNat) s.toList t.toList

/-- The order of the data of a target. What has no order of its own is left as it comes. -/
def compare : (t : Target) → t.Carrier → t.Carrier → Ordering
  | scalar k, a, b => k.compare a b
  | string, a, b => compareTexts a b
  | option _, none, none => .eq
  | option _, none, some _ => .lt
  | option _, some _, none => .gt
  | option t, some a, some b => t.compare a b
  | list t, as, bs => compareLists t.compare as bs
  | map k v, as, bs =>
    compareLists (fun (a, x) (b, y) => (k.compare a b).then (v.compare x y)) as bs
  | value, _, _ | nested, _, _ | tree, _, _ | level, _, _ => .eq

/-- Puts an entry into a map kept by ascending keys, in the place of one with an equal key. -/
def insertEntry {κ α : Type} (compare : κ → κ → Ordering) (key : κ) (a : α) :
    List (κ × α) → List (κ × α)
  | [] => [(key, a)]
  | (k, b) :: rest =>
    match compare key k with
    | .lt => (key, a) :: (k, b) :: rest
    | .eq => (key, a) :: rest
    | .gt => (k, b) :: insertEntry compare key a rest

/-- The map of some entries, the later ones counting. -/
def sortEntries {κ α : Type} (compare : κ → κ → Ordering) (entries : List (κ × α)) : List (κ × α) :=
  entries.foldl (fun sorted (k, a) => insertEntry compare k a sorted) []

/-- Converts every element up to the first that fails. -/
def convertAll {α β : Type} (convert : α → Except FieldError β) :
    List α → Except FieldError (List β)
  | [] => .ok []
  | a :: as => do
    let b ← convert a
    return b :: (← convertAll convert as)

/-- Takes a field value to data of a target. -/
def ofValue : (t : Target) → Value → Except FieldError t.Carrier
  | scalar k, v =>
    match v with
    | .scalar s =>
      match k.ofScalar? s with
      | some a => .ok a
      | none => .error (v.mismatch k.name)
    | v => .error (v.mismatch k.name)
  | string, v => v.toText
  | value, v => .ok v
  | nested, v => v.toInstance
  | tree, v => v.toChoice Localization.Tree
  | level, v => v.toChoice Localization.Level
  | option t, v => Value.optional t.ofValue v
  | list t, v =>
    match v with
    | .list items => convertAll t.ofValue items
    | v => .error (v.mismatch "list")
  | map k w, v =>
    match v with
    | .map entries => do
      let convert := fun (entry : Value × Value) => do
        return (← k.ofValue entry.1, ← w.ofValue entry.2)
      return sortEntries k.compare (← convertAll convert entries)
    | v => .error (v.mismatch "map")

/-- Takes data of a target to a field value. -/
def toValue : (t : Target) → t.Carrier → Value
  | scalar k, a => .scalar (k.toScalar a)
  | string, s => .string s
  | value, v => v
  | nested, i => .nested i
  | tree, t => .enum (Choice.wireName t)
  | level, l => .enum (Choice.wireName l)
  | option t, a =>
    match a with
    | none => .null
    | some a => t.toValue a
  | list t, as => .list (as.map t.toValue)
  | map k v, es => .map (es.map fun (a, b) => (k.toValue a, v.toValue b))

/-- A field value taken to data of a target and back. -/
def convert (t : Target) (v : Value) : Except FieldError Value := (t.ofValue v).map t.toValue

end Target

end TagWire
