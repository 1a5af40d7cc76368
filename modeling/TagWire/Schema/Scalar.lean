import TagWire.Number.Binary

/-!
# Scalars

The values of fixed width: booleans, integers, floats and characters. `ScalarKind` is what a field
declares, `Scalar` what it holds; a scalar knows its kind, so a field accepts exactly the scalars of
the kind it declares.
-/

namespace TagWire

open Number (Binary32 Binary64)

/-- A kind of fixed width. -/
inductive ScalarKind where
  | bool | i8 | i16 | i32 | i64 | u8 | u16 | u32 | u64 | f32 | f64 | char
deriving DecidableEq, Repr

namespace ScalarKind

/-- Every kind. -/
def all : List ScalarKind := [bool, i8, i16, i32, i64, u8, u16, u32, u64, f32, f64, char]

/-- The name of a kind, in messages and in catalogs. -/
def name : ScalarKind → String
  | bool => "bool"
  | i8 => "i8"
  | i16 => "i16"
  | i32 => "i32"
  | i64 => "i64"
  | u8 => "u8"
  | u16 => "u16"
  | u32 => "u32"
  | u64 => "u64"
  | f32 => "f32"
  | f64 => "f64"
  | char => "char"

/-- The kind of a name. -/
def ofName? (name : String) : Option ScalarKind := all.find? (·.name == name)

/-- The bytes that a scalar of a kind takes on the wire. A character travels as a 32-bit number. -/
def size : ScalarKind → Nat
  | bool | i8 | u8 => 1
  | i16 | u16 => 2
  | i32 | u32 | f32 | char => 4
  | i64 | u64 | f64 => 8

/-- Every kind is listed. -/
theorem mem_all (k : ScalarKind) : k ∈ all := by cases k <;> decide

/-- A kind is found under its name. -/
theorem ofName?_name (k : ScalarKind) : ofName? k.name = some k := by cases k <;> decide

end ScalarKind

/-- A value of fixed width. Floats are bit patterns. -/
inductive Scalar where
  | bool (b : Bool)
  | i8 (n : Int8)
  | i16 (n : Int16)
  | i32 (n : Int32)
  | i64 (n : Int64)
  | u8 (n : UInt8)
  | u16 (n : UInt16)
  | u32 (n : UInt32)
  | u64 (n : UInt64)
  | f32 (x : Binary32)
  | f64 (x : Binary64)
  | char (c : Char)
deriving DecidableEq

namespace Scalar

/-- The kind of a scalar. -/
def kind : Scalar → ScalarKind
  | bool _ => .bool
  | i8 _ => .i8
  | i16 _ => .i16
  | i32 _ => .i32
  | i64 _ => .i64
  | u8 _ => .u8
  | u16 _ => .u16
  | u32 _ => .u32
  | u64 _ => .u64
  | f32 _ => .f32
  | f64 _ => .f64
  | char _ => .char

/-- Whether two scalars compare as equal: floats as numbers, all else as it is. -/
def alike : Scalar → Scalar → Bool
  | f32 x, f32 y => x.alike y
  | f64 x, f64 y => x.alike y
  | a, b => a == b

end Scalar

/-- The scalar that a fresh field of a kind holds. -/
def ScalarKind.zero : ScalarKind → Scalar
  | .bool => .bool false
  | .i8 => .i8 0
  | .i16 => .i16 0
  | .i32 => .i32 0
  | .i64 => .i64 0
  | .u8 => .u8 0
  | .u16 => .u16 0
  | .u32 => .u32 0
  | .u64 => .u64 0
  | .f32 => .f32 .zero
  | .f64 => .f64 .zero
  | .char => .char '\x00'

/-- A fresh field accepts what it holds. -/
@[simp] theorem ScalarKind.kind_zero (k : ScalarKind) : k.zero.kind = k := by cases k <;> rfl

end TagWire
