import TagWire.Schema.Scalar
import TagWire.Codec.Error

/-!
# Words and scalars on the wire

Numbers of fixed width travel as their bytes, the lowest first. Every scalar is such a number: a
signed integer by its two's complement, a float by its bits, a character by its code point. Not
every number is a scalar of a kind: a boolean is zero or one, a character a Unicode scalar value.
-/

namespace TagWire

namespace Word

/-- The lowest `width` bytes of a number, the lowest first. -/
def bytes : Nat → Nat → List UInt8
  | 0, _ => []
  | width + 1, n => n.toUInt8 :: bytes width (n / 256)

/-- The number that bytes spell, the lowest first. -/
def ofBytes : List UInt8 → Nat
  | [] => 0
  | b :: bs => b.toNat + 256 * ofBytes bs

/-- How many numbers there are of so many bytes. -/
def bound : Nat → Nat
  | 0 => 1
  | width + 1 => 256 * bound width

/-- A word has its width. -/
@[simp] theorem length_bytes (width n : Nat) : (bytes width n).length = width := by
  induction width generalizing n with
  | zero => rfl
  | succ width ih => simp [bytes, ih]

/-- Bytes spell a number that fits into them. -/
theorem ofBytes_lt (bs : List UInt8) : ofBytes bs < bound bs.length := by
  induction bs with
  | nil => exact Nat.one_pos
  | cons b bs ih =>
    have hb : b.toNat < 256 := b.toNat_lt
    simp only [ofBytes, List.length_cons, bound]
    omega

/-- A number that fits reads back. -/
theorem ofBytes_bytes {width n : Nat} (h : n < bound width) : ofBytes (bytes width n) = n := by
  induction width generalizing n with
  | zero => simp only [bound] at h; simp only [bytes, ofBytes]; omega
  | succ width ih =>
    have hn : n / 256 < bound width := Nat.div_lt_of_lt_mul h
    have hb : n.toUInt8.toNat = n % 256 := by simp
    simp only [bytes, ofBytes, ih hn, hb]
    omega

/-- Bytes are the word of the number they spell. -/
theorem bytes_ofBytes (bs : List UInt8) : bytes bs.length (ofBytes bs) = bs := by
  induction bs with
  | nil => rfl
  | cons b bs ih =>
    have hb : b.toNat < 256 := b.toNat_lt
    have hlow : (b.toNat + 256 * ofBytes bs).toUInt8 = b := by
      apply UInt8.toNat_inj.mp
      simp only [Nat.toUInt8_eq, UInt8.toNat_ofNat']
      omega
    have hhigh : (b.toNat + 256 * ofBytes bs) / 256 = ofBytes bs := by omega
    simp only [ofBytes, List.length_cons, bytes, hlow, hhigh, ih]

end Word

namespace Scalar

/-- The number that a scalar travels as. -/
def toWord : Scalar → Nat
  | bool b => if b then 1 else 0
  | i8 n => n.toUInt8.toNat
  | i16 n => n.toUInt16.toNat
  | i32 n => n.toUInt32.toNat
  | i64 n => n.toUInt64.toNat
  | u8 n => n.toNat
  | u16 n => n.toNat
  | u32 n => n.toNat
  | u64 n => n.toNat
  | f32 x => x.bits.toNat
  | f64 x => x.bits.toNat
  | char c => c.toNat

/-- The bytes of a scalar. -/
def bytes (s : Scalar) : List UInt8 := Word.bytes s.kind.size s.toWord

end Scalar

/-- The scalar of a kind that travels as a number. -/
def ScalarKind.ofWord (k : ScalarKind) (n : Nat) : Except DataFault Scalar :=
  match k with
  | .bool =>
    if n = 0 then .ok (.bool false) else if n = 1 then .ok (.bool true)
    else .error (.boolByte n.toUInt8)
  | .i8 => .ok (.i8 n.toUInt8.toInt8)
  | .i16 => .ok (.i16 n.toUInt16.toInt16)
  | .i32 => .ok (.i32 n.toUInt32.toInt32)
  | .i64 => .ok (.i64 n.toUInt64.toInt64)
  | .u8 => .ok (.u8 n.toUInt8)
  | .u16 => .ok (.u16 n.toUInt16)
  | .u32 => .ok (.u32 n.toUInt32)
  | .u64 => .ok (.u64 n.toUInt64)
  | .f32 => .ok (.f32 ⟨n.toUInt32⟩)
  | .f64 => .ok (.f64 ⟨n.toUInt64⟩)
  | .char =>
    if n < 0xD800 ∨ 0xDFFF < n ∧ n < 0x110000 then .ok (.char (Char.ofNat n))
    else .error (.notScalarValue n.toUInt32)

end TagWire
