import TagWire.Text.Quoted
import TagWire.Text.Utf8

/-!
# Hexadecimal text

Bytes written as two lower-case digits each (`Hex.encode`). Reading (`Hex.decode`) takes digits of
either case and passes over ASCII blanks wherever they stand, also inside a pair of digits. It looks
at the bytes of the text, so a digit that is none is named by its byte.
-/

namespace TagWire.Text.Hex

/-- Why a text is not a string of hexadecimal digits. -/
inductive Fault where
  /-- So many digits, which do not pair up. -/
  | oddCount (count : Nat)
  /-- A byte that is no digit. -/
  | badDigit (byte : UInt8)
deriving DecidableEq, Repr

/-- The wording of a fault. A byte is shown as the character of the same number. -/
def Fault.message : Fault → String
  | .oddCount n => s!"odd number of hex digits ({n})"
  | .badDigit b => "invalid hex digit " ++ quoteChar (Char.ofNat b.toNat)

/-- The digit of a value below sixteen. -/
def digit (n : Nat) : Char := Char.ofNat (if n < 10 then 0x30 + n else 0x57 + n)

/-- The two digits of a byte. -/
def encodeByte (b : UInt8) : List Char := [digit (b.toNat / 16), digit (b.toNat % 16)]

/-- The digits of a byte string. -/
def encode (bytes : List UInt8) : String := String.ofList (bytes.flatMap encodeByte)

/-- The blanks of ASCII: space, tab, line feed, form feed and carriage return. -/
def isBlankByte (b : UInt8) : Bool := b == 0x20 || b == 0x09 || b == 0x0A || b == 0x0C || b == 0x0D

/-- The value of a digit. -/
def digitValue (b : UInt8) : Except Fault Nat :=
  if 0x30 ≤ b && b ≤ 0x39 then .ok (b.toNat - 0x30)
  else if 0x61 ≤ b && b ≤ 0x66 then .ok (b.toNat - 0x57)
  else if 0x41 ≤ b && b ≤ 0x46 then .ok (b.toNat - 0x37)
  else .error (.badDigit b)

/-- The bytes that pairs of digits spell. A last digit without a partner spells nothing. -/
def decodePairs : List UInt8 → Except Fault (List UInt8)
  | high :: low :: rest => do
    let h ← digitValue high
    let l ← digitValue low
    let bytes ← decodePairs rest
    return (16 * h + l).toUInt8 :: bytes
  | _ => .ok []

/-- The bytes that a text spells. The count is judged before the digits. -/
def decode (text : String) : Except Fault (List UInt8) :=
  let digits := (Utf8.ofString text).filter fun b => !isBlankByte b
  if digits.length % 2 == 0 then decodePairs digits else .error (.oddCount digits.length)

end TagWire.Text.Hex
