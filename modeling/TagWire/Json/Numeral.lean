import TagWire.Json.Basic

/-!
# Numbers in JSON text

A `Numeral` is a number as it is spelled. Its value, `Numeral.toJson?`, is an integer where the text
has neither point nor exponent and 64 bits hold it, and a float otherwise. Floats are computed from
the digits that fit into 64 bits: they give one float, which is multiplied or divided by a power of
ten. So the last bit is not always that of the nearest float, and the text that `Binary64.json`
writes need not read back as the same bits.
-/

namespace TagWire.Json

open Number (Binary64 Format)

/-- A number as it is spelled. -/
structure Numeral where
  negative : Bool
  whole : List Nat
  /-- The digits behind the point, none if there is no point. -/
  fraction : List Nat
  exponent? : Option Int
deriving DecidableEq, Repr

namespace Numeral

/-- Whether a character is an ASCII digit. -/
def isDigit (c : Char) : Bool := '0' ≤ c && c ≤ '9'

/-- The digits at the front of some characters, and what follows them. -/
def takeDigits (cs : List Char) : List Nat × List Char :=
  ((cs.takeWhile isDigit).map fun c => c.toNat - 0x30, cs.dropWhile isDigit)

/-- The number that digits spell. -/
def number (digits : List Nat) : Nat := digits.foldl (fun n d => 10 * n + d) 0

/-- The exponent that some characters spell, a sign allowed. -/
def exponentOfChars? (cs : List Char) : Option Int :=
  let (negative, cs) := match cs with
    | '-' :: cs => (true, cs)
    | '+' :: cs => (false, cs)
    | cs => (false, cs)
  match takeDigits cs with
  | ([], _) => none
  | (digits, []) => some (if negative then -(number digits : Int) else number digits)
  | _ => none

/-- Whether digits spell a number without leading zeros. -/
def isPlain : List Nat → Bool
  | [] => false
  | [_] => true
  | d :: _ => d != 0

/-- The numeral that some characters spell. -/
def ofChars? (cs : List Char) : Option Numeral := do
  let (negative, cs) := match cs with
    | '-' :: cs => (true, cs)
    | cs => (false, cs)
  let (whole, cs) := takeDigits cs
  guard (isPlain whole)
  let (fraction, cs) ← match cs with
    | '.' :: cs =>
      match takeDigits cs with
      | ([], _) => none
      | found => some found
    | cs => some ([], cs)
  match cs with
  | [] => some ⟨negative, whole, fraction, none⟩
  | c :: cs =>
    guard (c == 'e' || c == 'E')
    return ⟨negative, whole, fraction, some (← exponentOfChars? cs)⟩

/-- Takes digits onto a significand as long as 64 bits hold it: the significand and the digits that
are left. -/
def accumulate : Nat → List Nat → Nat × List Nat
  | s, [] => (s, [])
  | s, d :: ds => if 10 * s + d < UInt64.size then accumulate (10 * s + d) ds else (s, d :: ds)

/-- The magnitude of a power of ten. -/
def powerOfTen (exponent : Nat) : Nat := Format.double.round (Nat.pow 10 exponent) 1

/-- A magnitude divided by a power of ten, the greatest float power of ten at a time. -/
def divideByPower (magnitude exponent : Nat) : Nat :=
  if exponent ≤ 308 then Format.double.divide magnitude (powerOfTen exponent)
  else if magnitude = 0 then 0
  else divideByPower (Format.double.divide magnitude (powerOfTen 308)) (exponent - 308)
termination_by exponent

/-- The magnitude of `significand · 10 ^ exponent`, or `none` if it is too large. -/
def magnitude? (significand : Nat) (exponent : Int) : Option Nat :=
  let m := Format.double.round significand 1
  if exponent < 0 then some (divideByPower m (-exponent).toNat)
  else if 308 < exponent then if m = 0 then some 0 else none
  else
    let product := Format.double.multiply m (powerOfTen exponent.toNat)
    if product < Format.double.infinity then some product else none

/-- The magnitude of a float numeral, or `none` if it is too large. An exponent that 32 bits do not
hold is as good as an infinite one. -/
def floatMagnitude? (n : Numeral) : Option Nat :=
  let (s, wholeLeft) := accumulate 0 n.whole
  let (s, fractionLeft) := accumulate s n.fraction
  let shift : Int := wholeLeft.length - (n.fraction.length - fractionLeft.length : Nat)
  match n.exponent? with
  | none => magnitude? s shift
  | some e =>
    if e.natAbs < Nat.pow 2 31 then magnitude? s (shift + e)
    else if e < 0 ∨ s = 0 then some 0
    else none

/-- The integer of a numeral without point and exponent, if 64 bits hold it. Negative zero is no
integer. -/
def integer? (n : Numeral) : Option Int :=
  if n.fraction.isEmpty && n.exponent?.isNone then
    let m := number n.whole
    if n.negative then if 0 < m ∧ m ≤ Nat.pow 2 63 then some (-m) else none
    else if m < UInt64.size then some m else none
  else none

/-- The value of a numeral, or `none` if it is too large for a float. -/
def toJson? (n : Numeral) : Option Json :=
  match n.integer? with
  | some i => some (.int i)
  | none => n.floatMagnitude?.map fun m => .float (.ofMagnitude n.negative m)

end Numeral

end TagWire.Json
