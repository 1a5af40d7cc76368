import TagWire.Number.Format

/-!
# Shortest decimals

The shortest decimal that reads back as a float: of all decimals that round to it those with the
fewest digits, and of these the nearest to it. `Format.shortest` finds it by trying one digit, two
digits and so on; on each grid only the two neighbours of the number can be the answer, because the
decimals that round to it form an interval around it.
-/

namespace TagWire.Number

/-- The number `digits · 10 ^ exponent`. -/
structure Decimal where
  digits : Nat
  exponent : Int
deriving DecidableEq, Repr

/-- How many decimal digits a natural has, none for zero. -/
def digitCount (n : Nat) : Nat := if n == 0 then 0 else (Nat.toDigits 10 n).length

/-- The greatest `e` with `10 ^ e ≤ num / den`, for positive `num` and `den`. -/
def decimalExponent (num den : Nat) : Int :=
  if den ≤ num then (digitCount (num / den) : Int) - 1
  else -(digitCount ((den + num - 1) / num - 1) : Int)

/-- The decimals that round to a float, scaled by a common denominator: the float itself and the two
ends, which belong to it when `closed`. -/
structure Rounding where
  value : Nat
  least : Nat
  greatest : Nat
  den : Nat
  closed : Bool

/-- The decimals that round to a positive finite magnitude. Below a power of two the neighbours are
half as far apart as above it. -/
def Format.rounding (f : Format) (magnitude : Nat) : Rounding :=
  let s := f.decode magnitude
  let narrow := s.significand == Nat.pow 2 f.fractionBits && f.leastExponent < s.exponent
  let scale := if 2 ≤ s.exponent then Nat.pow 2 (s.exponent - 2).toNat else 1
  { value := 4 * s.significand * scale
    least := (4 * s.significand - if narrow then 1 else 2) * scale
    greatest := (4 * s.significand + 2) * scale
    den := if 2 ≤ s.exponent then 1 else Nat.pow 2 (2 - s.exponent).toNat
    closed := s.significand % 2 == 0 }

/-- Whether the number `point / (10 ^ shift · den)` rounds to the float. -/
def Rounding.admits (r : Rounding) (point unit : Nat) : Bool :=
  let least := r.least * unit
  let greatest := r.greatest * unit
  if r.closed then least ≤ point && point ≤ greatest else least < point && point < greatest

/-- The grid point that the float is written as on the grid of the given exponent, if one of its two
neighbours there rounds to it. -/
def Rounding.onGrid? (r : Rounding) (exponent : Int) : Option Decimal :=
  let unit := Nat.pow 10 (-exponent).toNat
  let step := r.den * Nat.pow 10 exponent.toNat
  let value := r.value * unit
  let below := value / step
  let hitBelow := 0 < below && r.admits (below * step) unit
  let hitAbove := r.admits ((below + 1) * step) unit
  if hitBelow && hitAbove then
    let twice := 2 * (value - below * step)
    let up := step < twice || (twice == step && below % 2 == 1)
    some ⟨if up then below + 1 else below, exponent⟩
  else if hitBelow then some ⟨below, exponent⟩
  else if hitAbove then some ⟨below + 1, exponent⟩
  else none

/-- Tries the grids from `exponent` on downwards. -/
def Rounding.search (r : Rounding) : Nat → Int → Decimal
  | 0, exponent =>
    ⟨r.value * Nat.pow 10 (-exponent).toNat / (r.den * Nat.pow 10 exponent.toNat), exponent⟩
  | grids + 1, exponent =>
    match r.onGrid? exponent with
    | some d => d
    | none => r.search grids (exponent - 1)

/-- The shortest decimal that reads back as a positive finite magnitude. Seventeen digits always
suffice. -/
def Format.shortest (f : Format) (magnitude : Nat) : Decimal :=
  let r := f.rounding magnitude
  r.search 17 (decimalExponent r.value r.den)

end TagWire.Number
