/-!
# Binary floating-point formats

A float is kept as its bits. A `Format` gives the widths of the fraction and of the exponent, and
the functions here work on the bits without the sign, the *magnitude*: `Format.decode` reads a
finite magnitude as a significand times a power of two, `Format.round` takes the quotient of two
naturals to the nearest magnitude, a tie to the even one. All arithmetic is exact on naturals, so
nothing here depends on a machine's floating-point unit.
-/

namespace TagWire.Number

/-- Widths of the fraction and of the exponent of a binary format. -/
structure Format where
  fractionBits : Nat
  exponentBits : Nat
deriving DecidableEq, Repr

namespace Format

/-- The format of 32 bits. -/
def single : Format := ⟨23, 8⟩

/-- The format of 64 bits. -/
def double : Format := ⟨52, 11⟩

/-- The weight of the sign bit: magnitudes are the numbers below it. -/
def signWeight (f : Format) : Nat := Nat.pow 2 (f.fractionBits + f.exponentBits)

/-- The magnitude of infinity. Magnitudes above it are those of NaNs. -/
def infinity (f : Format) : Nat := (Nat.pow 2 f.exponentBits - 1) * Nat.pow 2 f.fractionBits

/-- The power of two that the least significand bit of the smallest magnitudes stands for. -/
def leastExponent (f : Format) : Int :=
  2 - (Nat.pow 2 (f.exponentBits - 1) : Int) - f.fractionBits

end Format

/-- The number `significand · 2 ^ exponent`. -/
structure Scaled where
  significand : Nat
  exponent : Int
deriving DecidableEq, Repr

/-- Numerator and denominator of a scaled number. -/
def Scaled.quotient (s : Scaled) : Nat × Nat :=
  if 0 ≤ s.exponent then (s.significand * Nat.pow 2 s.exponent.toNat, 1)
  else (s.significand, Nat.pow 2 (-s.exponent).toNat)

namespace Format

/-- The number that a finite magnitude stands for. -/
def decode (f : Format) (magnitude : Nat) : Scaled :=
  let fraction := magnitude % Nat.pow 2 f.fractionBits
  match magnitude / Nat.pow 2 f.fractionBits with
  | 0 => ⟨fraction, f.leastExponent⟩
  | e + 1 => ⟨Nat.pow 2 f.fractionBits + fraction, f.leastExponent + e⟩

end Format

/-- The natural nearest to `num / den`; of two equally near ones the even one. -/
def divideToEven (num den : Nat) : Nat :=
  let whole := num / den
  let twice := 2 * (num % den)
  if den < twice || (twice == den && whole % 2 == 1) then whole + 1 else whole

/-- The greatest `e` with `2 ^ e ≤ num / den`, for positive `num` and `den`. -/
def binaryExponent (num den : Nat) : Int :=
  let guess : Int := (Nat.log2 num : Int) - Nat.log2 den
  let reached :=
    if 0 ≤ guess then den * Nat.pow 2 guess.toNat ≤ num else den ≤ num * Nat.pow 2 (-guess).toNat
  if reached then guess else guess - 1

namespace Format

/-- The magnitude nearest to `num / den`, a tie going to the even one. What is too large becomes
infinity. -/
def round (f : Format) (num den : Nat) : Nat :=
  if num == 0 then 0
  else
    let e := max (binaryExponent num den - f.fractionBits) f.leastExponent
    let significand :=
      if 0 ≤ e then divideToEven num (den * Nat.pow 2 e.toNat)
      else divideToEven (num * Nat.pow 2 (-e).toNat) den
    min ((e - f.leastExponent).toNat * Nat.pow 2 f.fractionBits + significand) f.infinity

/-- The magnitude of a product of finite magnitudes. -/
def multiply (f : Format) (a b : Nat) : Nat :=
  let (n₁, d₁) := (f.decode a).quotient
  let (n₂, d₂) := (f.decode b).quotient
  f.round (n₁ * n₂) (d₁ * d₂)

/-- The magnitude of a quotient of finite magnitudes, the divisor positive. -/
def divide (f : Format) (a b : Nat) : Nat :=
  let (n₁, d₁) := (f.decode a).quotient
  let (n₂, d₂) := (f.decode b).quotient
  f.round (n₁ * d₂) (d₁ * n₂)

end Format

end TagWire.Number
