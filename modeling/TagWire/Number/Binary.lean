import TagWire.Number.Format

/-!
# Floats of 32 and 64 bits

`Binary32` and `Binary64` are floats given by their bits, so that two of them are equal in the logic
exactly when they are the same bit pattern: NaNs keep their payload and the two zeros differ. The
comparison of the number format, in which no NaN equals anything and the zeros are equal, is
`alike`. Widening is exact on numbers, narrowing rounds to nearest.
-/

namespace TagWire.Number

/-- A float of 32 bits. -/
structure Binary32 where
  bits : UInt32
deriving DecidableEq, Repr

/-- A float of 64 bits. -/
structure Binary64 where
  bits : UInt64
deriving DecidableEq, Repr

/-- Whether two bit patterns of a format compare as equal numbers. -/
def Format.alike (f : Format) (a b : Nat) : Bool :=
  let m := a % f.signWeight
  let n := b % f.signWeight
  m ≤ f.infinity && n ≤ f.infinity && (a == b || (m == 0 && n == 0))

namespace Binary32

/-- Positive zero. -/
def zero : Binary32 := ⟨0⟩

/-- The bits without the sign. -/
def magnitude (x : Binary32) : Nat := x.bits.toNat % Format.single.signWeight

/-- Whether the sign bit is set. -/
def isNegative (x : Binary32) : Bool := Format.single.signWeight ≤ x.bits.toNat

/-- Whether two floats compare as equal numbers. -/
def alike (x y : Binary32) : Bool := Format.single.alike x.bits.toNat y.bits.toNat

end Binary32

namespace Binary64

/-- Positive zero. -/
def zero : Binary64 := ⟨0⟩

/-- The bits without the sign. -/
def magnitude (x : Binary64) : Nat := x.bits.toNat % Format.double.signWeight

/-- Whether the sign bit is set. -/
def isNegative (x : Binary64) : Bool := Format.double.signWeight ≤ x.bits.toNat

/-- Whether the float is a number: neither infinite nor a NaN. -/
def isFinite (x : Binary64) : Bool := x.magnitude < Format.double.infinity

/-- Whether two floats compare as equal numbers. -/
def alike (x y : Binary64) : Bool := Format.double.alike x.bits.toNat y.bits.toNat

/-- The float with the given sign and magnitude. -/
def ofMagnitude (negative : Bool) (magnitude : Nat) : Binary64 :=
  ⟨UInt64.ofNat (if negative then Format.double.signWeight + magnitude else magnitude)⟩

/-- The float nearest to an integer. -/
def ofInt (n : Int) : Binary64 := ofMagnitude (n < 0) (Format.double.round n.natAbs 1)

end Binary64

/-- The same number in 64 bits. A NaN keeps the leading bits of its payload. -/
def Binary32.widen (x : Binary32) : Binary64 :=
  let m := x.magnitude
  .ofMagnitude x.isNegative <|
    if m < Format.single.infinity then
      let (num, den) := (Format.single.decode m).quotient
      Format.double.round num den
    else Format.double.infinity + (m - Format.single.infinity) * Nat.pow 2 29

/-- The float of 32 bits nearest to a number, infinity where it is too large. A NaN keeps the
leading bits of its payload. -/
def Binary64.narrow (x : Binary64) : Binary32 :=
  let m := x.magnitude
  let magnitude :=
    if m < Format.double.infinity then
      let (num, den) := (Format.double.decode m).quotient
      Format.single.round num den
    else Format.single.infinity + (m - Format.double.infinity) / Nat.pow 2 29
  ⟨UInt32.ofNat (if x.isNegative then Format.single.signWeight + magnitude else magnitude)⟩

end TagWire.Number
