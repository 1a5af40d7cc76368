import TagWire.Number.Binary
import TagWire.Number.Shortest

/-!
# Writing floats

A `Layout` holds the decisions of one written form of floats: which decimal exponents are written
positionally, and whether a positive exponent carries a sign. The digits are always those of the
shortest decimal, a whole number keeps a zero after its point, and a negative number, zero included,
starts with a minus sign.
-/

namespace TagWire.Number

/-- The decisions of a written form of floats. -/
structure Layout where
  /-- The least decimal exponent written positionally. -/
  least : Int
  /-- The first decimal exponent above those written positionally. -/
  bound : Int
  /-- Sign of a positive exponent. -/
  exponentSign : String

/-- The floats of JSON texts: `0.00001`, `100.0`, `1e+16`. -/
def Layout.json : Layout := ⟨-5, 16, "+"⟩

/-- The floats of values shown in messages: `0.0001`, `100.0`, `1e16`. -/
def Layout.shown : Layout := ⟨-4, 16, ""⟩

namespace Layout

/-- Digits written positionally, the first of them standing for `10 ^ exponent`. -/
def positional (digits : List Char) (exponent : Int) : String :=
  if exponent < 0 then
    "0." ++ String.ofList (List.replicate ((-exponent).toNat - 1) '0' ++ digits)
  else
    let whole := exponent.toNat + 1
    let padded := digits ++ List.replicate (whole - digits.length) '0'
    let fraction := padded.drop whole
    String.ofList (padded.take whole) ++ "." ++
      (if fraction.isEmpty then "0" else String.ofList fraction)

/-- Digits written with an exponent. -/
def scientific (l : Layout) (digits : List Char) (exponent : Int) : String :=
  let fraction := digits.drop 1
  String.ofList (digits.take 1) ++
    (if fraction.isEmpty then "" else "." ++ String.ofList fraction) ++
    "e" ++ (if 0 ≤ exponent then l.exponentSign else "-") ++ toString exponent.natAbs

/-- A finite float, given its sign and magnitude. -/
def write (l : Layout) (f : Format) (negative : Bool) (magnitude : Nat) : String :=
  let sign := if negative then "-" else ""
  if magnitude == 0 then sign ++ "0.0"
  else
    let d := f.shortest magnitude
    let digits := Nat.toDigits 10 d.digits
    let trimmed := (digits.reverse.dropWhile (· == '0')).reverse
    let exponent := d.exponent + digits.length - 1
    sign ++ if l.least ≤ exponent && exponent < l.bound then positional trimmed exponent
      else l.scientific trimmed exponent

end Layout

/-- The text of a float in a message, infinities and NaNs included. -/
def Format.shown (f : Format) (bits : Nat) : String :=
  let magnitude := bits % f.signWeight
  let negative := f.signWeight ≤ bits
  if magnitude < f.infinity then Layout.shown.write f negative magnitude
  else if magnitude == f.infinity then (if negative then "-inf" else "inf")
  else "NaN"

/-- The text of a finite float in JSON. -/
def Binary64.json (x : Binary64) : String :=
  Layout.json.write Format.double x.isNegative x.magnitude

end TagWire.Number
