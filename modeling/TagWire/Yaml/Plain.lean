import TagWire.Number.Format

/-!
# Plain texts

A YAML text without quotes may mean something else than its characters: nothing, a truth value or a
number. What has leading zeros is no number.
-/

namespace TagWire.Yaml.Plain

/-- Whether a text means nothing. The empty text is left to where it stands. -/
def isNull (s : String) : Bool := ["~", "null", "Null", "NULL"].contains s

/-- The truth value that a text means. -/
def toBool? (s : String) : Option Bool :=
  if ["true", "True", "TRUE"].contains s then some true
  else if ["false", "False", "FALSE"].contains s then some false
  else none

/-- Whether a character is an ASCII digit. -/
def isDigit (c : Char) : Bool := '0' ≤ c && c ≤ '9'

/-- The value of a digit in a base up to sixteen. -/
def digit? (base : Nat) (c : Char) : Option Nat :=
  let n? :=
    if isDigit c then some (c.toNat - 0x30)
    else if 'a' ≤ c && c ≤ 'f' then some (c.toNat - 0x57)
    else if 'A' ≤ c && c ≤ 'F' then some (c.toNat - 0x37)
    else none
  n?.filter (· < base)

/-- The number that digits spell in a base. -/
def number? (base : Nat) : List Char → Option Nat
  | [] => none
  | cs => cs.foldlM (fun n c => do return base * n + (← digit? base c)) 0

/-- Whether some characters are several digits that start with a zero. -/
def hasLeadingZero : List Char → Bool
  | '0' :: c :: cs => (c :: cs).all isDigit
  | _ => false

/-- The number that characters without a sign spell, a base allowed in front. -/
def magnitude? (cs : List Char) : Option Nat :=
  match cs with
  | '0' :: 'x' :: digits => number? 16 digits
  | '0' :: 'o' :: digits => number? 8 digits
  | '0' :: 'b' :: digits => number? 2 digits
  | cs => if hasLeadingZero cs then none else number? 10 cs

/-- The natural number below a bound that a text means. -/
def toNatural? (bound : Nat) (s : String) : Option Nat :=
  let n? := match s.toList with
    | '+' :: cs => magnitude? cs
    | cs => magnitude? cs
  n?.filter (· < bound)

/-- Whether a text means an integer of at most 128 bits. -/
def isInteger (s : String) : Bool :=
  match s.toList with
  | '-' :: cs => (magnitude? cs).any (· ≤ Nat.pow 2 127)
  | _ => (toNatural? (Nat.pow 2 128) s).isSome

/-- The exponent that characters spell, if they do. -/
def exponent? : List Char → Option Int
  | '-' :: cs => (number? 10 cs).map fun n => -(n : Int)
  | '+' :: cs => (number? 10 cs).map Int.ofNat
  | cs => (number? 10 cs).map Int.ofNat

/-- Digits and exponent of a decimal without a sign. It needs a digit before or behind its point. -/
def decimal? (cs : List Char) : Option (List Char × Int) := do
  let whole := cs.takeWhile isDigit
  let cs := cs.dropWhile isDigit
  let (fraction, cs) := match cs with
    | '.' :: cs => (cs.takeWhile isDigit, cs.dropWhile isDigit)
    | cs => ([], cs)
  guard !(whole ++ fraction).isEmpty
  let exponent ← match cs with
    | [] => some 0
    | c :: cs => if c == 'e' || c == 'E' then exponent? cs else none
  return (whole ++ fraction, exponent - fraction.length)

/-- Whether a decimal lies below the numbers that round to infinity in 64 bits. Far from the border
the number of digits decides. -/
def isFinite (digits : List Char) (exponent : Int) : Bool :=
  let digits := digits.dropWhile (· == '0')
  let size := digits.length + exponent
  if digits.isEmpty || size < 300 then true
  else if 320 < size then false
  else
    match number? 10 digits with
    | none => false
    | some n =>
      let (num, den) :=
        if 0 ≤ exponent then (n * Nat.pow 10 exponent.toNat, 1)
        else (n, Nat.pow 10 (-exponent).toNat)
      Number.Format.double.round num den < Number.Format.double.infinity

/-- Whether a text means a float. A decimal too large for a float is none. -/
def isFloat (s : String) : Bool :=
  let named := [".inf", ".Inf", ".INF", "+.inf", "+.Inf", "+.INF", "-.inf", "-.Inf", "-.INF",
    ".nan", ".NaN", ".NAN"]
  let unsigned := match s.toList with
    | '+' :: cs => cs
    | '-' :: cs => cs
    | cs => cs
  named.contains s ||
    (!hasLeadingZero unsigned && (decimal? unsigned).any fun (ds, e) => isFinite ds e)

/-- Whether a text means its characters. -/
def isText (s : String) : Bool :=
  s != "" && !isNull s && (toBool? s).isNone && !isInteger s && !isFloat s

end TagWire.Yaml.Plain
