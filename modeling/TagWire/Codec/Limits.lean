import TagWire.Journal
import TagWire.Text.Blank

/-!
# Limits

The limits that encoder and decoder share: how deep a message may nest, and how long a text, a byte
string, a list or a map may be. A length on the wire has 32 bits, and the greatest of them stands
for null, so lengths end one below it. Limits can come from settings given as texts; a setting that
is no number is reported and leaves the default in place.
-/

namespace TagWire

/-- The length that stands for null. -/
def nullLength : UInt32 := 0xFFFFFFFF

/-- The greatest length on the wire. -/
def maxWireLength : UInt32 := 0xFFFFFFFE

/-- How deep a message may nest and how long its parts may be. -/
structure Limits where
  maxDepth : UInt64 := 64
  maxLength : UInt32 := 67108864
deriving DecidableEq, Repr

namespace Limits

/-- Sets the depth. -/
def withMaxDepth (l : Limits) (depth : UInt64) : Limits := { l with maxDepth := depth }

/-- Sets the length, at most the greatest one on the wire. -/
def withMaxLength (l : Limits) (length : UInt32) : Limits :=
  { l with maxLength := min length maxWireLength }

/-- Sets what is given. -/
def override (l : Limits) (depth? : Option UInt64) (length? : Option UInt32) : Limits :=
  let l := match depth? with
    | some depth => l.withMaxDepth depth
    | none => l
  match length? with
  | some length => l.withMaxLength length
  | none => l

end Limits

/-- The number below a bound that decimal digits spell, a plus sign before them allowed. -/
def parseNatural? (bound : Nat) (text : String) : Option Nat :=
  let digits := match text.toList with
    | '+' :: rest => rest
    | cs => cs
  if digits.isEmpty || !digits.all (fun c => '0' ≤ c && c ≤ '9') then none
  else
    let n := digits.foldl (fun n c => 10 * n + (c.toNat - 0x30)) 0
    if n < bound then some n else none

namespace Limits

/-- The setting that gives the depth. -/
def depthSetting : String := "DYNSERIAL_MAX_DEPTH"

/-- The setting that gives the length. -/
def lengthSetting : String := "DYNSERIAL_MAX_LENGTH"

/-- The number that a setting gives, and the event if it gives none. Blanks around it do not count.
-/
def ofSetting (name : String) (bound : Nat) (value? : Option String) : Option Nat × List Event :=
  match value? with
  | none => (none, [])
  | some value =>
    match parseNatural? bound (Text.trim value) with
    | some n => (some n, [])
    | none => (none, [.settingIgnored name value])

/-- The default limits with the given settings applied. -/
def ofSettings (depth? length? : Option String) : Limits × List Event :=
  let (depth, depthEvents) := ofSetting depthSetting UInt64.size depth?
  let (length, lengthEvents) := ofSetting lengthSetting UInt32.size length?
  (({} : Limits).override (depth.map UInt64.ofNat) (length.map UInt32.ofNat),
    depthEvents ++ lengthEvents)

end Limits

end TagWire
