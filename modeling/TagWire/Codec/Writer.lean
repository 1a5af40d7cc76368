import TagWire.Codec.Limits
import TagWire.Codec.Word

/-!
# Writing to the wire

The items that messages consist of: scalars, null, and blocks of bytes behind their length. A
`Write` appends such items to a buffer, or fails.
-/

namespace TagWire

namespace Wire

/-- The item that stands for null in the place of a length. -/
def null : List UInt8 := Word.bytes 4 nullLength.toNat

/-- A count in front of the items that it counts. -/
def count (n : Nat) : List UInt8 := Word.bytes 4 n

/-- Bytes behind their length. -/
def block (bytes : List UInt8) : List UInt8 := count bytes.length ++ bytes

/-- A text behind the length of its UTF-8 form. -/
def text (s : String) : List UInt8 := block (Text.Utf8.ofString s)

/-- The byte that says whether a nullable scalar follows. -/
def presence (present : Bool) : List UInt8 := [if present then 1 else 0]

end Wire

/-- A computation that appends to a buffer. -/
abbrev Write := EStateM CodecError (Array UInt8)

namespace Write

/-- Appends bytes. -/
def emit (bytes : List UInt8) : Write Unit := modify fun (buffer : Array UInt8) => buffer ++ bytes

/-- Goes on with a result, or fails with its error. -/
def ofExcept {α : Type} : Except CodecError α → Write α
  | .ok a => pure a
  | .error e => throw e

end Write

end TagWire
