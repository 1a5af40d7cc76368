import TagWire.Codec.Limits
import TagWire.Codec.Word

/-!
# Reading from the wire

A `Reader` stands at an offset of a message, in front of the bytes that are left. A `Read` moves it:
it answers, or fails with an error that names the offset at which the item started. A failing read
leaves the reader where it was if bytes are missing, and behind the item if its content is wrong.
-/

namespace TagWire

/-- A place in a message: the bytes read so far, counted, and those that are left. -/
structure Reader where
  offset : Nat
  rest : List UInt8
deriving DecidableEq, Repr

namespace Reader

/-- The reader in front of a whole message. -/
def start (message : List UInt8) : Reader := ⟨0, message⟩

/-- How many bytes are left. -/
def remaining (r : Reader) : Nat := r.rest.length

/-- Whether no bytes are left. -/
def isAtEnd (r : Reader) : Bool := r.rest.isEmpty

end Reader

/-- A computation that reads. Its state survives a failure. -/
abbrev Read := EStateM CodecError Reader

namespace Read

/-- The offset. -/
def offset : Read Nat := do return (← get).offset

/-- The next `n` bytes. -/
def bytes (n : Nat) : Read (List UInt8) := fun r =>
  let taken := r.rest.take n
  if taken.length = n then .ok taken ⟨r.offset + n, r.rest.drop n⟩
  else .error (.truncated r.offset n taken.length) r

/-- A number of `width` bytes. -/
def word (width : Nat) : Read Nat := do return Word.ofBytes (← bytes width)

/-- A scalar of a kind. -/
def scalar (k : ScalarKind) : Read Scalar := do
  let start ← offset
  match k.ofWord (← word k.size) with
  | .ok s => return s
  | .error fault => throw (.invalidData start fault)

/-- A length up to a limit, or `none` for null. -/
def length (limit : UInt32) : Read (Option Nat) := do
  let start ← offset
  let n ← word 4
  if n = nullLength.toNat then return none
  else if limit.toNat < n then throw (.malformedLength start n limit.toNat)
  else return some n

/-- A text of `n` bytes. -/
def text (n : Nat) : Read String := do
  let start ← offset
  match Text.Utf8.toString? (← bytes n) with
  | .ok s => return s
  | .error fault => throw (.invalidData start (.invalidText fault))

end Read

end TagWire
