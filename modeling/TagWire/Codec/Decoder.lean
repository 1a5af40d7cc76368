import TagWire.Codec.Encoder
import TagWire.Codec.Reader
import TagWire.Schema.Instance

/-!
# Decoding

The tag at the front of a message names its type; a fresh instance of the type takes the values of
the fields through its setters, so that whatever a setter normalizes is normalized here too. As in
the encoder, `Codec.readValue` recurses on the number of levels that may still be entered. Counts
read from the wire bound nothing: an item takes at least one byte, so a count that lies runs out of
bytes.
-/

namespace TagWire.Codec

/-- Reads a tag, or `none` for null. -/
def readTag (c : Codec) : Read (Option String) := do
  match ← Read.length c.limits.maxLength with
  | none => return none
  | some n => return some (← Read.text n)

/-- Reads the tag at the front of a message. -/
def readRootTag (c : Codec) : Read String := do
  let start ← Read.offset
  match ← c.readTag with
  | none => throw (.invalidData start .nullRootTag)
  | some tag => return tag

/-- The descriptor of a tag that was read. -/
def resolve (c : Codec) (tag : String) : Read Descriptor :=
  match c.registry.lookup tag with
  | .ok d => pure d
  | .error e => throw e

/-- Reads fields, the first of which has the given index, and stores each in an instance. -/
def readFields (read : Field → Read Value) (tag : String) :
    Nat → List Field → Instance → Read Instance
  | _, [], i => pure i
  | index, f :: fs, i => do
    let v ← read f
    match i.setField index v with
    | .ok i => readFields read tag (index + 1) fs i
    | .error cause => throw (.refusedField tag f.name cause)

/-- Reads as many items as counted. -/
def readItems (read : Read Value) : Nat → Read (List Value)
  | 0 => pure []
  | n + 1 => do
    let v ← read
    return v :: (← readItems read n)

/-- Reads as many entries of a map as counted, each key before its value. -/
def readEntries (readKey readValue : Read Value) : Nat → Read (List (Value × Value))
  | 0 => pure []
  | n + 1 => do
    let k ← readKey
    let v ← readValue
    return (k, v) :: (← readEntries readKey readValue n)

/-- Reads the fields of a described type into a fresh instance. -/
def readBody (read : Field → Read Value) (d : Descriptor) : Read Instance :=
  readFields read d.tag 0 d.fields d.prototype

/-- Null where a field `f` allows it. -/
def readNull (tag owner : String) (f : Field) : Read Value :=
  if f.nullable then pure .null else throw (.unexpectedNull tag owner)

/-- Reads whether a nullable scalar is present. -/
def readPresence : Read Bool := do
  let start ← Read.offset
  let n ← Read.word 1
  if n = 0 then return false
  else if n = 1 then return true
  else throw (.invalidData start (.presenceByte n.toUInt8))

/-- Reads a scalar of a kind in the place of field `f`. -/
def readScalar (f : Field) (k : ScalarKind) : Read Value := do
  if f.nullable then
    if !(← readPresence) then return .null
  return .scalar (← Read.scalar k)

/-- Reads a variant of an enumeration of the given length, which starts at `start`. -/
def readVariant (e : Enumeration) (start n : Nat) : Read Value := do
  let variant ← Read.text n
  if e.contains variant then return .enum variant
  else throw (.invalidData start (.unknownVariant variant e.name))

/-- Reads a value of field `f`, with `levels` levels left to enter. Errors name the type `tag` and
its field `owner`, which `f` is or belongs to. -/
def readValue (c : Codec) : Nat → String → String → Field → Read Value
  | levels, tag, owner, f =>
    match f.kind with
    | .scalar k => readScalar f k
    | .string => do
      match ← Read.length c.limits.maxLength with
      | none => readNull tag owner f
      | some n => return .string (← Read.text n)
    | .bytes => do
      match ← Read.length c.limits.maxLength with
      | none => readNull tag owner f
      | some n => return .bytes (← Read.bytes n)
    | .enum e => do
      let start ← Read.offset
      match ← Read.length c.limits.maxLength with
      | none => readNull tag owner f
      | some n => readVariant e start n
    | .nested declared => do
      match ← c.readTag with
      | none => readNull tag owner f
      | some found =>
        let d ← c.resolve found
        if c.registry.isAssignable d.tag declared then
          match levels with
          | 0 => throw c.tooDeep
          | levels + 1 =>
            return .nested (← readBody (fun f => c.readValue levels d.tag f.name f) d)
        else throw (.notAssignable tag owner declared d.tag)
    | .list element => do
      match ← Read.length c.limits.maxLength with
      | none => readNull tag owner f
      | some n =>
        match levels with
        | 0 => throw c.tooDeep
        | levels + 1 => return .list (← readItems (c.readValue levels tag owner element) n)
    | .map key value => do
      match ← Read.length c.limits.maxLength with
      | none => readNull tag owner f
      | some n =>
        match levels with
        | 0 => throw c.tooDeep
        | levels + 1 =>
          return .map (← readEntries (c.readValue levels tag owner key)
            (c.readValue levels tag owner value) n)
termination_by structural levels => levels

/-- Reads a whole message: its descriptor and the instance. -/
def readMessage (c : Codec) : Read (Descriptor × Instance) := do
  let tag ← c.readRootTag
  let d ← c.resolve tag
  match c.limits.maxDepth.toNat with
  | 0 => throw c.tooDeep
  | levels + 1 => return (d, ← readBody (fun f => c.readValue levels d.tag f.name f) d)

/-- Runs a reading computation from the front of a message: its answer and where it ends. -/
def run {α : Type} (read : Read α) (message : List UInt8) : Except CodecError (α × Reader) :=
  match read (Reader.start message) with
  | .ok a r => .ok (a, r)
  | .error e _ => .error e

/-- The message at the front of some bytes, with the number of bytes it takes. -/
def decodePrefix (c : Codec) (bytes : List UInt8) : Except CodecError (Instance × Nat) := do
  let ((_, i), r) ← run c.readMessage bytes
  return (i, r.offset)

/-- The message that some bytes are, with its descriptor. -/
def decodeWhole (c : Codec) (bytes : List UInt8) : Except CodecError (Descriptor × Instance) := do
  let (message, r) ← run c.readMessage bytes
  if r.isAtEnd then return message else throw (.trailingBytes r.remaining)

/-- The message that some bytes are. -/
def decode (c : Codec) (bytes : List UInt8) : Except CodecError Instance := do
  return (← c.decodeWhole bytes).2

/-- The message that some bytes are, which has to be of the given type of instances. -/
def decodeAs (c : Codec) (t : InstanceType) (bytes : List UInt8) : Except CodecError Instance := do
  let (d, i) ← c.decodeWhole bytes
  if i.type = t then return i else throw (.unexpectedType t.fullName d.tag)

/-- The tag at the front of some bytes. -/
def peekTag (c : Codec) (bytes : List UInt8) : Except CodecError String := do
  return (← run c.readRootTag bytes).1

end TagWire.Codec
