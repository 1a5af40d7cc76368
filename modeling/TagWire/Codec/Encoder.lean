import TagWire.Codec.Writer

/-!
# Encoding

A message is the tag of an instance and the values of its fields, in the order of its type; a nested
instance is written the same way, with its own tag. `Codec.writeValue` checks every value against
its field on the way. It recurses on the number of levels that may still be entered: each nested
instance and each collection enters one, so the limit on depth is what makes the recursion end.
-/

namespace TagWire

/-- A registry and the limits under which messages are encoded and decoded. -/
structure Codec where
  registry : Registry
  limits : Limits := {}

namespace Codec

/-- The error of entering a level too many. -/
def tooDeep (c : Codec) : CodecError := .depthExceeded c.limits.maxDepth.toNat

/-- Fails if a length exceeds the limit. -/
def checkLength (c : Codec) (tag field : String) (length : Nat) : Write Unit :=
  if c.limits.maxLength.toNat < length then
    throw (.encoding (.lengthOverflow tag field length c.limits.maxLength.toNat))
  else pure ()

/-- Writes a block of bytes. -/
def writeBlock (c : Codec) (tag field : String) (bytes : List UInt8) : Write Unit := do
  c.checkLength tag field bytes.length
  Write.emit (Wire.block bytes)

/-- Writes a text. -/
def writeText (c : Codec) (tag field : String) (s : String) : Write Unit :=
  c.writeBlock tag field (Text.Utf8.ofString s)

/-- Writes the values of fields, the first of which has the given index. -/
def writeFields (write : Field → Value → Write Unit) (tag : String) :
    Nat → List Field → List Value → Write Unit
  | _, [], _ => pure ()
  | index, f :: _, [] => throw (.encoding (.missingAccessor tag f.name index))
  | index, f :: fs, v :: vs => do
    write f v
    writeFields write tag (index + 1) fs vs

/-- Writes values one after the other. -/
def writeItems (write : Value → Write Unit) : List Value → Write Unit
  | [] => pure ()
  | v :: vs => do
    write v
    writeItems write vs

/-- Writes the entries of a map, each key before its value. -/
def writeEntries (writeKey writeValue : Value → Write Unit) : List (Value × Value) → Write Unit
  | [] => pure ()
  | (k, v) :: es => do
    writeKey k
    writeValue v
    writeEntries writeKey writeValue es

/-- Writes an instance of a described type: its tag and its fields. -/
def writeBody (c : Codec) (write : Field → Value → Write Unit) (d : Descriptor) (i : Instance) :
    Write Unit := do
  c.writeText d.tag "<tag>" d.tag
  writeFields write d.tag 0 d.fields i.values

/-- The bytes of null in the place of a kind. -/
def absent : FieldKind → List UInt8
  | .scalar _ => Wire.presence false
  | _ => Wire.null

/-- The error of a value that is not of the kind expected. -/
def mismatch (tag owner : String) (kind : FieldKind) (v : Value) : CodecError :=
  .encoding (.typeMismatch tag owner kind.describe v.kindName)

/-- Writes a value of field `f`, with `levels` levels left to enter. Errors name the type `tag` and
its field `owner`, which `f` is or belongs to. -/
def writeValue (c : Codec) : Nat → String → String → Field → Value → Write Unit
  | levels, tag, owner, f, v =>
    if v.isNull then
      if f.nullable then Write.emit (absent f.kind)
      else throw (.encoding (.missingField tag owner))
    else
      match f.kind, v with
      | .scalar k, v => do
        if f.nullable then Write.emit (Wire.presence true)
        match v with
        | .scalar s =>
          if s.kind = k then Write.emit s.bytes else throw (mismatch tag owner (.scalar k) v)
        | v => throw (mismatch tag owner (.scalar k) v)
      | .string, .string s => c.writeText tag owner s
      | .bytes, .bytes b => c.writeBlock tag owner b
      | .enum e, .enum variant =>
        if e.contains variant then c.writeText tag owner variant
        else throw (.encoding (.typeMismatch tag owner (FieldKind.enum e).describe
          ("undeclared variant '" ++ variant ++ "'")))
      | .nested declared, .nested i => do
        let d ← Write.ofExcept (c.registry.lookupInstance i)
        if c.registry.isAssignable d.tag declared then
          match levels with
          | 0 => throw c.tooDeep
          | levels + 1 => c.writeBody (fun f v => c.writeValue levels d.tag f.name f v) d i
        else throw (.notAssignable tag owner declared d.tag)
      | .list element, .list items =>
        match levels with
        | 0 => throw c.tooDeep
        | levels + 1 => do
          c.checkLength tag owner items.length
          Write.emit (Wire.count items.length)
          writeItems (c.writeValue levels tag owner element) items
      | .map key value, .map entries =>
        match levels with
        | 0 => throw c.tooDeep
        | levels + 1 => do
          c.checkLength tag owner entries.length
          Write.emit (Wire.count entries.length)
          writeEntries (c.writeValue levels tag owner key) (c.writeValue levels tag owner value)
            entries
      | kind, v => throw (mismatch tag owner kind v)
termination_by structural levels => levels

/-- Writes a whole message. -/
def writeMessage (c : Codec) (i : Instance) : Write Unit := do
  let d ← Write.ofExcept (c.registry.lookupInstance i)
  match c.limits.maxDepth.toNat with
  | 0 => throw c.tooDeep
  | levels + 1 => c.writeBody (fun f v => c.writeValue levels d.tag f.name f v) d i

/-- Appends the message of an instance to a buffer and counts the bytes appended. If there is no
such message, the buffer is cut back to what it was. -/
def encodeInto (c : Codec) (buffer : List UInt8) (i : Instance) :
    List UInt8 × Except CodecError Nat :=
  match c.writeMessage i buffer.toArray with
  | .ok _ grown => (grown.toList, .ok (grown.size - buffer.length))
  | .error e grown => ((grown.take buffer.length).toList, .error e)

/-- The message of an instance. -/
def encode (c : Codec) (i : Instance) : Except CodecError (List UInt8) :=
  match c.encodeInto [] i with
  | (message, .ok _) => .ok message
  | (_, .error e) => .error e

end Codec

end TagWire
