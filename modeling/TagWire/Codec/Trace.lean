import TagWire.Codec.Decoder

/-!
# What a decoder reports

The events of decoding a message: one for each instance that is read to its end, nested ones before
the one around them, and one for a tag that is not registered. They are found by following the
decoder along the message with `Codec.traceValue`, which recurses as `Codec.readValue` does.
-/

namespace TagWire.Codec

/-- The events of a body: those of its fields up to the first that fails, and its own. -/
def traceFields (read : Field → Read Value) (trace : Field → Reader → List Event) (d : Descriptor) :
    Nat → List Field → Instance → Reader → List Event
  | _, [], _, _ => [.decoded d.tag]
  | index, f :: fs, i, r =>
    trace f r ++
      match read f r with
      | .error _ _ => []
      | .ok v r =>
        match i.setField index v with
        | .error _ => []
        | .ok i => traceFields read trace d (index + 1) fs i r

/-- The events of items up to the first that fails. -/
def traceItems (read : Read Value) (trace : Reader → List Event) : Nat → Reader → List Event
  | 0, _ => []
  | n + 1, r =>
    trace r ++
      match read r with
      | .error _ _ => []
      | .ok _ r => traceItems read trace n r

/-- The events of the entries of a map up to the first that fails. -/
def traceEntries (readKey readValue : Read Value) (traceKey traceValue : Reader → List Event) :
    Nat → Reader → List Event
  | 0, _ => []
  | n + 1, r =>
    traceKey r ++
      match readKey r with
      | .error _ _ => []
      | .ok _ r =>
        traceValue r ++
          match readValue r with
          | .error _ _ => []
          | .ok _ r => traceEntries readKey readValue traceKey traceValue n r

/-- The events of a tag: none if it is registered. -/
def traceTag (c : Codec) (tag : String) (r : Reader) : List Event :=
  if c.registry.contains tag then [] else [.unknownTag tag r.offset]

/-- The events of reading a value where `Codec.readValue` reads it. -/
def traceValue (c : Codec) : Nat → String → String → Field → Reader → List Event
  | levels, tag, owner, f, r =>
    match f.kind with
    | .nested declared =>
      match c.readTag r with
      | .ok (some found) r =>
        c.traceTag found r ++
          match c.registry.get? found, levels with
          | some d, levels + 1 =>
            if c.registry.isAssignable d.tag declared then
              traceFields (fun f => c.readValue levels d.tag f.name f)
                (fun f r => c.traceValue levels d.tag f.name f r) d 0 d.fields d.prototype r
            else []
          | _, _ => []
      | _ => []
    | .list element =>
      match Read.length c.limits.maxLength r, levels with
      | .ok (some n) r, levels + 1 =>
        traceItems (c.readValue levels tag owner element)
          (fun r => c.traceValue levels tag owner element r) n r
      | _, _ => []
    | .map key value =>
      match Read.length c.limits.maxLength r, levels with
      | .ok (some n) r, levels + 1 =>
        traceEntries (c.readValue levels tag owner key) (c.readValue levels tag owner value)
          (fun r => c.traceValue levels tag owner key r)
          (fun r => c.traceValue levels tag owner value r) n r
      | _, _ => []
    | _ => []
termination_by structural levels => levels

/-- The events of decoding the message at the front of some bytes. -/
def decodeEvents (c : Codec) (bytes : List UInt8) : List Event :=
  match c.readRootTag (Reader.start bytes) with
  | .error _ _ => []
  | .ok tag r =>
    c.traceTag tag r ++
      match c.registry.get? tag, c.limits.maxDepth.toNat with
      | some d, levels + 1 =>
        traceFields (fun f => c.readValue levels d.tag f.name f)
          (fun f r => c.traceValue levels d.tag f.name f r) d 0 d.fields d.prototype r
      | _, _ => []

/-- The events of an encoding that took so many bytes, or failed. -/
def encodeEvents : Except CodecError Nat → List Event
  | .ok n => [.encoded n]
  | .error _ => []

end TagWire.Codec
