import TagWire.Yaml.Lexing

/-!
# YAML documents

A `Node` is a text, a sequence or a mapping. `Node.ofText?` reads the only document of a stream: it
goes along the tokens with a stack of the open collections, each with the `Slot` in which the next
node belongs. A slot may stay empty, which counts as a plain text without characters.
-/

namespace TagWire.Yaml

/-- A node of a document. -/
inductive Node where
  /-- A text, plain if it stands without quotes. -/
  | scalar (plain : Bool) (text : String)
  | sequence (items : List Node)
  | mapping (entries : List (Node × Node))

namespace Node

/-- The node of an empty slot. -/
def empty : Node := .scalar true ""

/-- Where the next node of an open collection belongs. -/
inductive Slot where
  /-- None is due before another mark. -/
  | closed
  /-- An item of a sequence, or, in a flow mapping, a key without a value. -/
  | item
  | key
  /-- None is due before the mark of a value for a key. -/
  | named (key : Node)
  | value (key : Node)

/-- How the items of a sequence are marked. -/
inductive Marking where
  /-- By dashes at a margin of their own. -/
  | block
  /-- By dashes at the margin of the mapping around them. -/
  | compact
  /-- By brackets and commas. -/
  | flow
deriving DecidableEq

/-- An open collection with what it holds so far, in reverse. -/
inductive Frame where
  | sequence (marking : Marking) (items : List Node)
  | mapping (isFlow : Bool) (entries : List (Node × Node))

namespace Frame

/-- Whether only flow collections can stand inside. -/
def isFlow : Frame → Bool
  | .sequence marking _ => marking == .flow
  | .mapping isFlow _ => isFlow

/-- The collection. -/
def node : Frame → Node
  | .sequence _ items => .sequence items.reverse
  | .mapping _ entries => .mapping entries.reverse

/-- Puts a node into a slot. An entry inside a sequence is a mapping of its own. -/
def fill (f : Frame) (slot : Slot) (n : Node) : Frame × Slot :=
  match f, slot with
  | f, .key => (f, .named n)
  | .sequence marking items, .value k => (.sequence marking (.mapping [(k, n)] :: items), .closed)
  | .sequence marking items, _ => (.sequence marking (n :: items), .closed)
  | .mapping isFlow entries, .value k => (.mapping isFlow ((k, n) :: entries), .closed)
  | .mapping isFlow entries, _ => (.mapping isFlow ((n, empty) :: entries), .closed)

/-- Whether a token leaves the slot before it empty. -/
def leavesEmpty (f : Frame) (slot : Slot) (t : Token) : Bool :=
  match f, slot with
  | .sequence .block _, .item => [Token.entry, .blockEnd].contains t
  | .sequence .compact _, .item => [Token.entry, .key, .value, .blockEnd].contains t
  | .mapping false _, .key | .mapping false _, .value _ => [Token.key, .value, .blockEnd].contains t
  | .sequence .flow _, .key => [Token.value, .separator, .flowSequenceEnd].contains t
  | .sequence .flow _, .value _ => [Token.separator, .flowSequenceEnd].contains t
  | .mapping true _, .key => [Token.value, .separator, .flowMappingEnd].contains t
  | .mapping true _, .value _ => [Token.separator, .flowMappingEnd].contains t
  | _, _ => false

/-- Fills the slots that a token leaves empty: the one before it, and the value of a key when the
token is not its mark. -/
def settle (f : Frame) (slot : Slot) (t : Token) : Frame × Slot :=
  let (f, slot) := if f.leavesEmpty slot t then f.fill slot empty else (f, slot)
  match slot with
  | .named k => if t == .value then (f, slot) else f.fill (.value k) empty
  | slot => (f, slot)

end Frame

/-- How far the document has come outside all collections. -/
inductive Progress where
  | before
  /-- Behind the mark of its start. -/
  | started
  | done (n : Node)
  /-- Behind the mark of its end. -/
  | ended (n : Node)

/-- A place between two tokens: the open collections with their slots, the innermost first, and the
state of the document. -/
structure Place where
  opened : List (Frame × Slot) := []
  progress : Progress := .before

namespace Place

/-- Puts a finished node into the slot where it belongs. -/
def deliver (p : Place) (n : Node) : Place :=
  match p.opened with
  | [] => { p with progress := .done n }
  | (f, slot) :: outer => { p with opened := f.fill slot n :: outer }

/-- Opens a collection. At most 128 are open at a time. -/
def enter (p : Place) (f : Frame) (slot : Slot) : Except Fault Place :=
  if p.opened.length < 128 then .ok { p with opened := (f, slot) :: p.opened } else .error .tooDeep

/-- The place behind a token that starts a node, the innermost collection being a flow one or not.
Only a mapping holds a compact sequence. -/
def begin (p : Place) (inFlow inMapping : Bool) (t : Token) : Except Fault Place :=
  match t with
  | .scalar plain text => .ok (p.deliver (.scalar plain text))
  | .flowSequenceStart => p.enter (.sequence .flow []) .item
  | .flowMappingStart => p.enter (.mapping true []) .item
  | .sequenceStart =>
    if inFlow then .error (.unexpected t) else p.enter (.sequence .block []) .closed
  | .mappingStart =>
    if inFlow then .error (.unexpected t) else p.enter (.mapping false []) .closed
  | .entry => if inMapping then p.enter (.sequence .compact []) .item else .error (.unexpected t)
  | t => .error (.unexpected t)

/-- The place behind a token outside all collections. -/
def stepOutside (p : Place) (t : Token) : Except Fault Place :=
  match p.progress, t with
  | .before, .documentStart => .ok { p with progress := .started }
  | .before, t => p.begin false false t
  | .started, .documentStart => .error .severalDocuments
  | .started, .documentEnd => .ok { p with progress := .ended empty }
  | .started, t => p.begin false false t
  | .done _, .documentStart => .error .severalDocuments
  | .done n, .documentEnd => .ok { p with progress := .ended n }
  | .done _, t => .error (.unexpected t)
  | .ended _, .documentEnd => .ok p
  | .ended _, _ => .error .severalDocuments

/-- Closes the innermost collection. -/
def leave (p : Place) (f : Frame) (outer : List (Frame × Slot)) : Place :=
  { p with opened := outer }.deliver f.node

/-- The place behind a token in a settled collection. -/
def stepInside (p : Place) (f : Frame) (slot : Slot) (outer : List (Frame × Slot)) (t : Token) :
    Except Fault Place :=
  let goOn (slot : Slot) : Except Fault Place := .ok { p with opened := (f, slot) :: outer }
  match f, slot, t with
  | .sequence .block _, .closed, .entry | .sequence .compact _, .closed, .entry => goOn .item
  | .sequence .block _, .closed, .blockEnd | .mapping false _, .closed, .blockEnd =>
    .ok (p.leave f outer)
  | .mapping false _, .closed, .key => goOn .key
  | _, .named k, .value => goOn (.value k)
  | .sequence .flow _, .closed, .separator | .mapping true _, .closed, .separator => goOn .item
  | .sequence .flow _, .closed, .flowSequenceEnd | .sequence .flow _, .item, .flowSequenceEnd
  | .mapping true _, .closed, .flowMappingEnd | .mapping true _, .item, .flowMappingEnd =>
    .ok (p.leave f outer)
  | .sequence .flow _, .item, .key | .mapping true _, .item, .key => goOn .key
  | _, .closed, t | _, .named _, t => .error (.unexpected t)
  | f, slot, t =>
    let inMapping := match f with
      | .mapping false _ => true
      | _ => false
    { p with opened := (f, slot) :: outer }.begin f.isFlow inMapping t

/-- The place behind a token. A compact sequence ends where no dash follows. -/
def step (p : Place) (t : Token) : Except Fault Place :=
  match p.opened with
  | [] => p.stepOutside t
  | (f, slot) :: outer =>
    let (f, slot) := f.settle slot t
    match f, slot, outer, t == .entry with
    | .sequence .compact items, .closed, (g, s) :: outer, false =>
      let (g, s) := g.fill s (.sequence items.reverse)
      let (g, s) := g.settle s t
      p.stepInside g s outer t
    | f, slot, outer, _ => p.stepInside f slot outer t

/-- The document that is complete at the end of the stream, if there is one. -/
def result (p : Place) : Except Fault (Option Node) :=
  match p.opened, p.progress with
  | [], .before => .ok none
  | [], .started => .ok (some empty)
  | [], .done n | [], .ended n => .ok (some n)
  | _ :: _, _ => .error .unfinished

end Place

/-- The only document of a stream, or `none` if the stream is empty. -/
def ofText? (text : String) : Except Fault (Option Node) := do
  let place ← (← Token.scan text).foldlM Place.step {}
  place.result

end Node

end TagWire.Yaml
