import TagWire.Catalog.Error
import TagWire.Catalog.Types
import TagWire.Yaml.Node
import TagWire.Yaml.Plain

/-!
# Reading catalogs

A catalog is written as a YAML document: mappings with fixed keys, sequences of types and of fields.
Where a text is wanted, any text counts, whatever it means otherwise; but a type name has to be a
text that means nothing else. An empty place counts as an empty mapping or sequence.
-/

namespace TagWire

namespace Yaml.Node

/-- A computation that takes a node apart. -/
abbrev Reading (α : Type) := Except DocumentFault α

/-- The characters of a text. -/
def toText : Node → Reading String
  | scalar _ s => .ok s
  | _ => .error (.expected "text")

/-- Nothing where a plain text is empty or means nothing, and else what `read` finds. -/
def optional {α : Type} (read : Node → Reading α) : Node → Reading (Option α)
  | scalar true s => if s == "" || Plain.isNull s then .ok none else (read (scalar true s)).map some
  | n => (read n).map some

/-- The natural number below a bound that a plain text means. -/
def toNatural (bound : Nat) : Node → Reading Nat
  | scalar true s =>
    match Plain.toNatural? bound s with
    | some n => .ok n
    | none => .error (.expected "number")
  | _ => .error (.expected "number")

/-- The truth value that a plain text means. -/
def toBool : Node → Reading Bool
  | scalar true s =>
    match Plain.toBool? s with
    | some b => .ok b
    | none => .error (.expected "truth value")
  | _ => .error (.expected "truth value")

/-- What `read` finds in the items of a sequence. -/
def toList {α : Type} (read : Node → Reading α) : Node → Reading (List α)
  | sequence items => items.mapM read
  | scalar true "" => .ok []
  | _ => .error (.expected "sequence")

/-- Adds a member whose key has to be known and new. -/
def addMember (known : List String) (members : List (String × Node)) (entry : Node × Node) :
    Reading (List (String × Node)) := do
  let key ← entry.1.toText
  if !known.contains key then throw (.unknownKey key)
  if (members.lookup key).isSome then throw (.repeatedKey key)
  return (key, entry.2) :: members

/-- The members of a mapping, all of whose keys are known and different. -/
def toMembers (known : List String) : Node → Reading (List (String × Node))
  | mapping entries => entries.foldlM (addMember known) []
  | scalar true "" => .ok []
  | _ => .error (.expected "mapping")

/-- What `read` finds in the member of a key, which has to be there. -/
def required {α : Type} (members : List (String × Node)) (key : String) (read : Node → Reading α) :
    Reading α :=
  match members.lookup key with
  | some n => read n
  | none => .error (.missingKey key)

/-- What `read` finds in the member of a key, or the given value if there is none. -/
def withDefault {α : Type} (members : List (String × Node)) (key : String) (read : Node → Reading α)
    (fallback : α) : Reading α :=
  match members.lookup key with
  | some n => read n
  | none => .ok fallback

end Yaml.Node

open Yaml (Node Plain.isText Plain.isNull Plain.toNatural?)
open Yaml.Node (Reading)

/-! ## Types -/

namespace TypeSpec

/-- The parts of a composite type. -/
inductive Part where
  | list | map | enum | nested
deriving DecidableEq

namespace Part

/-- Every part, in the order in which a sequence gives them. -/
def all : List Part := [list, map, enum, nested]

/-- The key of a part. -/
def key : Part → String
  | list => "list"
  | map => "map"
  | enum => "enum"
  | nested => "nested"

/-- The part that the key of a composite names, by its name or by its position. -/
def ofKey (n : Node) : Reading Part :=
  let part? := match n with
    | .scalar true s =>
      if Plain.isText s then all.find? (·.key == s)
      else (Plain.toNatural? UInt64.size s).bind (all[·]?)
    | .scalar false s => all.find? (·.key == s)
    | _ => none
  match part? with
  | some part => .ok part
  | none => .error (.expected "part of a composite type")

end Part

/-- The text of a text that means nothing else. -/
def textOnly : Node → Reading String
  | .scalar plain s =>
    if plain && !Plain.isText s then .error (.expected "text") else .ok s
  | _ => .error (.expected "text")

/-- Whether a node means nothing. -/
def isAbsent : Node → Bool
  | .scalar plain s => plain && (s == "" || Plain.isNull s)
  | _ => false

/-- The composite with a part added. The part is read from a node as the type that the node spells,
as the pair of types that it spells, or directly. -/
def addPart (part : Part) (n : Node) (type : Unit → Reading TypeSpec)
    (pair : Unit → Reading (TypeSpec × TypeSpec)) (c : TypeSpec) : Reading TypeSpec :=
  if isAbsent n then .ok c
  else
    match c, part with
    | .composite _ m v t, .list => do return .composite (some (← type ())) m v t
    | .composite l _ v t, .map => do return .composite l (some (← pair ())) v t
    | .composite l m _ t, .enum => do
      match n with
      | .sequence items => return .composite l m (some (← items.mapM textOnly)) t
      | _ => throw (.expected "sequence")
    | .composite l m v _, .nested => do return .composite l m v (some (← textOnly n))
    | .name s, _ => .ok (.name s)

/-- The composite without parts. -/
def noParts : TypeSpec := .composite none none none none

mutual

/-- The type that a node spells. -/
def ofNode : Node → Reading TypeSpec
  | .scalar plain s => (textOnly (.scalar plain s)).map .name
  | .sequence items => ofItems noParts Part.all items
  | .mapping entries => ofEntries noParts [] entries
termination_by structural n => n

/-- Adds the parts of a composite that items give in order. -/
def ofItems (c : TypeSpec) : List Part → List Node → Reading TypeSpec
  | _, [] => .ok c
  | [], _ :: _ => .error (.expected "at most four parts")
  | part :: parts, n :: ns => do
    let pair := fun (_ : Unit) =>
      match n with
      | .sequence [key, value] => do return (← ofNode key, ← ofNode value)
      | _ => .error (.expected "pair of types")
    ofItems (← addPart part n (fun _ => ofNode n) pair c) parts ns
termination_by structural _ ns => ns

/-- Adds the parts of a composite that entries give under their keys, each at most once. -/
def ofEntries (c : TypeSpec) (seen : List Part) : List (Node × Node) → Reading TypeSpec
  | [] => .ok c
  | (k, n) :: es => do
    let part ← Part.ofKey k
    if seen.contains part then throw (.repeatedKey part.key)
    let pair := fun (_ : Unit) =>
      match n with
      | .sequence [key, value] => do return (← ofNode key, ← ofNode value)
      | _ => .error (.expected "pair of types")
    ofEntries (← addPart part n (fun _ => ofNode n) pair c) (part :: seen) es
termination_by structural es => es

end

end TypeSpec

/-! ## Declarations -/

/-- The field that a node declares. -/
def FieldEntry.ofNode (n : Node) : Reading FieldEntry := do
  let members ← n.toMembers ["name", "type", "nullable"]
  return {
    name := ← Node.required members "name" Node.toText
    type := ← Node.required members "type" TypeSpec.ofNode
    nullable := ← Node.withDefault members "nullable" Node.toBool false }

/-- The type that a node declares. -/
def TypeEntry.ofNode (n : Node) : Reading TypeEntry := do
  let members ← n.toMembers ["tag", "extends", "fields"]
  return {
    tag := ← Node.required members "tag" Node.toText
    extends? := ← Node.withDefault members "extends" (Node.optional Node.toText) none
    fields := ← Node.withDefault members "fields" (Node.toList FieldEntry.ofNode) [] }

/-- The limits that a node declares. -/
def LimitsEntry.ofNode (n : Node) : Reading LimitsEntry := do
  let members ← n.toMembers ["max_depth", "max_length"]
  let natural := fun key bound =>
    Node.withDefault members key (Node.optional (Node.toNatural bound)) none
  return {
    maxDepth? := (← natural "max_depth" UInt64.size).map UInt64.ofNat
    maxLength? := (← natural "max_length" UInt32.size).map UInt32.ofNat }

namespace Catalog

/-- The catalog that a document declares. -/
def ofNode (n : Node) : Reading Catalog := do
  let members ← n.toMembers ["limits", "types"]
  return {
    limits := (← Node.withDefault members "limits" (Node.optional LimitsEntry.ofNode) none).getD {}
    types := ← Node.withDefault members "types" (Node.toList TypeEntry.ofNode) [] }

/-- The catalog that a YAML text declares. A text without a document declares nothing. -/
def ofText (text : String) : Except CatalogError Catalog :=
  match Node.ofText? text with
  | .error fault => .error (.document (.yaml fault))
  | .ok none => .ok {}
  | .ok (some n) => (ofNode n).mapError .document

/-- The catalog in a file. -/
def ofFile {m : Type → Type} [Monad m] (files : Files m) (path : String) :
    m (Except CatalogError Catalog) := do
  match ← files.readText path with
  | .error fault => return .error (.unreadable path fault)
  | .ok text => return ofText text

end Catalog

end TagWire
