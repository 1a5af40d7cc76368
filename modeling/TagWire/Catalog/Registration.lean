import TagWire.Catalog.Error
import TagWire.Catalog.Types
import TagWire.Journal
import TagWire.Registry.Validation
import TagWire.Text.Blank

/-!
# Registering catalogs

`TypeSpec.resolve` turns a spelled type into the kind of a field, `Catalog.registerInto` registers
all types of a catalog in order and validates the result. It does all or nothing: the types are
registered in a staged copy, which replaces the registry only at the end.
-/

namespace TagWire

namespace TypeSpec

/-- The kind that a type name without its question mark and without blanks around it means: a scalar
kind, a text, a byte string, or instances of another type. -/
def kindOfName (name : String) : FieldKind :=
  if name == "string" then .string
  else if name == "bytes" then .bytes
  else
    match ScalarKind.ofName? name with
    | some k => .scalar k
    | none => .nested name

/-- A type name without its question mark and without the blanks around it, and whether it had the
mark. The mark has to be the very last character. -/
def splitName (s : String) : String × Bool :=
  match s.toList.reverse with
  | '?' :: cs => (String.ofList (Text.trimChars cs.reverse), true)
  | _ => (Text.trim s, false)

/-- What a type name means, and whether it allows null. -/
def resolveName (s : String) : Except TypeFault (FieldKind × Bool) :=
  let (bare, nullable) := splitName s
  if bare == "" then .error .emptyName else .ok (kindOfName bare, nullable)

/-- What a spelled type means in a field of the given name, and whether it allows null. An
enumeration takes the name of the field. -/
def resolve (field : String) : TypeSpec → Except TypeFault (FieldKind × Bool)
  | .name s => resolveName s
  | .composite (some element) none none none => do
    let (kind, nullable) ← element.resolve field
    return (.list ⟨"element", kind, nullable⟩, false)
  | .composite none (some (key, value)) none none => do
    let (keyKind, keyNullable) ← key.resolve field
    let (valueKind, valueNullable) ← value.resolve field
    return (.map ⟨"key", keyKind, keyNullable⟩ ⟨"value", valueKind, valueNullable⟩, false)
  | .composite none none (some variants) none =>
    if variants.isEmpty then .error .noVariants else .ok (.enum ⟨field, variants⟩, false)
  | .composite none none none (some tag) => .ok (.nested tag, false)
  | .composite _ _ _ _ => .error .unclearComposite
termination_by structural spec => spec

end TypeSpec

/-- The field that a catalog declares for the type of a tag. It allows null if its type or its
declaration does. -/
def FieldEntry.resolve (tag : String) (f : FieldEntry) : Except CatalogError Field :=
  match f.type.resolve f.name with
  | .ok (kind, nullable) => .ok ⟨f.name, kind, nullable || f.nullable⟩
  | .error fault => .error (.invalidType tag f.name fault)

namespace TypeEntry

/-- The draft that the fields of a type are added to: empty, or extending a registered type. -/
def start (t : TypeEntry) (r : Registry) : Except CatalogError Draft :=
  match t.extends? with
  | none => .ok { tag := t.tag }
  | some parentTag =>
    match r.get? parentTag with
    | some parent => .ok (Draft.extending { tag := t.tag } parent)
    | none => .error (.registry (.unknownParent t.tag parentTag))

/-- The descriptor of a declared type. Fresh instances are records. -/
def descriptor (t : TypeEntry) (r : Registry) : Except CatalogError Descriptor := do
  let draft ← t.start r
  let fields ← t.fields.mapM (FieldEntry.resolve t.tag)
  (draft.withFields fields).withRecords.build.mapError .registry

/-- The registry with a declared type registered. -/
def register (t : TypeEntry) (r : Registry) : Except CatalogError Registry := do
  (r.register (← t.descriptor r)).mapError .registry

end TypeEntry

namespace Catalog

/-- Registers declared types up to the first that is refused. The registry holds those before it. -/
def stage (r : Registry) : List TypeEntry → Registry × Except CatalogError Unit
  | [] => (r, .ok ())
  | t :: ts =>
    match t.register r with
    | .ok r => stage r ts
    | .error e => (r, .error e)

/-- The registry with all types of a catalog registered, if none is refused and the result is
complete. -/
def extend (c : Catalog) (r : Registry) : Except CatalogError Registry := do
  let (staged, result) := stage r c.types
  result
  staged.validate.mapError .registry
  return staged

/-- Registers all types of a catalog, or none. -/
def registerInto (c : Catalog) (r : Registry) : Registry × Except CatalogError Unit :=
  match c.extend r with
  | .ok extended => (extended, .ok ())
  | .error e => (r, .error e)

/-- A registry of the types of a catalog alone. -/
def toRegistry (c : Catalog) : Except CatalogError Registry := c.extend ∅

/-- The events of reading a catalog from a file with the given result. -/
def fileEvents {α : Type} (path : String) (result : Except CatalogError α) : List Event :=
  match result with
  | .error (.unreadable _ _) => []
  | _ => [.catalogRead path]

/-- The events of registering a catalog, those of the staged types first. -/
def events (c : Catalog) (r : Registry) : List Event :=
  let staged := (stage r c.types).1
  r.eventsSince staged ++
    match c.extend r with
    | .ok extended => [.validated extended.size, .catalogRegistered c.types.length]
    | .error _ => []

end Catalog

end TagWire
