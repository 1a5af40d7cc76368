import TagWire.Codec.Error
import TagWire.Schema.Descriptor

/-!
# Registries

A `Registry` holds descriptors in the order in which they were registered. A record carries its own
tag; an entity gets its tag from the registry, by the descriptor whose fresh instances are of its
type. `Registry.register` keeps tags and such bindings unique; `Registry.isAssignable` follows
parents through the registry, where a tag may name a type that is not registered (yet).
-/

namespace TagWire

open TagWire.Localization (EntityType)

/-- Descriptors in the order of their registration. -/
structure Registry where
  types : List Descriptor := []

namespace Registry

instance : EmptyCollection Registry := ⟨{}⟩
instance : Inhabited Registry := ⟨∅⟩

/-- The number of registered types. -/
def size (r : Registry) : Nat := r.types.length

/-- The registered tags in the order of registration. -/
def tags (r : Registry) : List String := r.types.map Descriptor.tag

/-- The descriptor of a tag. -/
def get? (r : Registry) (tag : String) : Option Descriptor := r.types.find? (·.tag == tag)

/-- Whether a tag is registered. -/
def contains (r : Registry) (tag : String) : Bool := (r.get? tag).isSome

/-- The tag whose fresh instances are entities of a type. -/
def bindingOf? (r : Registry) (t : EntityType) : Option String :=
  (r.types.find? (·.prototype.type == .entity t)).map Descriptor.tag

/-- The tag bound to a type of instances. Records are never bound, they carry their tags. -/
def tagOf? (r : Registry) : InstanceType → Option String
  | .record => none
  | .entity t => r.bindingOf? t

/-- The descriptor of a tag, which is an error if it is not registered. -/
def lookup (r : Registry) (tag : String) : Except CodecError Descriptor :=
  match r.get? tag with
  | some d => .ok d
  | none => .error (.unknownType tag)

/-- The descriptor of an instance's own type. -/
def descriptorOf? (r : Registry) (i : Instance) : Option Descriptor :=
  match i with
  | .record shape _ => r.get? shape.tag
  | .entity e => (r.bindingOf? e.type).bind r.get?

/-- The descriptor of an instance's own type, which is an error if it is not registered. -/
def lookupInstance (r : Registry) (i : Instance) : Except CodecError Descriptor :=
  match r.descriptorOf? i with
  | some d => .ok d
  | none => .error (.unregisteredInstance (i.ownTag?.getD i.type.fullName))

/-- A fresh instance of a tag. -/
def instantiate (r : Registry) (tag : String) : Except CodecError Instance :=
  (r.lookup tag).map Descriptor.prototype

/-! ## Inheritance -/

/-- The tag that the type of a tag extends. -/
def parent? (r : Registry) (tag : String) : Option String := (r.get? tag).bind Descriptor.parent?

/-- Whether at most `steps` steps from a type to its parent lead from one tag to another. -/
def reaches (r : Registry) : Nat → String → String → Bool
  | 0, tag, target => tag == target
  | steps + 1, tag, target =>
    tag == target ||
      match r.parent? tag with
      | none => false
      | some parent => r.reaches steps parent target

/-- Whether an instance tagged `concrete` may stand where `declared` is declared: it is that type or
extends it, directly or not. More steps than there are types only go round in a circle. -/
def isAssignable (r : Registry) (concrete declared : String) : Bool :=
  r.reaches r.size concrete declared

/-- Whether at most `steps` steps from a type to its parent lead to a tag without one. -/
def chainEnds (r : Registry) : Nat → String → Bool
  | 0, tag => (r.parent? tag).isNone
  | steps + 1, tag =>
    match r.parent? tag with
    | none => true
    | some parent => r.chainEnds steps parent

/-- Whether the parents of a tag go round in a circle. -/
def isCyclic (r : Registry) (tag : String) : Bool := !r.chainEnds r.size tag

/-! ## Registration -/

/-- A registered parent has to be compatible. One that is not registered is left to validation. -/
def checkParent (r : Registry) (d : Descriptor) : Except RegistryError Unit :=
  match d.parent? with
  | none => .ok ()
  | some parentTag =>
    match r.get? parentTag with
    | none => .ok ()
    | some parent =>
      if d.startsWithFieldsOf parent then .ok ()
      else .error (.incompatibleParent d.tag parentTag)

/-- Fresh instances have to lead back to the descriptor: records by their tag, entities by a binding
that is still free. -/
def checkPrototype (r : Registry) (d : Descriptor) : Except RegistryError Unit :=
  match d.prototype with
  | .record shape _ =>
    if shape.tag == d.tag then .ok ()
    else .error (.invalidDescriptor d.tag (.foreignRecords shape.tag))
  | .entity e =>
    match r.bindingOf? e.type with
    | none => .ok ()
    | some existing => .error (.conflictingBinding d.tag existing e.type)

/-- Registers a descriptor under its tag. -/
def register (r : Registry) (d : Descriptor) : Except RegistryError Registry :=
  if r.contains d.tag then .error (.duplicateType d.tag)
  else do
    r.checkParent d
    r.checkPrototype d
    return { types := r.types ++ [d] }

/-- Registers descriptors in order up to the first that is refused. The registry holds those before
it. -/
def registerAll (r : Registry) : List Descriptor → Registry × Except RegistryError Unit
  | [] => (r, .ok ())
  | d :: ds =>
    match r.register d with
    | .ok r' => r'.registerAll ds
    | .error e => (r, .error e)

/-- Registers the localization types. -/
def registerLocalization (r : Registry) : Registry × Except RegistryError Unit :=
  r.registerAll (EntityType.all.map EntityType.descriptor)

end Registry

end TagWire
