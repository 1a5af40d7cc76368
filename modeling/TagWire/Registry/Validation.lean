import TagWire.Registry.Basic

/-!
# Complete registries

A registry is complete when every parent is registered, is compatible and leads to no circle, and
every tag that a field refers to is registered. `Registry.validate` reports the first type, in the
order of registration, of which this is not true.
-/

namespace TagWire.Registry

/-- What is wrong with the parent of a descriptor. -/
def checkInheritance (r : Registry) (d : Descriptor) : Except RegistryError Unit :=
  match d.parent? with
  | none => .ok ()
  | some parentTag =>
    match r.get? parentTag with
    | none => .error (.unknownParent d.tag parentTag)
    | some parent =>
      if !d.startsWithFieldsOf parent then .error (.incompatibleParent d.tag parentTag)
      else if r.isCyclic d.tag then .error (.invalidDescriptor d.tag .inheritanceCycle)
      else .ok ()

/-- The first tag that a field refers to and that is not registered. -/
def unresolved? (r : Registry) (f : Field) : Option String :=
  f.kind.references.find? fun target => !r.contains target

/-- The first field, among those of a tag, that refers to an unregistered one. -/
def checkReferences (r : Registry) (tag : String) : List Field → Except RegistryError Unit
  | [] => .ok ()
  | f :: fs =>
    match r.unresolved? f with
    | some target => .error (.unresolvedReference tag f.name target)
    | none => r.checkReferences tag fs

/-- What is wrong with a registered descriptor. -/
def checkType (r : Registry) (d : Descriptor) : Except RegistryError Unit := do
  r.checkInheritance d
  r.checkReferences d.tag d.fields

/-- What is wrong with the first of some descriptors. -/
def checkTypes (r : Registry) : List Descriptor → Except RegistryError Unit
  | [] => .ok ()
  | d :: ds => do
    r.checkType d
    r.checkTypes ds

/-- What is wrong with the first type that is not in order. -/
def validate (r : Registry) : Except RegistryError Unit := r.checkTypes r.types

end TagWire.Registry
