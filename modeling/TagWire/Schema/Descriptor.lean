import TagWire.Registry.Error
import TagWire.Schema.Record

/-!
# Type descriptors

A `Descriptor` describes one schema: its tag, the tag of the type it extends, its fields in wire
order and its prototype, the instance that every fresh instance is a copy of. A `Draft` is a
descriptor in the making; `Draft.build` accepts it when its tag and field names are in order and it
knows what its fresh instances are.
-/

namespace TagWire

open TagWire.Localization (EntityType)

/-- A schema: tag, parent, fields in wire order and prototype. -/
structure Descriptor where
  tag : String
  parent? : Option String
  fields : List Field
  /-- The instance that every fresh instance is a copy of. -/
  prototype : Instance

namespace Descriptor

/-- Index of the first field of a name. -/
def fieldIndex? (d : Descriptor) (name : String) : Option Nat := Field.indexOf? d.fields name

/-- The first field of a name. -/
def field? (d : Descriptor) (name : String) : Option Field := d.fields.find? (·.name == name)

/-- Whether the fields start with those of another descriptor. -/
def startsWithFieldsOf (d parent : Descriptor) : Bool := parent.fields.isPrefixOf d.fields

/-- Whether two descriptors describe the same schema, whatever their prototypes. -/
def alike (d e : Descriptor) : Bool :=
  d.tag == e.tag && d.parent? == e.parent? && d.fields == e.fields

end Descriptor

/-- The descriptor of a localization type. Its fresh instances are default values. -/
def Localization.EntityType.descriptor (t : EntityType) : Descriptor :=
  { tag := t.tag, parent? := t.parent?, fields := t.fields, prototype := .entity t.fresh }

/-- Where the fresh instances of a draft come from. -/
inductive PrototypeSource where
  /-- Records of the draft's own tag and final fields. -/
  | ownRecord
  | instance (i : Instance)

/-- A descriptor in the making. -/
structure Draft where
  tag : String
  parent? : Option String := none
  fields : List Field := []
  source? : Option PrototypeSource := none

namespace Draft

/-- Names a parent. Its fields are expected among those of the draft. -/
def withParent (d : Draft) (parent : String) : Draft := { d with parent? := some parent }

/-- Names a parent and puts its fields in front of those of the draft. -/
def extending (d : Draft) (parent : Descriptor) : Draft :=
  { d with parent? := some parent.tag, fields := parent.fields ++ d.fields }

/-- Adds a field at the end. -/
def withField (d : Draft) (f : Field) : Draft := { d with fields := d.fields ++ [f] }

/-- Adds fields at the end. -/
def withFields (d : Draft) (fs : List Field) : Draft := { d with fields := d.fields ++ fs }

/-- Has fresh instances be records of the draft's shape. -/
def withRecords (d : Draft) : Draft := { d with source? := some .ownRecord }

/-- Has fresh instances be copies of the given one. -/
def withPrototype (d : Draft) (i : Instance) : Draft := { d with source? := some (.instance i) }

/-- The first fault of field names, in field order: an empty name or one that stands before. -/
def nameFault? (seen : List String) : List Field → Option DescriptorFault
  | [] => none
  | f :: fs =>
    if f.name == "" then some .emptyFieldName
    else if seen.contains f.name then some (.duplicateField f.name)
    else nameFault? (f.name :: seen) fs

/-- The prototype of a draft. -/
def prototype? (d : Draft) : Option Instance :=
  d.source?.map fun
    | .ownRecord => (Record.fresh ⟨d.tag, d.fields⟩).toInstance
    | .instance i => i

/-- The first fault of a draft that has a prototype. -/
def fault? (d : Draft) : Option DescriptorFault :=
  if d.tag == "" then some .emptyTag
  else if d.parent? == some d.tag then some .extendsItself
  else nameFault? [] d.fields

/-- The descriptor of a draft that is in order. -/
def build (d : Draft) : Except RegistryError Descriptor :=
  match d.fault?, d.prototype? with
  | some fault, _ => .error (.invalidDescriptor d.tag fault)
  | none, none => .error (.invalidDescriptor d.tag .noPrototype)
  | none, some prototype => .ok ⟨d.tag, d.parent?, d.fields, prototype⟩

end Draft

/-- The draft of a localization type: its tag, its fields and its default value. -/
def Localization.EntityType.draft (t : EntityType) : Draft :=
  { tag := t.tag, parent? := t.parent?, fields := t.fields,
    source? := some (.instance (.entity t.fresh)) }

/-- The draft of a localization type is in order and builds its descriptor. -/
theorem Localization.EntityType.build_draft (t : EntityType) :
    t.draft.build = .ok t.descriptor := by
  have h : t.draft.fault? = none := by cases t <;> decide
  simp only [Draft.build, h]
  rfl

end TagWire
