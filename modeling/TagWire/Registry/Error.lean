import TagWire.Localization.Types

/-!
# Refused descriptors

Why a descriptor cannot be built or registered, or why a registry is not complete.
-/

namespace TagWire

/-- What is wrong with a descriptor by itself. -/
inductive DescriptorFault where
  | emptyTag
  | extendsItself
  | emptyFieldName
  | duplicateField (name : String)
  | noPrototype
  /-- Fresh instances are records of another tag. -/
  | foreignRecords (tag : String)
  | inheritanceCycle
deriving DecidableEq, Repr

/-- The wording of a fault. -/
def DescriptorFault.message : DescriptorFault → String
  | emptyTag => "empty tag"
  | extendsItself => "type cannot extend itself"
  | emptyFieldName => "field with empty name"
  | duplicateField name => s!"duplicate field '{name}'"
  | noPrototype => "no instance factory"
  | foreignRecords tag => s!"factory produces records tagged '{tag}'"
  | inheritanceCycle => "inheritance cycle"

/-- Why a registry refuses a descriptor or is not complete. -/
inductive RegistryError where
  | duplicateType (tag : String)
  /-- The localization type of the fresh instances already belongs to another tag. -/
  | conflictingBinding (tag existing : String) (type : Localization.EntityType)
  | invalidDescriptor (tag : String) (fault : DescriptorFault)
  | unresolvedReference (tag field target : String)
  | unknownParent (tag parent : String)
  | incompatibleParent (tag parent : String)
deriving DecidableEq, Repr

/-- The wording of a refusal. -/
def RegistryError.message : RegistryError → String
  | duplicateType tag => s!"type '{tag}' is already registered"
  | conflictingBinding tag existing type =>
    "Rust type " ++ type.fullName ++
      s!" is already bound to '{existing}', cannot bind it to '{tag}'"
  | invalidDescriptor tag fault => s!"invalid descriptor for '{tag}': " ++ fault.message
  | unresolvedReference tag field target =>
    s!"field '{field}' of '{tag}' references unregistered type '{target}'"
  | unknownParent tag parent => s!"type '{tag}' extends unregistered type '{parent}'"
  | incompatibleParent tag parent =>
    s!"type '{tag}' does not start with the fields of its parent '{parent}'"

end TagWire
