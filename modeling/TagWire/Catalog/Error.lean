import TagWire.Files
import TagWire.Registry.Error
import TagWire.Yaml.Token

/-!
# Refused catalogs

Why a catalog cannot be read or registered.
-/

namespace TagWire

/-- What is wrong with the document of a catalog. -/
inductive DocumentFault where
  | yaml (fault : Yaml.Fault)
  | unknownKey (key : String)
  | repeatedKey (key : String)
  | missingKey (key : String)
  | expected (what : String)
deriving DecidableEq, Repr

/-- The wording of a fault. -/
def DocumentFault.message : DocumentFault → String
  | yaml fault => fault.message
  | unknownKey key => s!"unknown key '{key}'"
  | repeatedKey key => s!"key '{key}' is repeated"
  | missingKey key => s!"key '{key}' is missing"
  | expected what => what ++ " expected"

/-- Why a type that a catalog spells is none. -/
inductive TypeFault where
  | emptyName
  /-- A composite has none or several of its parts. -/
  | unclearComposite
  | noVariants
deriving DecidableEq, Repr

/-- The wording of a fault. -/
def TypeFault.message : TypeFault → String
  | emptyName => "empty type name"
  | unclearComposite => "composite type needs exactly one of list, map, enum, nested"
  | noVariants => "enum without variants"

/-- Why a catalog cannot be read or registered. -/
inductive CatalogError where
  | unreadable (path : String) (fault : FileFault)
  | document (fault : DocumentFault)
  | invalidType (tag field : String) (fault : TypeFault)
  | registry (cause : RegistryError)
deriving DecidableEq, Repr

namespace CatalogError

/-- The wording of an error. -/
def message : CatalogError → String
  | unreadable path fault => s!"failed to read catalog {path}: " ++ fault.message
  | document fault => "invalid catalog YAML: " ++ fault.message
  | invalidType tag field fault => s!"type '{tag}', field '{field}': " ++ fault.message
  | registry cause => cause.message

/-- The error and the errors that it stems from, each by its wording, outermost first. -/
def chain (e : CatalogError) : List String :=
  e.message ::
    match e with
    | unreadable _ fault => [fault.message]
    | document fault => [fault.message]
    | _ => []

end CatalogError

end TagWire
