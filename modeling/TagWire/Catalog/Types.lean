import TagWire.Codec.Limits
import TagWire.Schema.Field

/-!
# Catalogs

A `Catalog` declares record types, in order, and limits for the codec. The type of a field is a
`TypeSpec`: a name, or a composite of other types. A composite may be written with several of its
four parts or with none; only its resolution decides that exactly one is wanted.
-/

namespace TagWire

/-- The type of a field, of a list element, or of a key or value of a map, as a catalog spells it.
-/
inductive TypeSpec where
  | name (text : String)
  | composite (list? : Option TypeSpec) (map? : Option (TypeSpec × TypeSpec))
      (variants? : Option (List String)) (nested? : Option String)

/-- A field as a catalog declares it. -/
structure FieldEntry where
  name : String
  type : TypeSpec
  nullable : Bool

/-- A type as a catalog declares it. -/
structure TypeEntry where
  tag : String
  extends? : Option String
  fields : List FieldEntry

/-- The limits that a catalog declares. -/
structure LimitsEntry where
  maxDepth? : Option UInt64 := none
  maxLength? : Option UInt32 := none

/-- The declarations of a catalog. -/
structure Catalog where
  limits : LimitsEntry := {}
  types : List TypeEntry := []

namespace Catalog

/-- The declared tags, in order. -/
def tags (c : Catalog) : List String := c.types.map TypeEntry.tag

/-- The default limits with those of the catalog applied. -/
def codecLimits (c : Catalog) : Limits :=
  ({} : Limits).override c.limits.maxDepth? c.limits.maxLength?

end Catalog

end TagWire
