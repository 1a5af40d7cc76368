import TagWire.Number.Layout
import TagWire.Schema.Descriptor
import TagWire.Text.Quoted

/-!
# Values and types in full

The text that shows a value, an instance or a descriptor with everything in it, on one line, for
diagnostics: `I32(7)`, `List([Null])`, `User { user_id: Some("ann") }`.
-/

namespace TagWire

namespace Shown

/-- Parts between commas. -/
def commaSeparated (parts : List String) : String := ", ".intercalate parts

/-- A name with an argument. -/
def applied (name argument : String) : String := name ++ "(" ++ argument ++ ")"

/-- Parts in brackets. -/
def bracketed (parts : List String) : String := "[" ++ commaSeparated parts ++ "]"

/-- A name with named parts in braces. -/
def structured (name : String) (parts : List (String × String)) : String :=
  name ++ " \x7b " ++
    commaSeparated (parts.map fun (label, part) => label ++ ": " ++ part) ++ " \x7d"

/-- An optional part. -/
def optional : Option String → String
  | none => "None"
  | some part => applied "Some" part

/-- A truth value. -/
def truth (b : Bool) : String := if b then "true" else "false"

/-- Bytes by their numbers. -/
def byteNumbers (bytes : List UInt8) : String := bracketed (bytes.map fun b => toString b.toNat)

/-- A text in quotes, if there is one. -/
def optionalText (s : Option String) : String := optional (s.map Text.quote)

end Shown

open Shown

/-- The text that shows a scalar. -/
def Scalar.shown : Scalar → String
  | .bool b => applied "Bool" (truth b)
  | .i8 n => applied "I8" (toString n.toInt)
  | .i16 n => applied "I16" (toString n.toInt)
  | .i32 n => applied "I32" (toString n.toInt)
  | .i64 n => applied "I64" (toString n.toInt)
  | .u8 n => applied "U8" (toString n.toNat)
  | .u16 n => applied "U16" (toString n.toNat)
  | .u32 n => applied "U32" (toString n.toNat)
  | .u64 n => applied "U64" (toString n.toNat)
  | .f32 x => applied "F32" (Number.Format.single.shown x.bits.toNat)
  | .f64 x => applied "F64" (Number.Format.double.shown x.bits.toNat)
  | .char c => applied "Char" (Text.quoteChar c)

namespace Localization

/-- The text that shows a tree. -/
def Tree.shown : Tree → String
  | .unknown => "Unknown"
  | .commonStatic => "CommonStatic"
  | .caveStatic => "CaveStatic"
  | .caveConfig => "CaveConfig"
  | .edexStatic => "EdexStatic"

/-- The text that shows a level. -/
def Level.shown : Level → String
  | .unknown => "Unknown"
  | .base => "Base"
  | .configured => "Configured"
  | .site => "Site"
  | .user => "User"
  | .workstation => "Workstation"

/-- The text that shows a user. -/
def User.shown (u : User) : String := structured "User" [("user_id", optionalText u.userId)]

/-- The text that shows a context. -/
def Context.shown (c : Context) : String :=
  structured "LocalizationContext"
    [("localization_type", c.tree.shown), ("localization_level", c.level.shown),
      ("context_name", optionalText c.contextName)]

/-- The text that shows a stream request. -/
def StreamRequest.shown (r : StreamRequest) : String :=
  structured "LocalizationStreamRequest"
    [("context", optional (r.context.map Context.shown)), ("file_name", optionalText r.fileName),
      ("my_context_name", optionalText r.myContextName), ("user", r.user.shown)]

/-- The text that shows an entity. -/
def Entity.shown : Entity → String
  | .user u => u.shown
  | .context c => c.shown
  | .streamRequest r => r.shown
  | .getRequest g =>
    structured "LocalizationStreamGetRequest"
      [("request", g.request.shown), ("offset", toString g.offset.toInt),
        ("num_bytes", toString g.numBytes.toInt)]
  | .putRequest p =>
    structured "LocalizationStreamPutRequest"
      [("request", p.request.shown), ("bytes", optional (p.bytes.map byteNumbers)),
        ("offset", toString p.offset.toInt), ("end", truth p.isEnd)]

end Localization

mutual

/-- The text that shows a value. -/
def Value.shown : Value → String
  | .null => "Null"
  | .scalar s => s.shown
  | .string s => applied "String" (Text.quote s)
  | .bytes b => applied "Bytes" (byteNumbers b)
  | .enum variant => applied "Enum" (Text.quote variant)
  | .list items => applied "List" (bracketed (Value.shownList items))
  | .map entries => applied "Map" (bracketed (Value.shownEntries entries))
  | .nested i => applied "Struct" i.shown
termination_by structural v => v

/-- The text that shows an instance. -/
def Instance.shown : Instance → String
  | .record shape values =>
    structured "DynamicRecord"
      (("tag", Text.quote shape.tag) :: (shape.fields.map Field.name).zip (Value.shownList values))
  | .entity e => e.shown
termination_by structural i => i

/-- The texts that show values. -/
def Value.shownList : List Value → List String
  | [] => []
  | v :: vs => v.shown :: Value.shownList vs
termination_by structural vs => vs

/-- The texts that show the entries of a map. -/
def Value.shownEntries : List (Value × Value) → List String
  | [] => []
  | (k, v) :: es => ("(" ++ k.shown ++ ", " ++ v.shown ++ ")") :: Value.shownEntries es
termination_by structural es => es

end

/-- The text that shows a scalar kind. -/
def ScalarKind.shown : ScalarKind → String
  | .bool => "Bool"
  | .i8 => "I8"
  | .i16 => "I16"
  | .i32 => "I32"
  | .i64 => "I64"
  | .u8 => "U8"
  | .u16 => "U16"
  | .u32 => "U32"
  | .u64 => "U64"
  | .f32 => "F32"
  | .f64 => "F64"
  | .char => "Char"

mutual

/-- The text that shows a kind of fields. -/
def FieldKind.shown : FieldKind → String
  | .scalar k => applied "Primitive" k.shown
  | .string => "String"
  | .bytes => "Bytes"
  | .enum e =>
    applied "Enum" (structured "EnumDescriptor"
      [("name", Text.quote e.name), ("variants", bracketed (e.variants.map Text.quote))])
  | .nested tag => applied "Nested" (Text.quote tag)
  | .list element => applied "ListOf" element.shown
  | .map key value => applied "MapOf" (commaSeparated [key.shown, value.shown])
termination_by structural k => k

/-- The text that shows a field. -/
def Field.shown : Field → String
  | ⟨name, kind, nullable⟩ =>
    structured "FieldDescriptor"
      [("name", Text.quote name), ("kind", kind.shown), ("nullable", truth nullable)]
termination_by structural f => f

end

/-- The text that shows a descriptor. Its prototype is left out, as two points say. -/
def Descriptor.shown (d : Descriptor) : String :=
  "TypeDescriptor \x7b tag: " ++ Text.quote d.tag ++ ", parent: " ++ optionalText d.parent? ++
    ", fields: " ++ bracketed (d.fields.map Field.shown) ++ ", .. \x7d"

end TagWire
