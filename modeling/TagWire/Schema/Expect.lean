import TagWire.Schema.Value

/-!
# Taking values apart

The functions `as…?` look inside a value and answer `none` where it is of another kind. The
functions `to…` take the content out of a value of the expected kind and refuse any other, with the
refusal in words; `Value.optional` lets null pass where a kind is expected.
-/

namespace TagWire

open TagWire.Localization (Choice Context User)

namespace Value

/-- The boolean inside a value. -/
def asBool? : Value → Option Bool
  | scalar (.bool b) => some b
  | _ => none

/-- The signed number of 32 bits inside a value. -/
def asI32? : Value → Option Int32
  | scalar (.i32 n) => some n
  | _ => none

/-- The signed number of 64 bits inside a value. -/
def asI64? : Value → Option Int64
  | scalar (.i64 n) => some n
  | _ => none

/-- The natural number of 32 bits inside a value. -/
def asU32? : Value → Option UInt32
  | scalar (.u32 n) => some n
  | _ => none

/-- The natural number of 64 bits inside a value. -/
def asU64? : Value → Option UInt64
  | scalar (.u64 n) => some n
  | _ => none

/-- The float of 64 bits inside a value. -/
def asF64? : Value → Option Number.Binary64
  | scalar (.f64 x) => some x
  | _ => none

/-- The text inside a value. -/
def asText? : Value → Option String
  | string s => some s
  | _ => none

/-- The bytes inside a value. -/
def asBytes? : Value → Option (List UInt8)
  | bytes b => some b
  | _ => none

/-- The variant inside a value. -/
def asVariant? : Value → Option String
  | enum variant => some variant
  | _ => none

/-- The items inside a value. -/
def asList? : Value → Option (List Value)
  | list items => some items
  | _ => none

/-- The entries inside a value. -/
def asMap? : Value → Option (List (Value × Value))
  | map entries => some entries
  | _ => none

/-- The instance inside a value. -/
def asInstance? : Value → Option Instance
  | nested i => some i
  | _ => none

/-- The refusal of a value where a kind of the given name is expected. -/
def mismatch (v : Value) (expected : String) : FieldError := .typeMismatch expected v.kindName

/-- The refusal of a value where an instance of a type is expected. Another instance is named by its
own type. -/
def notInstance (v : Value) (expected : InstanceType) : FieldError :=
  match v with
  | nested i => .typeMismatch expected.fullName i.type.fullName
  | v => v.mismatch expected.fullName

/-- Null as nothing, all else as `expect` takes it. -/
def optional {α : Type} (expect : Value → Except FieldError α) :
    Value → Except FieldError (Option α)
  | null => .ok none
  | v => (expect v).map some

/-- The boolean of a boolean value. -/
def toBool : Value → Except FieldError Bool
  | scalar (.bool b) => .ok b
  | v => .error (v.mismatch "bool")

/-- The number of a 32-bit integer value. -/
def toI32 : Value → Except FieldError Int32
  | scalar (.i32 n) => .ok n
  | v => .error (v.mismatch "i32")

/-- The text of a string value. -/
def toText : Value → Except FieldError String
  | string s => .ok s
  | v => .error (v.mismatch "string")

/-- The bytes of a byte string value. -/
def toBytes : Value → Except FieldError (List UInt8)
  | bytes b => .ok b
  | v => .error (v.mismatch "bytes")

/-- The instance of a nested value. -/
def toInstance : Value → Except FieldError Instance
  | nested i => .ok i
  | v => .error (v.mismatch "nested")

/-- The choice that an enumeration value names. -/
def toChoice (α : Type) [Choice α] : Value → Except FieldError α
  | enum variant =>
    match Choice.ofName? variant with
    | some c => .ok c
    | none =>
      .error (.invalidValue ("unknown " ++ Choice.enumName α ++ " variant '" ++ variant ++ "'"))
  | v => .error (v.mismatch ("enum<" ++ Choice.enumName α ++ ">"))

/-- The instance of a nested value of the given type. -/
def toNested (t : InstanceType) : Value → Except FieldError Instance
  | nested i => if i.type = t then .ok i else .error ((nested i).notInstance t)
  | v => .error (v.notInstance t)

/-- The context of a nested value. -/
def toContext : Value → Except FieldError Context
  | nested (.entity (.context c)) => .ok c
  | v => .error (v.notInstance (.entity .context))

/-- The user of a nested value. -/
def toUser : Value → Except FieldError User
  | nested (.entity (.user u)) => .ok u
  | v => .error (v.notInstance (.entity .user))

end Value

end TagWire
