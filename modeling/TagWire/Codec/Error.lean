import TagWire.Schema.FieldError
import TagWire.Text.Hex

/-!
# Codec errors

Why an instance cannot be encoded or bytes cannot be decoded. Offsets count from the start of the
message. `CodecError.isRecoverable` tells a bad message, which a caller can drop, from an instance
that the caller should never have handed over.
-/

namespace TagWire

/-- What is wrong with the content of an item read from the wire. -/
inductive DataFault where
  | nullRootTag
  | boolByte (byte : UInt8)
  | presenceByte (byte : UInt8)
  | notScalarValue (code : UInt32)
  | invalidText (fault : Text.Utf8.Fault)
  | unknownVariant (variant enumeration : String)
deriving DecidableEq, Repr

/-- The wording of a fault. -/
def DataFault.message : DataFault → String
  | nullRootTag => "null type tag at message root"
  | boolByte b => "invalid bool byte 0x" ++ Text.Hex.encode [b]
  | presenceByte b => "invalid presence byte 0x" ++ Text.Hex.encode [b]
  | notScalarValue code => "0x" ++ Text.hexNumber code.toNat ++ " is not a unicode scalar value"
  | invalidText fault => "invalid UTF-8: " ++ fault.message
  | unknownVariant variant enumeration => s!"unknown variant '{variant}' for enum {enumeration}"

/-- Why an instance has no wire form. -/
inductive EncodingError where
  | missingField (tag field : String)
  | typeMismatch (tag field expected found : String)
  | lengthOverflow (tag field : String) (length limit : Nat)
  /-- The instance has fewer values than its type has fields. -/
  | missingAccessor (tag field : String) (index : Nat)
deriving DecidableEq, Repr

/-- The wording of an encoding error. -/
def EncodingError.message : EncodingError → String
  | missingField tag field => s!"required field '{field}' of '{tag}' is null"
  | typeMismatch tag field expected found =>
    s!"field '{field}' of '{tag}': expected {expected}, found {found}"
  | lengthOverflow tag field length limit =>
    s!"field '{field}' of '{tag}': length {length} exceeds limit {limit}"
  | missingAccessor tag field index =>
    s!"'{tag}' exposes no value for field #{index} ('{field}')"

/-- Why a message is not encoded or not decoded. -/
inductive CodecError where
  | unknownType (tag : String)
  | unregisteredInstance (name : String)
  | encoding (cause : EncodingError)
  | truncated (offset needed remaining : Nat)
  | malformedLength (offset length limit : Nat)
  | invalidData (offset : Nat) (fault : DataFault)
  | unexpectedNull (tag field : String)
  | notAssignable (tag field declared found : String)
  | depthExceeded (limit : Nat)
  | trailingBytes (remaining : Nat)
  /-- A setter refused what was read. -/
  | refusedField (tag field : String) (cause : FieldError)
  | unexpectedType (expected found : String)
deriving DecidableEq, Repr

namespace CodecError

/-- The wording of an error. -/
def message : CodecError → String
  | unknownType tag => s!"unknown type tag '{tag}'"
  | unregisteredInstance name => s!"instance of {name} is not registered"
  | encoding cause => "encoding failed: " ++ cause.message
  | truncated offset needed remaining =>
    s!"truncated stream at offset {offset}: need {needed} bytes, {remaining} remaining"
  | malformedLength offset length limit =>
    s!"malformed length {length} at offset {offset} (limit {limit})"
  | invalidData offset fault => s!"invalid data at offset {offset}: " ++ fault.message
  | unexpectedNull tag field => s!"null value for required field '{field}' of '{tag}'"
  | notAssignable tag field declared found =>
    s!"field '{field}' of '{tag}' declares '{declared}', got unrelated type '{found}'"
  | depthExceeded limit => s!"nesting depth exceeds {limit}"
  | trailingBytes remaining => s!"{remaining} trailing bytes after message"
  | refusedField tag field cause => s!"field '{field}' of '{tag}' rejected value: " ++ cause.message
  | unexpectedType expected found => s!"expected instance of {expected}, decoded '{found}'"

/-- The error and the errors that it stems from, each by its wording, outermost first. -/
def chain (e : CodecError) : List String :=
  e.message ::
    match e with
    | encoding cause => [cause.message]
    | refusedField _ _ cause => [cause.message]
    | _ => []

/-- Whether a caller can drop the message and carry on. -/
def isRecoverable : CodecError → Bool
  | unregisteredInstance _ => false
  | encoding (.missingAccessor _ _ _) => false
  | _ => true

/-- Whether more input might have helped. -/
def isTruncation : CodecError → Bool
  | truncated _ _ _ => true
  | _ => false

end CodecError

end TagWire
