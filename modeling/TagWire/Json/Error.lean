import TagWire.Codec.Error
import TagWire.Schema.Field
import TagWire.Json.Writing

/-!
# Refused JSON

Why an instance has no JSON view, or a JSON value is no view of an instance. `ImportError.chain`
tells the story from the outermost field inwards: one line for each field on the way, then the cause
and what it stems from.
-/

namespace TagWire

/-- Why an instance has no JSON view. -/
inductive ExportError where
  | unregistered (cause : CodecError)
  /-- The instance has fewer values than its type has fields. -/
  | noValue (tag field : String)

/-- The wording of the error and of the errors that it stems from. -/
def ExportError.chain : ExportError → List String
  | unregistered cause => cause.chain
  | noValue tag field => [s!"'{tag}' has no value for field '{field}'"]

/-- Why a JSON value is no view of an instance. -/
inductive ImportError where
  | notObject (tag : String)
  | unrelatedType (concrete declared : String)
  | typeNotText (found : Json)
  | unregistered (cause : CodecError)
  | unknownMember (tag name : String)
  | inField (tag field : String) (cause : ImportError)
  /-- A setter refused the value. -/
  | refused (cause : FieldError)
  | notOfKind (kind : ScalarKind) (found : Json)
  | notText (found : Json)
  | notArray (found : Json)
  | notPair (found : Json)
  | notOneCharacter (found : String)
  | badHex (fault : Text.Hex.Fault)
  | unknownVariant (variant : String) (enumeration : Enumeration)

/-- The wording of the error and of the errors that it stems from, outermost first. -/
def ImportError.chain : ImportError → List String
  | notObject tag => [s!"'{tag}' must be a JSON object"]
  | unrelatedType concrete declared => [s!"'{concrete}' is not '{declared}' or one of its subtypes"]
  | typeNotText found => ["$type must be a string, found " ++ found.compact]
  | unregistered cause => cause.chain
  | unknownMember tag name => [s!"'{tag}' has no field '{name}'"]
  | inField tag field cause => s!"field '{field}' of '{tag}'" :: cause.chain
  | refused cause => [cause.message]
  | notOfKind kind found => [found.compact ++ " is not a valid " ++ kind.name]
  | notText found => ["expected a string, found " ++ found.compact]
  | notArray found => ["expected an array, found " ++ found.compact]
  | notPair found => ["map entries are [key, value] pairs, found " ++ found.compact]
  | notOneCharacter found => ["char must be a one-character string, found " ++ Text.quote found]
  | badHex fault => [fault.message]
  | unknownVariant variant e =>
    [s!"'{variant}' is not a variant of {e.name} (" ++ ", ".intercalate e.variants ++ ")"]

end TagWire
