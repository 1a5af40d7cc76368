/-!
# YAML tokens

The tokens that a YAML stream consists of, and what can be wrong with it. Block collections are told
by their margins in the text; here they have explicit ends like flow collections, and a key is
marked in front of it whether or not the text does so.
-/

namespace TagWire.Yaml

/-- A token of a YAML stream. -/
inductive Token where
  /-- The line `---`. -/
  | documentStart
  /-- The line `...`. -/
  | documentEnd
  | sequenceStart
  | mappingStart
  /-- The end of the innermost block sequence or mapping. -/
  | blockEnd
  | flowSequenceStart
  | flowSequenceEnd
  | flowMappingStart
  | flowMappingEnd
  /-- The dash in front of an item of a block sequence. -/
  | entry
  /-- The comma of a flow collection. -/
  | separator
  /-- The place in front of a key. -/
  | key
  /-- The colon in front of a value. -/
  | value
  /-- A text, plain if it stands without quotes. -/
  | scalar (plain : Bool) (text : String)
deriving DecidableEq, Repr

/-- What is wrong with a YAML stream. -/
inductive Fault where
  | controlCharacter
  | strayCharacter (c : Char)
  | tabInMargin
  | unterminatedText
  | badEscape
  | documentMarkInText
  | keyWithoutColon
  | misplacedEntry
  | misplacedKey
  | misplacedValue
  | unknownAlias
  | unexpected (token : Token)
  | unfinished
  | severalDocuments
  | tooDeep
deriving DecidableEq, Repr

/-- The wording of a fault. -/
def Fault.message : Fault → String
  | controlCharacter => "control characters are not allowed"
  | strayCharacter c => "no token starts with '" ++ String.singleton c ++ "'"
  | tabInMargin => "a tab stands in the margin"
  | unterminatedText => "a quoted text does not end"
  | badEscape => "unknown escape in a quoted text"
  | documentMarkInText => "a document mark stands inside a quoted text"
  | keyWithoutColon => "no colon follows a key"
  | misplacedEntry => "a sequence entry is not allowed here"
  | misplacedKey => "a mapping key is not allowed here"
  | misplacedValue => "a mapping value is not allowed here"
  | unknownAlias => "unknown alias"
  | unexpected _ => "unexpected token"
  | unfinished => "the stream ends inside a collection"
  | severalDocuments => "more than one document"
  | tooDeep => "collections nest too deeply"

end TagWire.Yaml
