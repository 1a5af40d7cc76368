import TagWire.Catalog.Document
import TagWire.Catalog.Registration
import TagWire.Codec.Decoder
import TagWire.Command.Invocation
import TagWire.Json.Import
import TagWire.Json.Reading

/-!
# Running commands

`run` carries out what the command line asks for and gives the `Outcome`: exit code, what is printed
and what is reported. Files are read and written through `Files`. A task that fails does so with a
chain of messages, the outermost first.
-/

namespace TagWire.Command

/-- What a program leaves behind when it ends. -/
structure Outcome where
  code : UInt8 := 0
  /-- The bytes of the standard output. -/
  output : List UInt8 := []
  /-- The text of the standard error stream. -/
  report : String := ""

namespace Outcome

/-- A success that prints a text. -/
def printing (text : String) : Outcome := { output := Text.Utf8.ofString text }

/-- A message whose further lines are indented to a margin. -/
def indented (margin message : String) : String :=
  ("\n" ++ margin).intercalate (message.splitOn "\n")

/-- A cause with its number in front. -/
def numbered (n : Nat) (message : String) : String :=
  let digits := toString n
  String.ofList (List.replicate (5 - digits.length) ' ') ++ digits ++ ": " ++
    indented "       " message

/-- The text of a chain of messages: the first as the error, the others as its causes, with numbers
if there are several. -/
def failureText : List String → String
  | [] => ""
  | [message] => "Error: " ++ message ++ "\n"
  | [message, cause] =>
    "Error: " ++ message ++ "\n\nCaused by:\n    " ++ indented "    " cause ++ "\n"
  | message :: causes =>
    "Error: " ++ message ++ "\n\nCaused by:\n" ++
      "\n".intercalate (causes.zipIdx.map fun (cause, n) => numbered n cause) ++ "\n"

/-- A failure. -/
def failure (chain : List String) : Outcome := { code := 1, report := failureText chain }

end Outcome

variable {m : Type → Type} [Monad m]

/-- A task at work: it fails with a chain of messages. -/
abbrev Work (m : Type → Type) := ExceptT (List String) m

/-- Goes on with a result, or fails with the chain of its error. -/
def orFail {ε α : Type} (chain : ε → List String) : Except ε α → Work m α
  | .ok a => pure a
  | .error e => throw (chain e)

/-- Does something with files, and fails with the chain of its error. -/
def attempt {ε α : Type} (chain : ε → List String) (act : m (Except ε α)) : Work m α :=
  ExceptT.mk do return (← act).mapError chain

/-- The chain of a file fault behind the message of what was tried. -/
def fileChain (trying path : String) (fault : FileFault) : List String :=
  [trying ++ " " ++ path, fault.message]

/-- The types and limits of a source. Without a catalog these are the localization types and the
limits of the settings. -/
def load (files : Files m) (setting : String → Option String) (s : Source) : Work m Codec := do
  let mut registry : Registry := ∅
  if s.builtin || s.catalog?.isNone then
    let (registered, result) := registry.registerLocalization
    orFail (fun e => [RegistryError.message e]) result
    registry := registered
  match s.catalog? with
  | none =>
    orFail (fun e => [RegistryError.message e]) registry.validate
    return ⟨registry, (Limits.ofSettings (setting Limits.depthSetting)
      (setting Limits.lengthSetting)).1⟩
  | some path =>
    let catalog ← attempt CatalogError.chain (Catalog.ofFile files path)
    let extended ← orFail (fun e => ("registering " ++ path) :: CatalogError.chain e)
      (catalog.extend registry)
    return ⟨extended, catalog.codecLimits⟩

/-- The lines of a descriptor in the listing of types. -/
def listing (d : Descriptor) : String :=
  let head := match d.parent? with
    | some parent => d.tag ++ " extends " ++ parent
    | none => d.tag
  let line := fun ((f, n) : Field × Nat) =>
    "  " ++ (if n < 10 then " " else "") ++ toString n ++ ". " ++ f.name ++ ": " ++ f.describe
  String.join ((head :: d.fields.zipIdx.map line).map (· ++ "\n"))

/-- Lists the types of a source. -/
def listTypes (files : Files m) (setting : String → Option String) (s : Source) :
    Work m Outcome := do
  let codec ← load files setting s
  return .printing (String.join (codec.registry.types.map listing))

/-- Reads a message. -/
def readMessage (files : Files m) (hex : Bool) (path : String) : Work m (List UInt8) := do
  if hex then
    let text ← attempt (fileChain "reading" path) (files.readText path)
    orFail (fun fault => ["parsing hex in " ++ path, Text.Hex.Fault.message fault])
      (Text.Hex.decode text)
  else attempt (fileChain "reading" path) (files.read path)

/-- Decodes a message and prints its JSON view. -/
def decode (files : Files m) (setting : String → Option String) (s : Source) (hex : Bool)
    (input : String) : Work m Outcome := do
  let codec ← load files setting s
  let bytes ← readMessage files hex input
  let i ← orFail (fun e => s!"decoding {input} ({bytes.length} bytes)" :: CodecError.chain e)
    (codec.decode bytes)
  let json ← orFail ExportError.chain (i.toJson codec.registry)
  return .printing (json.pretty ++ "\n")

/-- How deeply the arrays and objects of a JSON file may nest. -/
def jsonDepth : Nat := 127

/-- Encodes the instance that a JSON file holds, and prints or stores the message. -/
def encode (files : Files m) (setting : String → Option String) (s : Source) (tag input : String)
    (output? : Option String) (hex : Bool) : Work m Outcome := do
  let codec ← load files setting s
  let text ← attempt (fileChain "reading" input) (files.readText input)
  let json ← match Json.parse? jsonDepth text with
    | some json => pure json
    | none => throw ["parsing " ++ input, "invalid JSON"]
  let i ← orFail ImportError.chain (codec.registry.ofJson tag json)
  let bytes ← orFail CodecError.chain (codec.encode i)
  let payload := if hex then Text.Utf8.ofString (Text.Hex.encode bytes ++ "\n") else bytes
  match output? with
  | none => return { output := payload }
  | some path =>
    attempt (fileChain "writing" path) (files.write path payload)
    return { report := s!"[OK] {tag} -> {path} ({payload.length} bytes)\n" }

/-- Carries out a task. -/
def perform (files : Files m) (setting : String → Option String) : Task → Work m Outcome
  | .types s => listTypes files setting s
  | .decode s hex input => decode files setting s hex input
  | .encode s tag input output? hex => encode files setting s tag input output? hex

/-- The line that names the program and its version. -/
def versionLine : String := "dynserial-inspect 0.3.0\n"

/-- The text that explains the commands. -/
def usage : String :=
  "\n".intercalate
    ["Usage: dynserial-inspect <COMMAND>", "", "Commands:",
      "  types   List registered types with their fields in wire order",
      "  decode  Decode one message and print it as JSON",
      "  encode  Build an instance from JSON and encode it",
      "  help    Print this message", ""]

/-- Carries out what the arguments ask for. -/
def run (files : Files m) (setting : String → Option String) (args : List String) : m Outcome := do
  match Invocation.ofArgs args with
  | .version => return .printing versionLine
  | .help => return .printing usage
  | .misuse => return { code := 2, report := usage }
  | .task t =>
    match ← (perform files setting t).run with
    | .ok outcome => return outcome
    | .error chain => return .failure chain

end TagWire.Command
