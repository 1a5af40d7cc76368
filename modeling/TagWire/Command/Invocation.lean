import TagWire.Command.Options

/-!
# Commands

What the command line asks for: to list types, to decode a message, to encode one, or something
about the program itself.
-/

namespace TagWire.Command

/-- Where types and limits come from. -/
structure Source where
  catalog? : Option String := none
  builtin : Bool := false
deriving DecidableEq, Repr

/-- A command with its arguments. -/
inductive Task where
  | types (source : Source)
  | decode (source : Source) (hex : Bool) (input : String)
  | encode (source : Source) (tag input : String) (output? : Option String) (hex : Bool)
deriving DecidableEq, Repr

/-- What the command line asks for. -/
inductive Invocation where
  | task (t : Task)
  | version
  | help
  | misuse
deriving DecidableEq, Repr

namespace Invocation

/-- The options for the source of types. -/
def sourceSpecs : List OptionSpec :=
  [{ long := "catalog", short? := some 'c', takesValue := true, isPath := true },
    { long := "builtin" }]

/-- The option for hexadecimal text. -/
def hexSpec : OptionSpec := { long := "hex" }

/-- The options of encoding alone. -/
def encodeSpecs : List OptionSpec :=
  [{ long := "type", short? := some 't', takesValue := true },
    { long := "output", short? := some 'o', takesValue := true, isPath := true }]

/-- The source of types that options give. -/
def source (r : Reading) : Source := ⟨r.value? "catalog", r.has "builtin"⟩

/-- The task that arguments give, or why they give none. -/
def ofReading (result : Except Stop Reading) (task? : Reading → Option Task) : Invocation :=
  match result with
  | .error .help => help
  | .error .misuse => misuse
  | .ok r =>
    match task? r with
    | some t => task t
    | none => misuse

/-- Listing types. -/
def types (args : List String) : Invocation :=
  ofReading (Reading.ofArgs sourceSpecs 0 args) fun r => some (.types (source r))

/-- Decoding. -/
def decode (args : List String) : Invocation :=
  ofReading (Reading.ofArgs (hexSpec :: sourceSpecs) 1 args) fun r => do
    return .decode (source r) (r.has "hex") (← r.positionals.head?)

/-- Encoding. -/
def encode (args : List String) : Invocation :=
  ofReading (Reading.ofArgs (hexSpec :: sourceSpecs ++ encodeSpecs) 1 args) fun r => do
    return .encode (source r) (← r.value? "type") (← r.positionals.head?) (r.value? "output")
      (r.has "hex")

/-- The names of the commands, that of help included. -/
def commandNames : List String := ["types", "decode", "encode", "help"]

/-- What arguments ask for, those behind the name of the program. -/
def ofArgs : List String → Invocation
  | "types" :: args => types args
  | "decode" :: args => decode args
  | "encode" :: args => encode args
  | ["help"] => help
  | ["help", name] => if commandNames.contains name then help else misuse
  | arg :: _ =>
    match arg.toList with
    | '-' :: 'h' :: _ => help
    | '-' :: 'V' :: _ => version
    | _ => if arg == "--help" then help else if arg == "--version" then version else misuse
  | [] => misuse

end Invocation

end TagWire.Command
