/-!
# Command-line options

The grammar of command-line arguments: options with a long and perhaps a short name, some of them
with a value, among positional arguments. `Reading.ofArgs` goes along the arguments and stops at the
first that decides the matter: a request for help or a misuse.
-/

namespace TagWire.Command

/-- An option of a command. -/
structure OptionSpec where
  long : String
  short? : Option Char := none
  takesValue : Bool := false
  /-- Whether the value names a file. Such a value is not empty. -/
  isPath : Bool := false
deriving DecidableEq

/-- Why reading arguments stops. -/
inductive Stop where
  | help
  | misuse
deriving DecidableEq

/-- The arguments read so far. -/
structure Reading where
  /-- The option whose value is next. -/
  pending? : Option OptionSpec := none
  /-- Whether all further arguments are positional. -/
  escaped : Bool := false
  /-- The options found, by their long names, with their values. -/
  options : List (String × String) := []
  positionals : List String := []

namespace Reading

/-- Whether an option was given. -/
def has (r : Reading) (long : String) : Bool := (r.options.lookup long).isSome

/-- The value of an option. -/
def value? (r : Reading) (long : String) : Option String := r.options.lookup long

/-- Adds an option with its value. No option is given twice. -/
def addOption (r : Reading) (o : OptionSpec) (value : String) : Except Stop Reading :=
  if r.has o.long || (o.isPath && value == "") then .error .misuse
  else .ok { r with pending? := none, options := (o.long, value) :: r.options }

/-- Adds a positional argument, which names a file. At most `limit` are allowed. -/
def addPositional (r : Reading) (limit : Nat) (arg : String) : Except Stop Reading :=
  if arg == "" || limit ≤ r.positionals.length then .error .misuse
  else .ok { r with positionals := r.positionals ++ [arg] }

/-- Reads an option with the value that is attached to it, if there is one. -/
def addNamed (r : Reading) (o? : Option OptionSpec) (attached? : Option String) :
    Except Stop Reading :=
  match o?, attached? with
  | none, _ => .error .misuse
  | some o, some value => if o.takesValue then r.addOption o value else .error .misuse
  | some o, none =>
    if o.takesValue then
      if r.has o.long then .error .misuse else .ok { r with pending? := some o }
    else r.addOption o ""

/-- Reads a long option, given without its dashes. -/
def addLong (r : Reading) (specs : List OptionSpec) (cs : List Char) : Except Stop Reading :=
  let long := String.ofList (cs.takeWhile (· != '='))
  let attached? := match cs.dropWhile (· != '=') with
    | [] => none
    | _ :: value => some (String.ofList value)
  if long == "help" && attached?.isNone then .error .help
  else r.addNamed (specs.find? (·.long == long)) attached?

/-- Reads short options behind one dash. The first that takes a value takes all that follows it. -/
def addShort (r : Reading) (specs : List OptionSpec) : List Char → Except Stop Reading
  | [] => .ok r
  | c :: cs =>
    if c == 'h' then .error .help
    else
      match specs.find? (·.short? == some c) with
      | none => .error .misuse
      | some o =>
        if o.takesValue then
          let attached? := match cs with
            | [] => none
            | '=' :: value => some (String.ofList value)
            | value => some (String.ofList value)
          r.addNamed (some o) attached?
        else do
          let r ← r.addNamed (some o) none
          r.addShort specs cs

/-- Reads one argument. An argument that starts with a dash is no value, except a dash alone. -/
def add (specs : List OptionSpec) (limit : Nat) (r : Reading) (arg : String) :
    Except Stop Reading :=
  let asValue := fun (_ : Unit) =>
    match r.pending? with
    | some o => r.addOption o arg
    | none => r.addPositional limit arg
  if r.escaped then
    if r.pending?.isSome then .error .misuse else r.addPositional limit arg
  else
    match arg.toList with
    | ['-', '-'] => .ok { r with escaped := true }
    | '-' :: '-' :: cs => if r.pending?.isSome then .error .misuse else r.addLong specs cs
    | ['-'] => asValue ()
    | '-' :: cs => if r.pending?.isSome then .error .misuse else r.addShort specs cs
    | _ => asValue ()

/-- Reads all arguments. -/
def ofArgs (specs : List OptionSpec) (limit : Nat) (args : List String) : Except Stop Reading := do
  let r ← args.foldlM (add specs limit) {}
  if r.pending?.isSome then throw .misuse
  return r

end Reading

end TagWire.Command
