import TagWire.Registry.Basic

/-!
# The journal

What registries, codecs and catalogs report while they work, as `Event`s. An event knows its level
and its wording; who keeps the journal and how it is shown is up to the program around the library.
-/

namespace TagWire

/-- The levels of a journal that occur. -/
inductive EventLevel where
  | trace | debug | warn
deriving DecidableEq, Repr

/-- The name of a level. -/
def EventLevel.name : EventLevel → String
  | trace => "TRACE"
  | debug => "DEBUG"
  | warn => "WARN"

/-- Something worth a line in a journal. -/
inductive Event where
  | registered (tag : String) (fields : Nat) (parent? : Option String)
  | validated (types : Nat)
  | installed (types : Nat)
  | frozen (types : Nat)
  /-- The shared registry changes although it is frozen. -/
  | lateInstall
  | lateRegistration (tag : String)
  | encoded (bytes : Nat)
  | decoded (tag : String)
  /-- A tag that ends at an offset is not registered. -/
  | unknownTag (tag : String) (offset : Nat)
  | catalogRead (path : String)
  | catalogRegistered (types : Nat)
  /-- The value of a setting is no number. -/
  | settingIgnored (name value : String)
deriving DecidableEq, Repr

namespace Event

/-- The level of an event. -/
def level : Event → EventLevel
  | encoded _ | decoded _ => .trace
  | lateInstall | lateRegistration _ | settingIgnored _ _ => .warn
  | _ => .debug

/-- The wording of an event. -/
def text : Event → String
  | registered tag fields parent? =>
    s!"[registry] registered '{tag}' ({fields} fields" ++
      (match parent? with
        | some parent => s!", extends '{parent}'"
        | none => "") ++ ")"
  | validated types => s!"[registry] validated {types} types"
  | installed types => s!"[registry] installing global registry ({types} types)"
  | frozen types => s!"[registry] global registry frozen ({types} types)"
  | lateInstall => "[registry] install after freeze(); traffic may already be running"
  | lateRegistration tag =>
    s!"[registry] late registration of '{tag}' after freeze(); traffic may already be running"
  | encoded bytes => s!"[codec] encoded {bytes} bytes"
  | decoded tag => s!"[codec] decoded '{tag}'"
  | unknownTag tag offset =>
    s!"[codec] unknown type tag '{tag}' at offset {offset} (peer built with a newer schema set?)"
  | catalogRead path => s!"[catalog] loading {path}"
  | catalogRegistered types => s!"[catalog] registered {types} types"
  | settingIgnored name value =>
    s!"[config] ignoring {name}=" ++ Text.quote value ++ ": not a valid number"

/-- The line of an event: level and wording. -/
def line (e : Event) : String := e.level.name ++ " " ++ e.text

/-- The event of a registration. -/
def ofDescriptor (d : Descriptor) : Event := .registered d.tag d.fields.length d.parent?

end Event

/-- The events of the registrations that lead from one registry to a later one. -/
def Registry.eventsSince (earlier later : Registry) : List Event :=
  (later.types.drop earlier.size).map Event.ofDescriptor

end TagWire
