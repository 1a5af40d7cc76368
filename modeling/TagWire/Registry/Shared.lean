import TagWire.Journal

/-!
# The shared registry

The registry that a whole process shares: a current registry and whether it is frozen. Whoever asks
for the current registry keeps what was current then. Changes after freezing still take effect, but
the journal warns of each, also of one that fails.
-/

namespace TagWire

/-- The registry that a process shares. -/
structure SharedRegistry where
  current : Registry := ∅
  frozen : Bool := false

namespace SharedRegistry

/-- The warning that a change comes late, if it does. -/
def warning (s : SharedRegistry) (e : Event) : List Event := if s.frozen then [e] else []

/-- Replaces the current registry. -/
def install (s : SharedRegistry) (r : Registry) : SharedRegistry × List Event :=
  ({ s with current := r }, s.warning .lateInstall ++ [.installed r.size])

/-- Registers a descriptor. One that is refused changes nothing. -/
def register (s : SharedRegistry) (d : Descriptor) :
    SharedRegistry × List Event × Except RegistryError Unit :=
  let warning := s.warning (.lateRegistration d.tag)
  match s.current.register d with
  | .ok r => ({ s with current := r }, warning ++ [.ofDescriptor d], .ok ())
  | .error e => (s, warning, .error e)

/-- Registers a localization type. -/
def registerType (s : SharedRegistry) (t : Localization.EntityType) :
    SharedRegistry × List Event × Except RegistryError Unit :=
  s.register t.descriptor

/-- Marks the end of the registrations. Only the first time is worth an event. -/
def freeze (s : SharedRegistry) : SharedRegistry × List Event :=
  ({ s with frozen := true }, if s.frozen then [] else [.frozen s.current.size])

end SharedRegistry

end TagWire
