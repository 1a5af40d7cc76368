import TagWire.Proofs.Registry.Registration
import TagWire.Proofs.Schema.Storing

/-!
# Native registries

A registry is `Native` if it came about by registering types of records, whose fresh instances are
records of the type's own shape, and localization types. A draft that asks for records builds a type
of records (`Draft.ofRecords_of_build`). Such a registry is sound, and a localization type is found
under its own descriptor only (`Registry.Native.lookupInstance_entity`), so the tag of an instance
leads back to the type of the instance. An instance is `Native` to a registry if every record in it
has a value for each field of its type.
-/

namespace TagWire

open TagWire.Localization (Entity EntityType)

/-- Whether the fresh instances of a type are records of its own tag and fields. -/
def Descriptor.OfRecords (d : Descriptor) : Prop :=
  d.prototype = (Record.fresh ⟨d.tag, d.fields⟩).toInstance

/-- A draft that asks for records builds a type of records. -/
theorem Draft.ofRecords_of_build {draft : Draft} {d : Descriptor}
    (h : draft.withRecords.build = .ok d) : d.OfRecords := by
  unfold build at h
  split at h
  · cases h
  · cases h
  next prototype _ hp =>
    cases h
    cases hp
    rfl

/-- The descriptor of a localization type is no type of records. -/
theorem Localization.EntityType.not_ofRecords (t : EntityType) : ¬t.descriptor.OfRecords := by
  intro h
  cases h

namespace Registry

variable {r r' : Registry}

/-- A record is looked up by its tag. -/
theorem lookupInstance_record {shape : RecordShape} {vs : List Value} {d : Descriptor} :
    r.lookupInstance (.record shape vs) = .ok d ↔ r.get? shape.tag = some d := by
  rw [lookupInstance_eq_ok_iff, descriptorOf?]

/-- Whether a registry came about by registering types of records and localization types. -/
inductive Native : Registry → Prop
  | empty : Native ∅
  | records {r r' : Registry} {d : Descriptor} : Native r → d.OfRecords →
      r.register d = .ok r' → Native r'
  | entities {r r' : Registry} {t : EntityType} : Native r →
      r.register t.descriptor = .ok r' → Native r'

/-- Whether every registered type is one of records. -/
def OfRecords (r : Registry) : Prop := ∀ d ∈ r.types, d.OfRecords

namespace Native

/-- A registered type is one of records or a localization type. -/
theorem ofRecords_or_entity (h : r.Native) :
    ∀ d ∈ r.types, d.OfRecords ∨ ∃ t : EntityType, d = t.descriptor := by
  induction h with
  | empty => exact List.forall_mem_nil _
  | records _ hd hreg ih =>
    obtain ⟨-, -, -, rfl⟩ := register_eq_ok_iff.1 hreg
    exact List.forall_mem_append.2 ⟨ih, List.forall_mem_singleton.2 (.inl hd)⟩
  | entities _ hreg ih =>
    obtain ⟨-, -, -, rfl⟩ := register_eq_ok_iff.1 hreg
    exact List.forall_mem_append.2 ⟨ih, List.forall_mem_singleton.2 (.inr ⟨_, rfl⟩)⟩

/-- A native registry is sound. -/
theorem sound (h : r.Native) : r.Sound := by
  induction h with
  | empty => exact sound_empty
  | records _ _ hreg ih => exact ih.register hreg
  | entities _ hreg ih => exact ih.register hreg

/-- Fresh instances are entities of a type only in the descriptor of that type. -/
theorem type_prototype (h : r.Native) {d : Descriptor} (hd : d ∈ r.types) {t : EntityType} :
    d.prototype.type = .entity t ↔ d = t.descriptor := by
  rcases h.ofRecords_or_entity d hd with hrec | ⟨t', rfl⟩
  · refine iff_of_false (fun ht => ?_) fun ht => t.not_ofRecords (ht ▸ hrec)
    rw [hrec] at ht
    cases ht
  · refine ⟨?_, ?_⟩
    · intro ht
      cases t' <;> cases ht <;> rfl
    · intro ht
      rw [ht]
      exact congrArg InstanceType.entity t.type_fresh

/-- Fresh instances have a value for each field of their type. -/
theorem length_prototype (h : r.Native) {d : Descriptor} (hd : d ∈ r.types) :
    d.prototype.values.length = d.fields.length := by
  rcases h.ofRecords_or_entity d hd with hrec | ⟨t, rfl⟩
  · rw [hrec]
    exact List.length_map ..
  · exact t.fresh.length_values.trans (by rw [t.type_fresh]; rfl)

/-- An entity is looked up under the descriptor of its type, if that is registered. -/
theorem lookupInstance_entity (h : r.Native) {e : Entity} {d : Descriptor} :
    r.lookupInstance (.entity e) = .ok d ↔ d = e.type.descriptor ∧ d ∈ r.types := by
  refine ⟨?_, ?_⟩
  · intro hd
    obtain ⟨tag, hbound, hget⟩ := Option.bind_eq_some_iff.1 (lookupInstance_eq_ok_iff.1 hd)
    obtain ⟨b, hb, htype, rfl⟩ := h.sound.bindingOf?_eq_some_iff.1 hbound
    obtain ⟨hmem, htag⟩ := mem_of_get? hget
    obtain rfl := h.sound.eq_of_not_apart hb hmem fun hapart => hapart.1 htag.symm
    exact ⟨(h.type_prototype hmem).1 htype, hmem⟩
  · intro hd
    obtain ⟨rfl, hmem⟩ := hd
    exact h.sound.lookupInstance_of_prototype hmem ((h.type_prototype hmem).2 rfl).symm rfl

/-- The type that an instance is looked up under is registered under its own tag. -/
theorem get?_of_lookupInstance (h : r.Native) {i : Instance} {d : Descriptor}
    (hd : r.lookupInstance i = .ok d) : r.get? d.tag = some d := by
  cases i with
  | record shape vs => exact get?_tag_of_get? (lookupInstance_record.1 hd)
  | entity e => exact h.sound.get?_eq_some_iff.2 ⟨(h.lookupInstance_entity.1 hd).2, rfl⟩

/-- No entity is found where only types of records are registered. -/
theorem lookupInstance_entity_ne (h : r.Native) (hr : r.OfRecords) {e : Entity} {d : Descriptor} :
    r.lookupInstance (.entity e) ≠ .ok d := by
  intro hd
  obtain ⟨rfl, hmem⟩ := h.lookupInstance_entity.1 hd
  exact e.type.not_ofRecords (hr _ hmem)

end Native

end Registry

/-! ## Native instances -/

/-- Whether every record in a value is of a registered type of records and has a value for each
field of the type. -/
def Value.Native (r : Registry) (v : Value) : Prop :=
  v.Everywhere
    (fun shape vs => ∃ d, r.get? shape.tag = some d ∧ d.OfRecords ∧ vs.length = d.fields.length)
    fun _ => True

/-- Whether every record in an instance is of a registered type of records and has a value for each
field of the type. -/
def Instance.Native (r : Registry) (i : Instance) : Prop :=
  i.Everywhere
    (fun shape vs => ∃ d, r.get? shape.tag = some d ∧ d.OfRecords ∧ vs.length = d.fields.length)
    fun _ => True

end TagWire
