import TagWire.Proofs.Codec.Simulation
import TagWire.Proofs.Registry.Registration

/-!
# Registries that grow

What a registry finds is still found after more types have been registered, as they are put behind
those already there. A parent that has been missing may be among them, so chains of parents may grow
longer, even while the registry is in use, and types become assignable; but none ceases to be
(`Registry.reaches_of_grown`). So traffic that works goes on as before, and what fails for another
reason than a missing type fails in the same way (`Registry.registerAll_keeps_traffic`).
-/

namespace TagWire

open TagWire.Localization (EntityType)

/-- The errors of an encoder that lacks a type. -/
inductive CodecError.LacksInstanceType : CodecError → Prop
  | unregisteredInstance (name : String) : LacksInstanceType (.unregisteredInstance name)
  | notAssignable (tag field declared found : String) :
      LacksInstanceType (.notAssignable tag field declared found)

/-- The errors of a decoder that lacks a type. -/
inductive CodecError.LacksTag : CodecError → Prop
  | unknownType (tag : String) : LacksTag (.unknownType tag)
  | notAssignable (tag field declared found : String) :
      LacksTag (.notAssignable tag field declared found)

namespace Registry

section
variable {r r' : Registry} (h : r.types <+: r'.types)
include h

/-! ## What is found -/

/-- A tag leads to the type that it has led to. -/
theorem get?_of_grown {tag : String} {d : Descriptor} (hd : r.get? tag = some d) :
    r'.get? tag = some d :=
  h.find?_eq_some hd

/-- A localization type is bound to the tag that it has been bound to. -/
theorem bindingOf?_of_grown {t : EntityType} {tag : String}
    (ht : r.bindingOf? t = some tag) : r'.bindingOf? t = some tag := by
  obtain ⟨d, hd, rfl⟩ := Option.map_eq_some_iff.1 ht
  exact Option.map_eq_some_iff.2 ⟨d, h.find?_eq_some hd, rfl⟩

/-- An instance is of the type that it has been of. -/
theorem descriptorOf?_of_grown {i : Instance} {d : Descriptor} (hd : r.descriptorOf? i = some d) :
    r'.descriptorOf? i = some d := by
  cases i with
  | record shape vs => exact get?_of_grown h hd
  | entity e =>
    obtain ⟨tag, htag, hd⟩ := Option.bind_eq_some_iff.1 hd
    exact Option.bind_eq_some_iff.2 ⟨tag, bindingOf?_of_grown h htag, get?_of_grown h hd⟩

/-- Tags are looked up as before, except those that have not been registered. -/
theorem lookup_of_grown (tag : String) :
    Except.Agrees CodecError.LacksTag Eq (r.lookup tag) (r'.lookup tag) := by
  unfold lookup
  cases hd : r.get? tag with
  | none => exact .excused _ (.unknownType tag)
  | some d =>
    rw [get?_of_grown h hd]
    exact .ok rfl

/-- Instances are looked up as before, except those whose type has not been registered. -/
theorem lookupInstance_of_grown (i : Instance) :
    Except.Agrees CodecError.LacksInstanceType Eq (r.lookupInstance i) (r'.lookupInstance i) := by
  unfold lookupInstance
  cases hd : r.descriptorOf? i with
  | none => exact .excused _ (.unregisteredInstance _)
  | some d =>
    rw [descriptorOf?_of_grown h hd]
    exact .ok rfl

/-! ## What is assignable -/

/-- A type extends the one that it has extended. -/
theorem parent?_of_grown {tag parent : String} (hparent : r.parent? tag = some parent) :
    r'.parent? tag = some parent := by
  obtain ⟨d, hd, hparent⟩ := Option.bind_eq_some_iff.1 hparent
  exact Option.bind_eq_some_iff.2 ⟨d, get?_of_grown h hd, hparent⟩

/-- Where parents lead, they still lead, in as many steps or more. -/
theorem reaches_of_grown {n m : Nat} (hnm : n ≤ m) {tag target : String}
    (hreaches : r.reaches n tag target = true) : r'.reaches m tag target = true := by
  induction n generalizing m tag with
  | zero =>
    have htag : (tag == target) = true := hreaches
    cases m <;> simp [reaches, htag]
  | succ n ih =>
    obtain ⟨m, rfl⟩ : ∃ k, m = k + 1 := ⟨m - 1, by omega⟩
    rw [reaches, Bool.or_eq_true] at hreaches ⊢
    refine hreaches.imp_right fun hrest => ?_
    cases hparent : r.parent? tag with
    | none => simp [hparent] at hrest
    | some parent =>
      rw [hparent] at hrest
      rw [parent?_of_grown h hparent]
      exact ih (by omega) hrest

/-- A type stands where it has stood. -/
theorem isAssignable_of_grown {concrete declared : String}
    (hassignable : r.isAssignable concrete declared = true) :
    r'.isAssignable concrete declared = true :=
  reaches_of_grown h h.length_le hassignable

/-- Types stand in the same places as before, or in some more. -/
theorem assignsLike_of_grown {excused : CodecError → Prop}
    (hexcused : ∀ owner field declared tag, excused (.notAssignable owner field declared tag)) :
    r.AssignsLike r' excused := by
  intro tag declared
  cases hto : r.isAssignable tag declared with
  | true => exact .inl (isAssignable_of_grown h hto)
  | false => exact .inr ⟨rfl, fun owner field => hexcused owner field declared tag⟩

end

/-! ## Traffic -/

/-- Registering more types keeps all that has been assignable, each message that has been encoded,
each instance that has been decoded, and each error that is not about a missing type. -/
theorem registerAll_keeps_traffic {r r' : Registry} {ds : List Descriptor}
    (h : r.registerAll ds = (r', .ok ())) :
    (∀ concrete declared, r.isAssignable concrete declared = true →
      r'.isAssignable concrete declared = true) ∧
    ∀ l : Limits,
      (∀ i bytes, (Codec.mk r l).encode i = .ok bytes → (Codec.mk r' l).encode i = .ok bytes) ∧
      (∀ i e, (Codec.mk r l).encode i = .error e → ¬e.LacksInstanceType →
        (Codec.mk r' l).encode i = .error e) ∧
      (∀ bytes m, (Codec.mk r l).decodePrefix bytes = .ok m →
        (Codec.mk r' l).decodePrefix bytes = .ok m) ∧
      ∀ bytes e, (Codec.mk r l).decodePrefix bytes = .error e → ¬e.LacksTag →
        (Codec.mk r' l).decodePrefix bytes = .error e := by
  have hgrown : r.types <+: r'.types := ⟨ds, (types_registerAll h).symm⟩
  refine ⟨fun _ _ => isAssignable_of_grown hgrown, fun l => ?_⟩
  have hencode := encode_agrees (lookupInstance_of_grown hgrown)
    (assignsLike_of_grown hgrown .notAssignable) l
  have hdecode := decodePrefix_agrees (lookup_of_grown hgrown)
    (assignsLike_of_grown hgrown .notAssignable) l
  refine ⟨?_, fun i e he hlacks => (hencode i).of_error he hlacks, ?_,
    fun bytes e he hlacks => (hdecode bytes).of_error he hlacks⟩
  · intro i bytes hi
    obtain ⟨_, hi', rfl⟩ := (hencode i).of_ok hi
    exact hi'
  · intro bytes m hm
    obtain ⟨_, hm', rfl⟩ := (hdecode bytes).of_ok hm
    exact hm'

/-- Users are decoded as before when the parent of get requests, which has been missing, is
registered too. -/
theorem registerAll_keeps_traffic_user : ∃ r,
    registerAll ⟨[EntityType.getRequest.descriptor, EntityType.user.descriptor]⟩
      [EntityType.streamRequest.descriptor] = (r, .ok ()) ∧
    (Codec.mk r {}).decodePrefix [4, 0, 0, 0, 0x55, 0x73, 0x65, 0x72, 1, 0, 0, 0, 0x61, 7] =
      .ok (.entity (.user ⟨some "a"⟩), 13) :=
  have h : registerAll ⟨[EntityType.getRequest.descriptor, EntityType.user.descriptor]⟩
      [EntityType.streamRequest.descriptor] =
    (⟨[EntityType.getRequest.descriptor, EntityType.user.descriptor,
      EntityType.streamRequest.descriptor]⟩, .ok ()) := rfl
  ⟨_, h, ((registerAll_keeps_traffic h).2 {}).2.2.1 _ _ rfl⟩

end Registry

end TagWire
