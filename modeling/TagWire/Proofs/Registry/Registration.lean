import Mathlib.Data.List.Pairwise
import TagWire.Registry.Basic

/-!
# What registration keeps

A type is registered exactly if it is `Descriptor.Apart` from the types already there, makes no
records of another tag and goes with its parent (`Registry.register_eq_ok_iff`). So a registry stays
`Registry.Sound`: tags are unique, and so is the type that makes entities of a localization type.
What is found in a sound registry is told by membership alone, for a tag
(`Registry.Sound.get?_eq_some_iff`) as for a localization type
(`Registry.Sound.bindingOf?_eq_some_iff`).
-/

namespace TagWire

open TagWire.Localization (EntityType)

/-- Whether two types can stand in one registry: under different tags, and not both for the same
localization type. -/
def Descriptor.Apart (d e : Descriptor) : Prop :=
  d.tag ≠ e.tag ∧ ∀ t, d.prototype.type = .entity t → e.prototype.type ≠ .entity t

/-- Whether the fresh instances of a type carry no other tag than that of the type. -/
def Descriptor.KeepsTag (d : Descriptor) : Prop :=
  ∀ tag, d.prototype.ownTag? = some tag → tag = d.tag

/-- Being apart is symmetric. -/
theorem Descriptor.Apart.symm {d e : Descriptor} (h : d.Apart e) : e.Apart d :=
  ⟨h.1.symm, fun t he hd => h.2 t hd he⟩

instance : Std.Symm Descriptor.Apart := ⟨fun _ _ h => h.symm⟩

namespace Registry

variable {r r' : Registry} {d : Descriptor}

/-! ## What is found -/

/-- A descriptor that is found is registered under the tag. -/
theorem mem_of_get? {tag : String} (h : r.get? tag = some d) : d ∈ r.types ∧ d.tag = tag :=
  ⟨List.mem_of_find?_eq_some h, by simpa using List.find?_some h⟩

/-- A descriptor that is found is found under its own tag. -/
theorem get?_tag_of_get? {tag : String} (h : r.get? tag = some d) : r.get? d.tag = some d := by
  rwa [(mem_of_get? h).2]

/-- An instance is looked up under the type that is found for it. -/
theorem lookupInstance_eq_ok_iff {i : Instance} :
    r.lookupInstance i = .ok d ↔ r.descriptorOf? i = some d := by
  unfold lookupInstance
  cases r.descriptorOf? i <;> simp

/-! ## One registration -/

/-- A tag is not registered if all types have others. -/
theorem contains_eq_false_iff {tag : String} :
    r.contains tag = false ↔ ∀ e ∈ r.types, e.tag ≠ tag := by
  simp [contains, get?]

/-- A tag is registered if some type has it. -/
theorem contains_iff {tag : String} : r.contains tag = true ↔ ∃ e ∈ r.types, e.tag = tag := by
  simp [contains, get?]

/-- A localization type is bound to no tag if no type makes entities of it. -/
theorem bindingOf?_eq_none_iff {t : EntityType} :
    r.bindingOf? t = none ↔ ∀ e ∈ r.types, e.prototype.type ≠ .entity t := by
  simp [bindingOf?]

/-- Fresh instances lead back to their type if they carry its tag, or are entities that no other
type makes. -/
theorem checkPrototype_eq_ok_iff : r.checkPrototype d = .ok () ↔
    d.KeepsTag ∧ ∀ t, d.prototype.type = .entity t → r.bindingOf? t = none := by
  unfold checkPrototype Descriptor.KeepsTag
  cases d.prototype with
  | record shape vs => simp [Instance.ownTag?, Instance.type]
  | entity e => cases hb : r.bindingOf? e.type <;> simp [Instance.ownTag?, Instance.type, hb]

/-- A registered parent has to be compatible. -/
theorem checkParent_eq_ok_iff : r.checkParent d = .ok () ↔
    ∀ tag, d.parent? = some tag → ∀ parent, r.get? tag = some parent →
      d.startsWithFieldsOf parent = true := by
  unfold checkParent
  cases d.parent? with
  | none => simp
  | some tag => cases hp : r.get? tag <;> simp [hp]

/-- A type is registered exactly if it is apart from all others, keeps its tag and goes with its
parent. It is put behind the others. -/
theorem register_eq_ok_iff : r.register d = .ok r' ↔
    (∀ e ∈ r.types, e.Apart d) ∧ d.KeepsTag ∧ r.checkParent d = .ok () ∧
      r' = ⟨r.types ++ [d]⟩ := by
  have hsteps : r.register d = .ok r' ↔ r.contains d.tag = false ∧ r.checkParent d = .ok () ∧
      r.checkPrototype d = .ok () ∧ r' = ⟨r.types ++ [d]⟩ := by
    unfold register
    cases r.contains d.tag with
    | true => simp
    | false =>
      cases r.checkParent d with
      | error e => simp [bind, Except.bind]
      | ok _ =>
        cases r.checkPrototype d with
        | error e => simp [bind, Except.bind]
        | ok _ => simp [bind, Except.bind, pure, Except.pure, eq_comm]
  rw [hsteps, checkPrototype_eq_ok_iff, contains_eq_false_iff]
  simp only [bindingOf?_eq_none_iff, Descriptor.Apart]
  refine ⟨?_, ?_⟩
  · intro h
    obtain ⟨htag, hparent, ⟨hkeeps, hbound⟩, hr'⟩ := h
    exact ⟨fun e he => ⟨htag e he, fun t het hdt => hbound t hdt e he het⟩, hkeeps, hparent, hr'⟩
  · intro h
    obtain ⟨hapart, hkeeps, hparent, hr'⟩ := h
    exact ⟨fun e he => (hapart e he).1, hparent,
      ⟨hkeeps, fun t hdt e he het => (hapart e he).2 t het hdt⟩, hr'⟩

/-! ## Sound registries -/

/-- Whether no two types get in each other's way, and each keeps its tag. -/
structure Sound (r : Registry) : Prop where
  apart : r.types.Pairwise Descriptor.Apart
  keepsTag : ∀ d ∈ r.types, d.KeepsTag

/-- An empty registry is sound. -/
theorem sound_empty : Sound ∅ := ⟨List.Pairwise.nil, List.forall_mem_nil _⟩

/-- Registration keeps a registry sound. -/
theorem Sound.register (h : r.Sound) (hreg : r.register d = .ok r') : r'.Sound := by
  obtain ⟨hapart, hkeeps, -, rfl⟩ := register_eq_ok_iff.1 hreg
  refine ⟨?_, ?_⟩
  · rw [List.pairwise_append]
    exact ⟨h.apart, List.pairwise_singleton _ _,
      fun e he => List.forall_mem_singleton.2 (hapart e he)⟩
  · exact List.forall_mem_append.2 ⟨h.keepsTag, List.forall_mem_singleton.2 hkeeps⟩

/-- The order of the types does not matter to a sound registry. -/
theorem Sound.perm (h : r.Sound) (hperm : r.types.Perm r'.types) : r'.Sound :=
  ⟨hperm.pairwise h.apart Descriptor.Apart.symm, fun d hd => h.keepsTag d (hperm.mem_iff.2 hd)⟩

namespace Sound

variable (h : r.Sound)
include h

/-- Types that are not apart are the same. -/
theorem eq_of_not_apart {d e : Descriptor} (hd : d ∈ r.types) (he : e ∈ r.types)
    (hde : ¬d.Apart e) : d = e :=
  Classical.byContradiction fun hne => hde (h.apart.forall hd he hne)

/-- A tag leads to the type that is registered under it. -/
theorem get?_eq_some_iff {tag : String} : r.get? tag = some d ↔ d ∈ r.types ∧ d.tag = tag := by
  refine ⟨mem_of_get?, ?_⟩
  · intro hd
    obtain ⟨hmem, rfl⟩ := hd
    cases he : r.get? d.tag with
    | none => exact absurd rfl (contains_eq_false_iff.1 (by rw [contains, he]; rfl) d hmem)
    | some e =>
      obtain ⟨hemem, htag⟩ := mem_of_get? he
      rw [h.eq_of_not_apart hemem hmem fun hapart => hapart.1 htag]

/-- A localization type is bound to the tag of the type that makes entities of it. -/
theorem bindingOf?_eq_some_iff {t : EntityType} {tag : String} : r.bindingOf? t = some tag ↔
    ∃ d ∈ r.types, d.prototype.type = .entity t ∧ d.tag = tag := by
  simp only [bindingOf?, Option.map_eq_some_iff]
  refine ⟨?_, ?_⟩
  · intro hb
    obtain ⟨d, hd, htag⟩ := hb
    exact ⟨d, List.mem_of_find?_eq_some hd, by simpa using List.find?_some hd, htag⟩
  · intro hb
    obtain ⟨d, hmem, htype, htag⟩ := hb
    cases he : r.types.find? (·.prototype.type == .entity t) with
    | none => exact absurd htype (by simpa using List.find?_eq_none.1 he d hmem)
    | some e =>
      have hetype : e.prototype.type = .entity t := by simpa using List.find?_some he
      have hed := h.eq_of_not_apart (List.mem_of_find?_eq_some he) hmem
        fun hapart => hapart.2 t hetype htype
      exact ⟨e, rfl, by rw [hed, htag]⟩

/-- Whatever a type may make is looked up under that type. -/
theorem lookupInstance_of_prototype (hd : d ∈ r.types) {i : Instance}
    (htype : i.type = d.prototype.type) (htag : i.ownTag? = d.prototype.ownTag?) :
    r.lookupInstance i = .ok d := by
  have hget := h.get?_eq_some_iff.2 ⟨hd, rfl⟩
  rw [lookupInstance_eq_ok_iff]
  cases i with
  | record shape vs =>
    have hshape : shape.tag = d.tag := h.keepsTag d hd _ htag.symm
    rw [descriptorOf?, hshape, hget]
  | entity e =>
    have hb := h.bindingOf?_eq_some_iff.2 ⟨d, hd, htype.symm, rfl⟩
    rw [descriptorOf?, hb, Option.bind_some, hget]

end Sound

/-! ## Calls in a row -/

/-- Types are registered in a row if the first is registered, and then the others. -/
theorem registerAll_cons_eq_ok {ds : List Descriptor} :
    r.registerAll (d :: ds) = (r', .ok ()) ↔
      ∃ s, r.register d = .ok s ∧ s.registerAll ds = (r', .ok ()) := by
  rw [registerAll]
  cases r.register d <;> simp

/-- Types that are registered in a row are put behind the others. -/
theorem types_registerAll {ds : List Descriptor} (h : r.registerAll ds = (r', .ok ())) :
    r'.types = r.types ++ ds := by
  induction ds generalizing r with
  | nil =>
    cases h
    exact (List.append_nil _).symm
  | cons d ds ih =>
    obtain ⟨s, hd, hds⟩ := registerAll_cons_eq_ok.1 h
    obtain ⟨-, -, -, rfl⟩ := register_eq_ok_iff.1 hd
    rw [ih hds, List.append_assoc]
    rfl

/-- Registering types in a row keeps a registry sound. -/
theorem Sound.registerAll {ds : List Descriptor} (h : r.Sound)
    (hds : r.registerAll ds = (r', .ok ())) : r'.Sound := by
  induction ds generalizing r with
  | nil =>
    cases hds
    exact h
  | cons d ds ih =>
    obtain ⟨s, hd, hds⟩ := registerAll_cons_eq_ok.1 hds
    exact ih (h.register hd) hds

end Registry

end TagWire
