import TagWire.Proofs.Codec.Growth
import TagWire.Proofs.Registry.Validity

/-!
# Registries with all their parents

A registry is `Registry.Rooted` if the parent of each type is there and compatible, and no parents
go round in a circle. It stays so if types whose parents are registered already are registered, as
no type that was there can extend a new one (`Registry.Rooted.register`). Validation of such a
registry finds nothing but tags that fields refer to and that are not registered
(`Registry.Rooted.validate_eq_ok_iff`).
-/

namespace TagWire.Registry

variable {r r' : Registry} {d : Descriptor}

/-- Whether every parent is registered and compatible, and none comes back to itself. -/
structure Rooted (r : Registry) : Prop where
  contains_parent : ∀ d ∈ r.types, ∀ tag, d.parent? = some tag → r.contains tag = true
  starts : ∀ d ∈ r.types, ∀ tag parent, d.parent? = some tag → r.get? tag = some parent →
    parent.fields <+: d.fields
  acyclic : ∀ tag, ¬Relation.TransGen r.Extends tag tag

/-! ## Validation -/

/-- Validation of a sound registry succeeds exactly if every type is in order. -/
theorem Sound.validate_eq_ok_iff (h : r.Sound) :
    r.validate = .ok () ↔ ∀ d ∈ r.types, r.InOrder d :=
  checkTypes_eq_ok_iff.trans <| forall₂_congr fun _ hd =>
    checkType_eq_ok_iff (h.get?_eq_some_iff.2 ⟨hd, rfl⟩)

/-- In a rooted registry a type is in order if what its fields refer to is registered. -/
theorem Rooted.inOrder_iff (h : r.Rooted) (hd : d ∈ r.types) : r.InOrder d ↔
    ∀ f ∈ d.fields, ∀ tag, f.kind.Mentions tag → r.contains tag = true := by
  refine ⟨fun hd f hf tag hmention => hd.contains_mentioned hf hmention, ?_⟩
  intro hmentioned
  refine ⟨h.contains_parent d hd _, h.starts d hd _ _, fun hcircular => ?_,
    fun hf hmention => hmentioned _ hf _ hmention⟩
  obtain ⟨t, -, hround⟩ := hcircular
  exact h.acyclic t hround

/-- A sound registry that is found to be valid is rooted. -/
theorem Sound.rooted_of_validate (h : r.Sound) (hvalid : r.validate = .ok ()) : r.Rooted := by
  have hall := h.validate_eq_ok_iff.1 hvalid
  refine ⟨fun d hd _ => (hall d hd).contains_parent, fun d hd _ _ => (hall d hd).starts, ?_⟩
  intro tag hround
  -- What comes back to itself has a parent, so it is registered and has to be in order.
  obtain ⟨_, hparent, -⟩ := Relation.TransGen.head'_iff.1 hround
  obtain ⟨d, hd, rfl⟩ := contains_iff.1 (contains_of_parent? hparent)
  exact (hall d hd).not_circular ⟨d.tag, .refl, hround⟩

/-- A sound and rooted registry is valid exactly if what fields refer to is registered. -/
theorem Rooted.validate_eq_ok_iff (h : r.Rooted) (hsound : r.Sound) : r.validate = .ok () ↔
    ∀ d ∈ r.types, ∀ f ∈ d.fields, ∀ tag, f.kind.Mentions tag → r.contains tag = true :=
  hsound.validate_eq_ok_iff.trans (forall₂_congr fun _ hd => h.inOrder_iff hd)

/-- A sound and rooted registry is refused only for a tag that a field of some type refers to and
that is not registered. -/
theorem Rooted.of_validate_eq_error (h : r.Rooted) {e : RegistryError}
    (he : r.validate = .error e) : ∃ d ∈ r.types, ∃ f ∈ d.fields, ∃ tag, f.kind.Mentions tag ∧
      r.contains tag = false ∧ e = .unresolvedReference d.tag f.name tag := by
  obtain ⟨before, d, after, htypes, -, hcheck⟩ := of_checkTypes_eq_error he
  have hd : d ∈ r.types := by simp [htypes]
  refine ⟨d, hd, ?_⟩
  cases defect_of_checkType hcheck with
  | unknownParent hparent hnot =>
    rw [h.contains_parent d hd _ hparent] at hnot
    cases hnot
  | incompatibleParent hparent hget hnot => exact absurd (h.starts d hd _ _ hparent hget) hnot
  | circular hcircular =>
    obtain ⟨t, -, hround⟩ := hcircular
    exact absurd hround (h.acyclic t)
  | unresolved hf hmention hnot => exact ⟨_, hf, _, hmention, hnot, rfl⟩

/-! ## Registration -/

/-- A registered type is behind those that were there, under a tag that was not. -/
theorem types_of_register (h : r.register d = .ok r') :
    r'.types = r.types ++ [d] ∧ r.contains d.tag = false := by
  obtain ⟨hapart, -, -, rfl⟩ := register_eq_ok_iff.1 h
  exact ⟨rfl, contains_eq_false_iff.2 fun e he => (hapart e he).1⟩

/-- A tag that was registered is not that of a type that is registered now. -/
theorem ne_tag_of_register (h : r.register d = .ok r') {tag : String}
    (htag : r.contains tag = true) : tag ≠ d.tag := by
  rintro rfl
  rw [(types_of_register h).2] at htag
  cases htag

/-- A registered type is found under its tag, and the others under theirs. -/
theorem get?_of_register (h : r.register d = .ok r') (tag : String) :
    r'.get? tag = if tag = d.tag then some d else r.get? tag := by
  obtain ⟨-, -, -, rfl⟩ := register_eq_ok_iff.1 h
  rw [get?_append_eq_update (types_of_register h).2, Function.update_apply]

/-- What is registered stays so, and one tag more is. -/
theorem contains_of_register (h : r.register d = .ok r') (tag : String) :
    r'.contains tag = true ↔ r.contains tag = true ∨ tag = d.tag := by
  rw [contains, get?_of_register h, contains]
  split
  next htag => simp [htag]
  next htag => simp [htag]

section
variable (h : r.Rooted) (hreg : r.register d = .ok r')
  (hparent : ∀ tag, d.parent? = some tag → r.contains tag = true)
include h hreg hparent

/-- Every parent was registered before the new type. -/
theorem Rooted.contains_of_parent? {e : Descriptor} (he : e ∈ r'.types) {tag : String}
    (htag : e.parent? = some tag) : r.contains tag = true := by
  rw [(types_of_register hreg).1, List.mem_append, List.mem_singleton] at he
  rcases he with he | rfl
  · exact h.contains_parent e he tag htag
  · exact hparent tag htag

/-- Nothing extends the new type, and the others extend what they have extended. -/
theorem Rooted.of_extends {tag parent : String} (hextends : r'.Extends tag parent) :
    parent ≠ d.tag ∧ (tag ≠ d.tag → r.Extends tag parent) := by
  obtain ⟨e, he, htag⟩ := Option.bind_eq_some_iff.1 hextends
  refine ⟨?_, fun hne => ?_⟩
  · exact ne_tag_of_register hreg (h.contains_of_parent? hreg hparent (mem_of_get? he).1 htag)
  · rw [get?_of_register hreg, if_neg hne] at he
    exact Option.bind_eq_some_iff.2 ⟨e, he, htag⟩

/-- The ways from the types that were there do not come through the new one. -/
theorem Rooted.of_transGen_extends {tag target : String} (htag : tag ≠ d.tag)
    (hway : Relation.TransGen r'.Extends tag target) :
    target ≠ d.tag ∧ Relation.TransGen r.Extends tag target := by
  induction hway with
  | single hstep =>
    obtain ⟨hne, hstep⟩ := h.of_extends hreg hparent hstep
    exact ⟨hne, .single (hstep htag)⟩
  | tail _ hstep ih =>
    obtain ⟨hne, hstep⟩ := h.of_extends hreg hparent hstep
    exact ⟨hne, ih.2.tail (hstep ih.1)⟩

/-- A registry keeps all its parents with a new type whose own is registered. -/
theorem Rooted.register : r'.Rooted := by
  refine ⟨?_, ?_, ?_⟩
  · intro e he tag htag
    have hold := h.contains_of_parent? hreg hparent he htag
    exact (contains_of_register hreg tag).2 (.inl hold)
  · intro e he tag parent htag hget
    have hold := h.contains_of_parent? hreg hparent he htag
    rw [get?_of_register hreg, if_neg (ne_tag_of_register hreg hold)] at hget
    rw [(types_of_register hreg).1, List.mem_append, List.mem_singleton] at he
    rcases he with he | rfl
    · exact h.starts e he tag parent htag hget
    · obtain ⟨-, -, hcheck, -⟩ := register_eq_ok_iff.1 hreg
      exact startsWithFieldsOf_iff.1 (checkParent_eq_ok_iff.1 hcheck tag htag parent hget)
  · intro tag hround
    obtain ⟨t, -, hstep⟩ := Relation.TransGen.tail'_iff.1 hround
    have htag := (h.of_extends hreg hparent hstep).1
    exact h.acyclic tag (h.of_transGen_extends hreg hparent htag hround).2

end

end TagWire.Registry
