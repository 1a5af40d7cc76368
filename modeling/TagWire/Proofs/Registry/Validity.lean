import TagWire.Proofs.Registry.Consistency
import TagWire.Proofs.Registry.Inheritance
import TagWire.Registry.Validation

/-!
# What validation finds

A registered type is `Registry.InOrder` if its parent is registered and compatible, its parents do
not go round in a circle, and every tag that is mentioned in its fields, at any depth, is
registered. Otherwise it has a `Registry.Defect`, of which there may be several. Validation succeeds
exactly if all types are in order, and else reports a defect of the first type that is not, in the
order of registration (`Registry.Reachable.validate_iff`).
-/

namespace TagWire

/-- Whether a tag stands in a kind, at any depth of lists and maps. -/
inductive FieldKind.Mentions : FieldKind → String → Prop
  | nested (tag : String) : Mentions (.nested tag) tag
  | list {element : Field} {tag : String} : Mentions element.kind tag → Mentions (.list element) tag
  | key {key value : Field} {tag : String} : Mentions key.kind tag → Mentions (.map key value) tag
  | value {key value : Field} {tag : String} :
      Mentions value.kind tag → Mentions (.map key value) tag

/-- Exactly the tags that stand in a kind are listed. -/
theorem FieldKind.mem_references_iff {k : FieldKind} {tag : String} :
    tag ∈ k.references ↔ k.Mentions tag := by
  refine ⟨?_, ?_⟩
  · intro h
    fun_induction FieldKind.references k with
    | case1 t =>
      rw [List.mem_singleton.1 h]
      exact .nested t
    | case2 _ element _ ih => exact .list (ih h)
    | case3 _ key _ _ value _ ihk ihv =>
      rcases List.mem_append.1 h with h | h
      · exact .key (ihk h)
      · exact .value (ihv h)
    | case4 => cases h
  · intro h
    induction h with
    | nested t => exact List.mem_singleton_self t
    | list _ ih => rwa [references_list]
    | key _ ih =>
      rw [references_map]
      exact List.mem_append_left _ ih
    | value _ ih =>
      rw [references_map]
      exact List.mem_append_right _ ih

namespace Registry

/-! ## Types in order -/

/-- Whether nothing is wrong with a registered type. -/
structure InOrder (r : Registry) (d : Descriptor) : Prop where
  /-- A parent that is named is registered. -/
  contains_parent {tag : String} : d.parent? = some tag → r.contains tag = true
  /-- The fields start with those of the parent. -/
  starts {tag : String} {parent : Descriptor} : d.parent? = some tag → r.get? tag = some parent →
    parent.fields <+: d.fields
  /-- The parents do not come back to one that has been there. -/
  not_circular : ¬r.Circular d.tag
  /-- What the fields refer to is registered. -/
  contains_mentioned {f : Field} {tag : String} : f ∈ d.fields → f.kind.Mentions tag →
    r.contains tag = true

/-- What may be wrong with a registered type, and the error that reports it. -/
inductive Defect (r : Registry) (d : Descriptor) : RegistryError → Prop
  | unknownParent {tag : String} : d.parent? = some tag → r.contains tag = false →
      Defect r d (.unknownParent d.tag tag)
  | incompatibleParent {tag : String} {parent : Descriptor} : d.parent? = some tag →
      r.get? tag = some parent → ¬parent.fields <+: d.fields →
      Defect r d (.incompatibleParent d.tag tag)
  | circular : r.Circular d.tag → Defect r d (.invalidDescriptor d.tag .inheritanceCycle)
  | unresolved {f : Field} {tag : String} : f ∈ d.fields → f.kind.Mentions tag →
      r.contains tag = false → Defect r d (.unresolvedReference d.tag f.name tag)

variable {r : Registry} {d : Descriptor}

/-- A type is in order if it has no defect. -/
theorem inOrder_iff : r.InOrder d ↔ ∀ e, ¬r.Defect d e := by
  refine ⟨?_, ?_⟩
  · intro h e he
    cases he with
    | unknownParent hparent hnot =>
      rw [h.contains_parent hparent] at hnot
      cases hnot
    | incompatibleParent hparent hget hnot => exact hnot (h.starts hparent hget)
    | circular hround => exact h.not_circular hround
    | unresolved hf hmention hnot =>
      rw [h.contains_mentioned hf hmention] at hnot
      cases hnot
  · intro h
    refine ⟨fun hparent => ?_, fun hparent hget => ?_, fun hround => h _ (.circular hround),
      fun hf hmention => ?_⟩
    · exact Bool.of_not_eq_false fun hnot => h _ (.unknownParent hparent hnot)
    · exact Classical.not_not.1 fun hnot => h _ (.incompatibleParent hparent hget hnot)
    · exact Bool.of_not_eq_false fun hnot => h _ (.unresolved hf hmention hnot)

/-! ## The check of one type -/

/-- The fields of a type start with those of another exactly if they are a continuation of them. -/
theorem startsWithFieldsOf_iff {parent : Descriptor} :
    d.startsWithFieldsOf parent = true ↔ parent.fields <+: d.fields :=
  List.isPrefixOf_iff_prefix

/-- A field refers to nothing unknown if every tag that stands in it is registered. -/
theorem unresolved?_eq_none_iff {f : Field} :
    r.unresolved? f = none ↔ ∀ tag, f.kind.Mentions tag → r.contains tag = true := by
  simp [unresolved?, FieldKind.mem_references_iff]

/-- The tag that a field is reported for stands in it and is not registered. -/
theorem of_unresolved?_eq_some {f : Field} {tag : String} (h : r.unresolved? f = some tag) :
    f.kind.Mentions tag ∧ r.contains tag = false :=
  ⟨FieldKind.mem_references_iff.1 (List.mem_of_find?_eq_some h),
    by simpa using List.find?_some h⟩

/-- References are in order if every tag that stands in a field is registered. -/
theorem checkReferences_eq_ok_iff {tag : String} {fs : List Field} :
    r.checkReferences tag fs = .ok () ↔
      ∀ f ∈ fs, ∀ target, f.kind.Mentions target → r.contains target = true := by
  induction fs with
  | nil => simp [checkReferences]
  | cons f fs ih =>
    rw [checkReferences, List.forall_mem_cons, ← unresolved?_eq_none_iff]
    cases r.unresolved? f with
    | none => simp [ih]
    | some target => simp

/-- The reference that is reported is one of a field, to a tag that is not registered. -/
theorem of_checkReferences_eq_error {tag : String} {fs : List Field} {e : RegistryError}
    (h : r.checkReferences tag fs = .error e) : ∃ f ∈ fs, ∃ target, f.kind.Mentions target ∧
      r.contains target = false ∧ e = .unresolvedReference tag f.name target := by
  induction fs with
  | nil => cases h
  | cons f fs ih =>
    rw [checkReferences] at h
    cases htarget : r.unresolved? f with
    | none =>
      rw [htarget] at h
      obtain ⟨g, hg, hrest⟩ := ih h
      exact ⟨g, List.mem_cons_of_mem f hg, hrest⟩
    | some target =>
      rw [htarget] at h
      cases h
      obtain ⟨hmention, hnot⟩ := of_unresolved?_eq_some htarget
      exact ⟨f, List.mem_cons_self .., target, hmention, hnot, rfl⟩

/-- What is reported about the parent of a type is wrong with it. -/
theorem defect_of_checkInheritance {e : RegistryError} (h : r.checkInheritance d = .error e) :
    r.Defect d e := by
  unfold checkInheritance at h
  split at h
  next => cases h
  next tag hparent =>
    split at h
    next hnone =>
      cases h
      exact .unknownParent hparent (by rw [contains, hnone]; rfl)
    next parent hget =>
      split at h
      next hnot =>
        cases h
        refine .incompatibleParent hparent hget fun hstarts => ?_
        rw [startsWithFieldsOf_iff.2 hstarts] at hnot
        cases hnot
      next =>
        split at h
        next hround =>
          cases h
          exact .circular (isCyclic_iff.1 hround)
        next => cases h

/-- If nothing is reported about the parent of a type, its parent is registered and compatible, and
its parents end. -/
theorem of_checkInheritance_eq_ok (hd : r.get? d.tag = some d) (h : r.checkInheritance d = .ok ()) :
    (∀ tag, d.parent? = some tag → ∃ parent, r.get? tag = some parent ∧
      parent.fields <+: d.fields) ∧ ¬r.Circular d.tag := by
  have hparent? : r.parent? d.tag = d.parent? := by rw [parent?, hd, Option.bind_some]
  unfold checkInheritance at h
  split at h
  next hnone =>
    refine ⟨fun tag htag => ?_, ?_⟩
    · rw [hnone] at htag
      cases htag
    · rw [← isCyclic_iff, isCyclic, Bool.not_eq_true', Bool.not_eq_false, chainEnds_eq_true_iff,
        ancestor?, hparent?, hnone, Option.bind_none]
  next tag htag =>
    split at h
    next => cases h
    next parent hget =>
      split at h
      next => cases h
      next hstarts =>
        split at h
        next => cases h
        next hround =>
          refine ⟨fun tag' htag' => ?_, fun hcircular => hround (isCyclic_iff.2 hcircular)⟩
          rw [htag] at htag'
          cases htag'
          exact ⟨parent, hget, startsWithFieldsOf_iff.1 (by simpa using hstarts)⟩

/-- What is reported about a type is wrong with it. -/
theorem defect_of_checkType {e : RegistryError} (h : r.checkType d = .error e) : r.Defect d e := by
  unfold checkType at h
  cases hinheritance : r.checkInheritance d with
  | error e' =>
    rw [hinheritance] at h
    cases h
    exact defect_of_checkInheritance hinheritance
  | ok _ =>
    rw [hinheritance] at h
    obtain ⟨f, hf, target, hmention, hnot, rfl⟩ := of_checkReferences_eq_error h
    exact .unresolved hf hmention hnot

/-- Nothing is reported about a registered type exactly if it is in order. -/
theorem checkType_eq_ok_iff (hd : r.get? d.tag = some d) :
    r.checkType d = .ok () ↔ r.InOrder d := by
  refine ⟨?_, ?_⟩
  · intro h
    unfold checkType at h
    cases hinheritance : r.checkInheritance d with
    | error e =>
      rw [hinheritance] at h
      cases h
    | ok _ =>
      rw [hinheritance] at h
      obtain ⟨hparent, hround⟩ := of_checkInheritance_eq_ok hd hinheritance
      refine ⟨fun htag => ?_, fun htag hget => ?_, hround, fun hf hmention =>
        checkReferences_eq_ok_iff.1 h _ hf _ hmention⟩
      · obtain ⟨parent, hget, -⟩ := hparent _ htag
        rw [contains, hget]
        rfl
      · obtain ⟨parent, hget', hstarts⟩ := hparent _ htag
        rw [hget] at hget'
        cases hget'
        exact hstarts
  · intro h
    cases hcheck : r.checkType d with
    | ok _ => rfl
    | error e => exact absurd (defect_of_checkType hcheck) (inOrder_iff.1 h e)

/-! ## The check of all types -/

/-- Types are in order if each of them is. -/
theorem checkTypes_eq_ok_iff {ds : List Descriptor} :
    r.checkTypes ds = .ok () ↔ ∀ d ∈ ds, r.checkType d = .ok () := by
  induction ds with
  | nil => simp [checkTypes]
  | cons d ds ih =>
    rw [checkTypes, List.forall_mem_cons, ← ih]
    cases r.checkType d <;> simp [bind, Except.bind]

/-- What is reported about types is what is reported about the first one that is not in order. -/
theorem of_checkTypes_eq_error {ds : List Descriptor} {e : RegistryError}
    (h : r.checkTypes ds = .error e) : ∃ before d after, ds = before ++ d :: after ∧
      (∀ b ∈ before, r.checkType b = .ok ()) ∧ r.checkType d = .error e := by
  induction ds with
  | nil => cases h
  | cons d ds ih =>
    rw [checkTypes] at h
    cases hcheck : r.checkType d with
    | error e' =>
      rw [hcheck] at h
      cases h
      exact ⟨[], d, ds, rfl, List.forall_mem_nil _, hcheck⟩
    | ok _ =>
      rw [hcheck] at h
      obtain ⟨before, d', after, rfl, hbefore, hd'⟩ := ih h
      exact ⟨d :: before, d', after, rfl, List.forall_mem_cons.2 ⟨hcheck, hbefore⟩, hd'⟩

/-! ## Validation -/

/-- Whatever a program has registered, validation succeeds exactly if every type is in order. What
it reports otherwise is wrong with a type, before which in the order of registration all types are
in order. -/
theorem Reachable.validate_iff {s : Tables} (h : Reachable r s) :
    (r.validate = .ok () ↔ ∀ d ∈ r.types, r.InOrder d) ∧
    ∀ e, r.validate = .error e → ∃ before d after, r.types = before ++ d :: after ∧
      (∀ b ∈ before, r.InOrder b) ∧ r.Defect d e := by
  have hcheck : ∀ d ∈ r.types, (r.checkType d = .ok () ↔ r.InOrder d) := fun d hd =>
    checkType_eq_ok_iff (h.sound.1.get?_eq_some_iff.2 ⟨hd, rfl⟩)
  refine ⟨checkTypes_eq_ok_iff.trans (forall₂_congr hcheck), fun e he => ?_⟩
  obtain ⟨before, d, after, htypes, hbefore, hd⟩ := of_checkTypes_eq_error he
  refine ⟨before, d, after, htypes, fun b hb => ?_, defect_of_checkType hd⟩
  have hmem : b ∈ r.types := htypes ▸ List.mem_append_left _ hb
  exact (hcheck b hmem).1 (hbefore b hb)

/-- A type of records without fields that extends another one. -/
def childOf (parent tag : String) : Descriptor :=
  ⟨tag, some parent, [], (Record.fresh ⟨tag, []⟩).toInstance⟩

/-- A type is reported whose parents go round in a circle, though it is not on the circle. -/
theorem validate_iff_visitor : ∃ (r : Registry) (s : Tables), Reachable r s ∧
    r.validate = .error (.invalidDescriptor "Visitor" .inheritanceCycle) ∧
    r.Circular "Visitor" := by
  have hreach := ((Reachable.empty.call (childOf "Guest" "Visitor")).call
    (childOf "Host" "Guest")).call (childOf "Guest" "Host")
  refine ⟨_, _, hreach, rfl, ?_⟩
  obtain ⟨_, d, _, -, -, hdefect⟩ := hreach.validate_iff.2
    (.invalidDescriptor "Visitor" .inheritanceCycle) rfl
  generalize hfault : RegistryError.invalidDescriptor "Visitor" .inheritanceCycle = e at hdefect
  cases hdefect with
  | circular hround =>
    injection hfault with htag
    rwa [← htag] at hround
  | _ => cases hfault

end Registry

end TagWire
