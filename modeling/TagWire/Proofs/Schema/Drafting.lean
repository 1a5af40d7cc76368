import Mathlib.Data.List.Duplicate
import TagWire.Schema.Descriptor

/-!
# Drafts that can be built

A draft that knows its fresh instances is built exactly if it is `Draft.InOrder`
(`Draft.fault?_eq_none_iff`). Otherwise it has a `Draft.Defect`, and the fault that is named is one
of them (`Draft.defect_of_fault?`).
-/

namespace TagWire.Draft

/-- Whether nothing is wrong with a draft but that it may not know its fresh instances. -/
structure InOrder (d : Draft) : Prop where
  tag_ne_empty : d.tag ≠ ""
  parent?_ne : d.parent? ≠ some d.tag
  name_ne_empty : "" ∉ d.fields.map Field.name
  nodup_names : (d.fields.map Field.name).Nodup

/-- What may be wrong with a draft, and the fault that names it. -/
inductive Defect (d : Draft) : DescriptorFault → Prop
  | emptyTag : d.tag = "" → Defect d .emptyTag
  | extendsItself : d.parent? = some d.tag → Defect d .extendsItself
  | emptyFieldName : "" ∈ d.fields.map Field.name → Defect d .emptyFieldName
  | duplicateField {name : String} : List.Duplicate name (d.fields.map Field.name) →
      Defect d (.duplicateField name)

/-! ## Names of fields -/

/-- There is no fault in names exactly if they are not empty, and apart from each other and from
those that have been seen. -/
theorem nameFault?_eq_none_iff {seen : List String} {fs : List Field} :
    nameFault? seen fs = none ↔ "" ∉ fs.map Field.name ∧ (fs.map Field.name).Nodup ∧
      ∀ name ∈ fs.map Field.name, name ∉ seen := by
  induction fs generalizing seen with
  | nil => simp [nameFault?]
  | cons f fs ih =>
    rw [nameFault?, List.map_cons, List.mem_cons, List.nodup_cons, List.forall_mem_cons]
    split
    next hempty => simp [beq_iff_eq.1 hempty]
    next hempty =>
      split
      next hseen => simp [List.contains_iff_mem.1 hseen]
      next hseen =>
        have hne : "" ≠ f.name := fun h => hempty (beq_iff_eq.2 h.symm)
        have hnew : f.name ∉ seen := fun h => hseen (List.contains_iff_mem.2 h)
        rw [ih]
        simp only [List.mem_cons, not_or, forall_and]
        grind

/-- A fault in names is that of a name that is empty, or that stands twice or has been seen. -/
theorem of_nameFault?_eq_some {seen : List String} {fs : List Field} {fault : DescriptorFault}
    (h : nameFault? seen fs = some fault) :
    fault = .emptyFieldName ∧ "" ∈ fs.map Field.name ∨
      ∃ name, fault = .duplicateField name ∧ (name ∈ seen ∧ name ∈ fs.map Field.name ∨
        List.Duplicate name (fs.map Field.name)) := by
  induction fs generalizing seen with
  | nil => cases h
  | cons f fs ih =>
    rw [nameFault?] at h
    split at h
    next hempty =>
      cases h
      exact .inl ⟨rfl, by simp [beq_iff_eq.1 hempty]⟩
    next =>
      split at h
      next hseen =>
        cases h
        exact .inr ⟨f.name, rfl, .inl ⟨List.contains_iff_mem.1 hseen, List.mem_cons_self ..⟩⟩
      next =>
        rcases ih h with ⟨rfl, hmem⟩ | ⟨name, rfl, ⟨hseen, hmem⟩ | hduplicate⟩
        · exact .inl ⟨rfl, List.mem_cons_of_mem _ hmem⟩
        · rcases List.mem_cons.1 hseen with rfl | hseen
          · exact .inr ⟨f.name, rfl, .inr (.cons_mem hmem)⟩
          · exact .inr ⟨name, rfl, .inl ⟨hseen, List.mem_cons_of_mem _ hmem⟩⟩
        · exact .inr ⟨name, rfl, .inr (.cons_duplicate hduplicate)⟩

/-! ## Faults -/

variable {d : Draft}

/-- A draft has no fault exactly if it is in order. -/
theorem fault?_eq_none_iff : d.fault? = none ↔ d.InOrder := by
  unfold fault?
  refine ⟨?_, ?_⟩
  · intro h
    split at h
    next => cases h
    next htag =>
      split at h
      next => cases h
      next hparent =>
        obtain ⟨hempty, hnodup, -⟩ := nameFault?_eq_none_iff.1 h
        exact ⟨by simpa using htag, by simpa using hparent, hempty, hnodup⟩
  · intro h
    rw [if_neg (by simpa using h.tag_ne_empty), if_neg (by simpa using h.parent?_ne)]
    exact nameFault?_eq_none_iff.2 ⟨h.name_ne_empty, h.nodup_names, fun _ _ => List.not_mem_nil⟩

/-- The fault that is named is one that the draft has. -/
theorem defect_of_fault? {fault : DescriptorFault} (h : d.fault? = some fault) :
    d.Defect fault := by
  unfold fault? at h
  split at h
  next htag =>
    cases h
    exact .emptyTag (beq_iff_eq.1 htag)
  next =>
    split at h
    next hparent =>
      cases h
      exact .extendsItself (beq_iff_eq.1 hparent)
    next =>
      rcases of_nameFault?_eq_some h with ⟨rfl, hmem⟩ | ⟨name, rfl, ⟨hseen, -⟩ | hduplicate⟩
      · exact .emptyFieldName hmem
      · cases hseen
      · exact .duplicateField hduplicate

/-- What has been built is in order, and has the tag and the fields of its draft. -/
theorem inOrder_of_build {draft : Draft} {d : Descriptor} (h : draft.build = .ok d) :
    draft.InOrder ∧ d.tag = draft.tag ∧ d.fields = draft.fields := by
  unfold build at h
  split at h
  · cases h
  · cases h
  next hfault _ =>
    cases h
    exact ⟨fault?_eq_none_iff.1 hfault, rfl, rfl⟩

/-- A draft that asks for records is built unless it has a fault. -/
theorem build_withRecords (d : Draft) : d.withRecords.build =
    match d.fault? with
    | some fault => .error (.invalidDescriptor d.tag fault)
    | none => .ok ⟨d.tag, d.parent?, d.fields, (Record.fresh ⟨d.tag, d.fields⟩).toInstance⟩ := by
  have hfault : d.withRecords.fault? = d.fault? := rfl
  rw [build, hfault]
  cases d.fault? <;> rfl

end TagWire.Draft
