import TagWire.Proofs.Catalog.Resolution
import TagWire.Proofs.Registry.Native
import TagWire.Proofs.Registry.Rooted
import TagWire.Proofs.Schema.Drafting

/-!
# What an entry of a catalog declares

In a registry that has its parent, an entry of a catalog declares at most one type: its fields are
those of the parent and then its own, its fresh instances are records (`TypeEntry.Declares`). Such a
type always goes with its parent and never gets in the way of a type that makes entities, so the
registry refuses it for its tag alone (`TypeEntry.Declares.register_eq`). Together with what the
draft of the type and its spelled field types may lack, this is all that an entry is ever
`TypeEntry.Refused` for.
-/

namespace TagWire

/-! ## Fields -/

/-- An entry declares the field that has its name and the kind that its type means. It allows null
if the type or the entry does. -/
theorem FieldEntry.resolve_eq_ok_iff {tag : String} {f : FieldEntry} {g : Field} :
    f.resolve tag = .ok g ↔ ∃ kind nullable, f.type.Means f.name kind nullable ∧
      g = ⟨f.name, kind, nullable || f.nullable⟩ := by
  simp only [← TypeSpec.resolve_eq_ok_iff]
  unfold resolve
  split
  next kind nullable h =>
    refine ⟨?_, ?_⟩
    · intro hg
      cases hg
      exact ⟨kind, nullable, h, rfl⟩
    · rintro ⟨_, _, hmeans, rfl⟩
      cases h.symm.trans hmeans
      rfl
  next fault h => simp [h]

/-- The field that an entry declares has its name. -/
theorem FieldEntry.name_of_resolve {tag : String} {f : FieldEntry} {g : Field}
    (h : f.resolve tag = .ok g) : g.name = f.name := by
  obtain ⟨_, _, -, rfl⟩ := resolve_eq_ok_iff.1 h
  rfl

/-- An entry declares a field exactly if a type can be made of what it spells. -/
theorem FieldEntry.exists_resolve_iff {tag : String} {f : FieldEntry} :
    (∃ g, f.resolve tag = .ok g) ↔ f.type.Resolvable := by
  have htype : (∃ k, f.type.resolve f.name = .ok k) ↔ f.type.Resolvable :=
    TypeSpec.exists_resolve_iff
  rw [← htype, resolve]
  cases f.type.resolve f.name <;> simp

/-- An entry that declares no field is refused for what it spells. -/
theorem FieldEntry.of_resolve_eq_error {tag : String} {f : FieldEntry} {e : CatalogError}
    (h : f.resolve tag = .error e) :
    ∃ fault, f.type.resolve f.name = .error fault ∧ e = .invalidType tag f.name fault := by
  unfold resolve at h
  split at h
  next => cases h
  next fault hfault =>
    cases h
    exact ⟨fault, hfault, rfl⟩

/-! ## Declared types -/

/-- The draft that a type is built of, without its fresh instances. -/
def Descriptor.draft (d : Descriptor) : Draft := ⟨d.tag, d.parent?, d.fields, none⟩

namespace TypeEntry

/-- The fields that a type inherits. They are not known if the type that it extends is not. -/
def inherited? (t : TypeEntry) (r : Registry) : Option (List Field) :=
  match t.extends? with
  | none => some []
  | some parentTag => (r.get? parentTag).map Descriptor.fields

/-- Whether an entry declares a type: its tag and parent are the type's, the fields are the
inherited ones and then those that the entry spells, in order, and fresh instances are records. -/
structure Declares (t : TypeEntry) (r : Registry) (d : Descriptor) : Prop where
  tag_eq : d.tag = t.tag
  parent?_eq : d.parent? = t.extends?
  fields_eq : ∃ inherited own, t.inherited? r = some inherited ∧
    List.Forall₂ (fun f g => f.resolve t.tag = .ok g) t.fields own ∧ d.fields = inherited ++ own
  ofRecords : d.OfRecords

/-- What an entry may be refused for, and the error that reports it. -/
inductive Refused (t : TypeEntry) (r : Registry) : CatalogError → Prop
  | unknownParent {parentTag : String} : t.extends? = some parentTag →
      r.contains parentTag = false → Refused t r (.registry (.unknownParent t.tag parentTag))
  | invalidType {f : FieldEntry} {fault : TypeFault} : f ∈ t.fields →
      f.type.resolve f.name = .error fault → Refused t r (.invalidType t.tag f.name fault)
  | invalidDescriptor {d : Descriptor} {fault : DescriptorFault} : t.Declares r d →
      d.draft.Defect fault → Refused t r (.registry (.invalidDescriptor t.tag fault))
  | duplicateType : r.contains t.tag = true → Refused t r (.registry (.duplicateType t.tag))

variable {t : TypeEntry} {r r' : Registry} {d : Descriptor}

/-! ### Which types are declared -/

/-- An entry inherits nothing, or the fields of its parent. -/
theorem inherited?_eq_some_iff {inherited : List Field} : t.inherited? r = some inherited ↔
    t.extends? = none ∧ inherited = [] ∨ ∃ parentTag parent, t.extends? = some parentTag ∧
      r.get? parentTag = some parent ∧ inherited = parent.fields := by
  unfold inherited?
  cases t.extends? with
  | none => simp [eq_comm]
  | some parentTag => simp [eq_comm]

/-- An entry does not know what it inherits exactly if its parent is not registered. -/
theorem inherited?_eq_none_iff : t.inherited? r = none ↔
    ∃ parentTag, t.extends? = some parentTag ∧ r.contains parentTag = false := by
  unfold inherited?
  cases t.extends? with
  | none => simp
  | some parentTag => simp [Registry.contains]

/-- An entry that knows what it inherits and has a type for each field declares a type. -/
theorem declares_of_fields {inherited own : List Field}
    (hinherited : t.inherited? r = some inherited)
    (hown : List.Forall₂ (fun f g => f.resolve t.tag = .ok g) t.fields own) :
    t.Declares r ⟨t.tag, t.extends?, inherited ++ own,
      (Record.fresh ⟨t.tag, inherited ++ own⟩).toInstance⟩ :=
  ⟨rfl, rfl, ⟨inherited, own, hinherited, hown, rfl⟩, rfl⟩

/-- An entry declares a type exactly if its parent is registered and each of its fields has a type.
-/
theorem exists_declares_iff : (∃ d, t.Declares r d) ↔
    (∀ parentTag, t.extends? = some parentTag → r.contains parentTag = true) ∧
      ∀ f ∈ t.fields, f.type.Resolvable := by
  have hparent : (∀ parentTag, t.extends? = some parentTag → r.contains parentTag = true) ↔
      t.inherited? r ≠ none := by
    simp [inherited?_eq_none_iff]
  rw [hparent, Option.ne_none_iff_exists']
  refine ⟨fun h => ?_, fun h => ?_⟩
  · obtain ⟨d, -, -, ⟨inherited, own, hinherited, hown, -⟩, -⟩ := h
    refine ⟨⟨inherited, hinherited⟩, fun f hf => ?_⟩
    obtain ⟨g, -, hg⟩ := List.Forall₂.exists_of_mem_left hown hf
    exact FieldEntry.exists_resolve_iff.1 ⟨g, hg⟩
  · obtain ⟨⟨inherited, hinherited⟩, htypes⟩ := h
    obtain ⟨own, hown⟩ := exists_forall₂ fun f hf =>
      FieldEntry.exists_resolve_iff.2 (htypes f hf)
    exact ⟨_, declares_of_fields hinherited hown⟩

/-- The names of the fields are those of the parent, if there is one, and then those in the entry.
-/
theorem Declares.names_eq (h : t.Declares r d) :
    t.extends? = none ∧ d.fields.map Field.name = t.fields.map FieldEntry.name ∨
      ∃ parentTag parent, t.extends? = some parentTag ∧ r.get? parentTag = some parent ∧
        d.fields.map Field.name =
          parent.fields.map Field.name ++ t.fields.map FieldEntry.name := by
  obtain ⟨inherited, own, hinherited, hown, hfields⟩ := h.fields_eq
  have hnames := List.Forall₂.map_eq hown fun _ _ => FieldEntry.name_of_resolve
  rw [hfields, List.map_append, hnames]
  refine (inherited?_eq_some_iff.1 hinherited).imp ?_ ?_
  · rintro ⟨hextends, rfl⟩
    exact ⟨hextends, rfl⟩
  · rintro ⟨parentTag, parent, hextends, hget, rfl⟩
    exact ⟨parentTag, parent, hextends, hget, rfl⟩

/-- The names of the fields are those of a known parent and then those in the entry. -/
theorem Declares.names_of_parent (h : t.Declares r d) {parentTag : String} {parent : Descriptor}
    (hextends : t.extends? = some parentTag) (hget : r.get? parentTag = some parent) :
    d.fields.map Field.name =
      parent.fields.map Field.name ++ t.fields.map FieldEntry.name := by
  rcases h.names_eq with ⟨hnone, -⟩ | ⟨_, _, hextends', hget', hnames⟩
  · rw [hextends] at hnone
    cases hnone
  · rw [hextends] at hextends'
    cases hextends'
    rw [hget] at hget'
    cases hget'
    exact hnames

/-- An entry declares the same type in another registry in which its parent is the same. -/
theorem Declares.of_parent (h : t.Declares r d) (hparent : ∀ parentTag parent,
    t.extends? = some parentTag → r.get? parentTag = some parent →
      r'.get? parentTag = some parent) : t.Declares r' d := by
  obtain ⟨inherited, own, hinherited, hown, hfields⟩ := h.fields_eq
  refine ⟨h.tag_eq, h.parent?_eq, ⟨inherited, own, ?_, hown, hfields⟩, h.ofRecords⟩
  refine inherited?_eq_some_iff.2 ((inherited?_eq_some_iff.1 hinherited).imp_right ?_)
  rintro ⟨parentTag, parent, hextends, hget, hfields⟩
  exact ⟨parentTag, parent, hextends, hparent parentTag parent hextends hget, hfields⟩

/-- An entry declares the same type in a registry that has grown. -/
theorem Declares.of_grown (h : t.Declares r d) (hgrown : r.types <+: r'.types) :
    t.Declares r' d :=
  h.of_parent fun _ _ _ => Registry.get?_of_grown hgrown

/-! ### How they are built -/

/-- The draft of a type starts with what it inherits. -/
theorem start_of_inherited? {inherited : List Field} (h : t.inherited? r = some inherited) :
    t.start r = .ok ⟨t.tag, t.extends?, inherited, none⟩ := by
  unfold start
  rcases inherited?_eq_some_iff.1 h with ⟨hextends, rfl⟩ | ⟨parentTag, parent, hextends, hget, rfl⟩
  · rw [hextends]
  · obtain ⟨-, rfl⟩ := Registry.mem_of_get? hget
    rw [hextends]
    dsimp only
    rw [hget]
    simp [Draft.extending]

/-- There is no draft of a type that does not know what it inherits. -/
theorem start_of_inherited?_eq_none (h : t.inherited? r = none) :
    ∃ e, t.start r = .error e ∧ t.Refused r e := by
  obtain ⟨parentTag, hextends, hnot⟩ := inherited?_eq_none_iff.1 h
  have hget : r.get? parentTag = none := by simpa [Registry.contains] using hnot
  refine ⟨_, ?_, .unknownParent hextends hnot⟩
  rw [start, hextends]
  dsimp only
  rw [hget]

/-- A declared type is what is built of the entry, unless its draft has a fault. -/
theorem Declares.descriptor_eq (h : t.Declares r d) : t.descriptor r =
    match d.draft.fault? with
    | some fault => .error (.registry (.invalidDescriptor t.tag fault))
    | none => .ok d := by
  obtain ⟨inherited, own, hinherited, hown, hfields⟩ := h.fields_eq
  have hdraft : Draft.withFields ⟨t.tag, t.extends?, inherited, none⟩ own = d.draft := by
    rw [Descriptor.draft, h.tag_eq, h.parent?_eq, hfields]
    rfl
  have hrecords : (Record.fresh ⟨d.tag, d.fields⟩).toInstance = d.prototype := h.ofRecords.symm
  rw [descriptor, start_of_inherited? hinherited, Except.mapM_eq_ok_iff.2 hown]
  show (Draft.withFields _ own).withRecords.build.mapError _ = _
  rw [hdraft, Draft.build_withRecords, ← h.tag_eq]
  cases d.draft.fault? with
  | some fault => rfl
  | none =>
    dsimp only [Descriptor.draft]
    rw [hrecords]
    rfl

/-- An entry declares a type, or nothing is built of it. -/
theorem declares_or_refused (t : TypeEntry) (r : Registry) :
    (∃ d, t.Declares r d) ∨ ∃ e, t.descriptor r = .error e ∧ t.Refused r e := by
  cases hinherited : t.inherited? r with
  | none =>
    obtain ⟨e, hstart, he⟩ := start_of_inherited?_eq_none hinherited
    exact .inr ⟨e, by rw [descriptor, hstart]; rfl, he⟩
  | some inherited =>
    cases hown : t.fields.mapM (FieldEntry.resolve t.tag) with
    | ok own => exact .inl ⟨_, declares_of_fields hinherited (Except.mapM_eq_ok_iff.1 hown)⟩
    | error e =>
      refine .inr ⟨e, by rw [descriptor, start_of_inherited? hinherited, hown]; rfl, ?_⟩
      obtain ⟨f, hf, hresolve⟩ := Except.of_mapM_eq_error hown
      obtain ⟨fault, hfault, rfl⟩ := FieldEntry.of_resolve_eq_error hresolve
      exact .invalidType hf hfault

/-! ### How they are registered -/

/-- A declared type starts with the fields of its parent. -/
theorem Declares.checkParent_eq_ok (h : t.Declares r d) : r.checkParent d = .ok () := by
  obtain ⟨inherited, own, hinherited, -, hfields⟩ := h.fields_eq
  rw [Registry.checkParent_eq_ok_iff, h.parent?_eq]
  intro tag htag parent hget
  rw [inherited?, htag] at hinherited
  obtain ⟨parent', hget', rfl⟩ := Option.map_eq_some_iff.1 hinherited
  obtain rfl : parent = parent' := Option.some.inj (hget.symm.trans hget')
  rw [Registry.startsWithFieldsOf_iff, hfields]
  exact List.prefix_append ..

/-- A declared type makes records of its own tag. -/
theorem Declares.checkPrototype_eq_ok (h : t.Declares r d) : r.checkPrototype d = .ok () := by
  have hrecords : d.prototype = (Record.fresh ⟨d.tag, d.fields⟩).toInstance := h.ofRecords
  rw [Registry.checkPrototype_eq_ok_iff, Descriptor.KeepsTag, hrecords]
  refine ⟨fun tag htag => ?_, fun e he => ?_⟩
  · cases htag
    rfl
  · cases he

/-- A declared type is refused for its tag alone. -/
theorem Declares.register_eq (h : t.Declares r d) : r.register d =
    if r.contains t.tag = true then .error (.duplicateType t.tag)
    else .ok ⟨r.types ++ [d]⟩ := by
  rw [Registry.register, h.checkParent_eq_ok, h.checkPrototype_eq_ok, h.tag_eq]
  rfl

/-- An entry is registered exactly if the type that it declares is in order and its tag is new. -/
theorem register_eq_ok_iff : t.register r = .ok r' ↔
    ∃ d, t.Declares r d ∧ d.draft.InOrder ∧ r.register d = .ok r' := by
  refine ⟨fun h => ?_, fun h => ?_⟩
  · obtain ⟨d, hdescriptor, hregister⟩ := Except.bind_eq_ok.1 h
    have hd : r.register d = .ok r' := Except.mapError_eq_ok.1 hregister
    rcases declares_or_refused t r with ⟨d', hd'⟩ | ⟨e, he, -⟩
    · rw [hd'.descriptor_eq] at hdescriptor
      cases hfault : d'.draft.fault? with
      | some fault =>
        rw [hfault] at hdescriptor
        cases hdescriptor
      | none =>
        rw [hfault] at hdescriptor
        cases hdescriptor
        exact ⟨d, hd', Draft.fault?_eq_none_iff.1 hfault, hd⟩
    · rw [he] at hdescriptor
      cases hdescriptor
  · obtain ⟨d, hd, horder, hregister⟩ := h
    rw [register, hd.descriptor_eq, Draft.fault?_eq_none_iff.2 horder]
    exact Except.mapError_eq_ok.2 hregister

/-- What is reported about an entry that is not registered is wrong with it. -/
theorem refused_of_register {e : CatalogError} (h : t.register r = .error e) : t.Refused r e := by
  rcases declares_or_refused t r with ⟨d, hd⟩ | ⟨e', hdescriptor, he⟩
  · rw [register, hd.descriptor_eq] at h
    cases hfault : d.draft.fault? with
    | some fault =>
      rw [hfault] at h
      cases h
      exact .invalidDescriptor hd (Draft.defect_of_fault? hfault)
    | none =>
      rw [hfault] at h
      replace h : (r.register d).mapError CatalogError.registry = .error e := h
      rw [hd.register_eq] at h
      split at h
      next hcontains =>
        cases h
        exact .duplicateType hcontains
      next => cases h
  · rw [register, hdescriptor] at h
    cases h
    exact he

end TypeEntry

end TagWire
