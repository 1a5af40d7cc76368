import TagWire.Proofs.Codec.Simulation
import TagWire.Proofs.Registry.Validity

/-!
# The order of registration

What is found in a sound registry is told by membership (`Registry.Sound.get?_eq_some_iff`), so the
order of its types is of no account to lookups, to chains of parents, and to codecs. It is of some
account to registration: a parent is checked if it is there before its child, and by validation
otherwise. Types pass both in one order exactly if they pass both in any other, namely if together
they make a sound registry that is valid (`Registry.registerAll_validate_iff`).
-/

namespace TagWire

open TagWire.Localization (EntityType)

namespace Registry

/-! ## Chains of parents -/

section
variable {r r' : Registry} (hparent : ∀ tag, r'.parent? tag = r.parent? tag)
include hparent

/-- Where parents lead depends on nothing but parents. -/
theorem reaches_congr (n : Nat) (tag target : String) :
    r'.reaches n tag target = r.reaches n tag target := by
  induction n generalizing tag with
  | zero => rfl
  | succ n ih => simp only [reaches, hparent, ih]

/-- Whether parents come to an end depends on nothing but parents. -/
theorem chainEnds_congr (n : Nat) (tag : String) : r'.chainEnds n tag = r.chainEnds n tag := by
  induction n generalizing tag with
  | zero => simp only [chainEnds, hparent]
  | succ n ih => simp only [chainEnds, hparent, ih]

/-- Types stand in the same places of registries with the same parents. -/
theorem isAssignable_congr (hsize : r'.size = r.size) (concrete declared : String) :
    r'.isAssignable concrete declared = r.isAssignable concrete declared := by
  rw [isAssignable, isAssignable, hsize, reaches_congr hparent]

end

/-! ## Registries of the same types -/

section
variable {r r' : Registry} (h : r.Sound) (hperm : r.types.Perm r'.types)
include h hperm

/-- A tag leads to the same type. -/
theorem get?_perm (tag : String) : r'.get? tag = r.get? tag :=
  Option.ext fun d => by
    rw [(h.perm hperm).get?_eq_some_iff, h.get?_eq_some_iff, hperm.mem_iff]

/-- A localization type is bound to the same tag. -/
theorem bindingOf?_perm (t : EntityType) : r'.bindingOf? t = r.bindingOf? t :=
  Option.ext fun tag => by
    simp only [(h.perm hperm).bindingOf?_eq_some_iff, h.bindingOf?_eq_some_iff, hperm.mem_iff]

/-- A tag is looked up with the same result. -/
theorem lookup_perm (tag : String) : r'.lookup tag = r.lookup tag := by
  rw [lookup, lookup, get?_perm h hperm]

/-- An instance is looked up with the same result. -/
theorem lookupInstance_perm (i : Instance) : r'.lookupInstance i = r.lookupInstance i := by
  have hget : r'.get? = r.get? := funext (get?_perm h hperm)
  cases i <;> simp only [lookupInstance, descriptorOf?, hget, bindingOf?_perm h hperm]

/-- A type has the same parent. -/
theorem parent?_perm (tag : String) : r'.parent? tag = r.parent? tag := by
  rw [parent?, parent?, get?_perm h hperm]

/-- Types stand in the same places. -/
theorem isAssignable_perm (concrete declared : String) :
    r'.isAssignable concrete declared = r.isAssignable concrete declared :=
  isAssignable_congr (parent?_perm h hperm) hperm.length_eq.symm concrete declared

/-- Types stand in the same places, whatever is excused. -/
theorem assignsLike_perm (excused : CodecError → Prop) : r.AssignsLike r' excused :=
  fun tag declared => .inl (isAssignable_perm h hperm tag declared)

/-- An instance has the same message, or the same error. -/
theorem encode_perm (l : Limits) (i : Instance) :
    (Codec.mk r' l).encode i = (Codec.mk r l).encode i :=
  (encode_agrees (fun i => lookupInstance_perm h hperm i ▸ .refl _) (assignsLike_perm h hperm _) l
    i).eq.symm

/-- The same message is found at the front of some bytes, or the same error. -/
theorem decodePrefix_perm (l : Limits) (bytes : List UInt8) :
    (Codec.mk r' l).decodePrefix bytes = (Codec.mk r l).decodePrefix bytes :=
  (decodePrefix_agrees (fun tag => lookup_perm h hperm tag ▸ .refl _) (assignsLike_perm h hperm _) l
    bytes).eq.symm

/-- Bytes are the same message, or the same error. -/
theorem decode_perm (l : Limits) (bytes : List UInt8) :
    (Codec.mk r' l).decode bytes = (Codec.mk r l).decode bytes :=
  (decode_agrees (fun tag => lookup_perm h hperm tag ▸ .refl _) (assignsLike_perm h hperm _) l
    bytes).eq.symm

/-! ## Validation -/

/-- The same is wrong with the references of a type. -/
theorem checkReferences_perm (tag : String) (fs : List Field) :
    r'.checkReferences tag fs = r.checkReferences tag fs := by
  have hcontains : r'.contains = r.contains :=
    funext fun tag => by rw [contains, contains, get?_perm h hperm]
  induction fs with
  | nil => rfl
  | cons f fs ih => simp only [checkReferences, unresolved?, hcontains, ih]

/-- The same is wrong with a type. -/
theorem checkType_perm (d : Descriptor) : r'.checkType d = r.checkType d := by
  have hcyclic (tag : String) : r'.isCyclic tag = r.isCyclic tag := by
    rw [isCyclic, isCyclic, chainEnds_congr (parent?_perm h hperm), size, ← hperm.length_eq, size]
  simp only [checkType, checkInheritance, get?_perm h hperm, hcyclic, checkReferences_perm h hperm]

end

variable {r : Registry}

/-- A type that is in order passes the check of its parent at registration. -/
theorem checkParent_of_checkType {d : Descriptor} (hd : r.checkType d = .ok ()) :
    r.checkParent d = .ok () := by
  have hinheritance : r.checkInheritance d = .ok () := by
    cases hi : r.checkInheritance d with
    | error e => simp [checkType, hi, bind, Except.bind] at hd
    | ok _ => rfl
  refine checkParent_eq_ok_iff.2 fun tag htag parent hparent => ?_
  simp only [checkInheritance, htag, hparent] at hinheritance
  cases hfields : d.startsWithFieldsOf parent with
  | true => rfl
  | false => simp [hfields] at hinheritance

/-- Types are registered behind others if together they are sound and no parent is incompatible. -/
theorem registerAll_of_checkParent {ds : List Descriptor}
    (hsound : Sound ⟨r.types ++ ds⟩) (hparents : ∀ d ∈ ds, checkParent ⟨r.types ++ ds⟩ d = .ok ()) :
    r.registerAll ds = (⟨r.types ++ ds⟩, .ok ()) := by
  induction ds generalizing r with
  | nil => rw [List.append_nil, registerAll]
  | cons d ds ih =>
    have hassoc : r.types ++ d :: ds = (⟨r.types ++ [d]⟩ : Registry).types ++ ds := by simp
    have hreg : r.register d = .ok ⟨r.types ++ [d]⟩ := by
      refine register_eq_ok_iff.2 ⟨?_, hsound.keepsTag d (by simp), ?_, rfl⟩
      · exact fun e he => (List.pairwise_append.1 hsound.apart).2.2 e he d (List.mem_cons_self ..)
      · -- A parent that is there already is among all types, too.
        refine checkParent_eq_ok_iff.2 fun tag htag parent hparent => ?_
        have hmem : parent ∈ r.types := List.mem_of_find?_eq_some hparent
        have hparent : parent.tag = tag := by simpa using List.find?_some hparent
        exact checkParent_eq_ok_iff.1 (hparents d (List.mem_cons_self ..)) tag htag parent
          (hsound.get?_eq_some_iff.2 ⟨List.mem_append_left _ hmem, hparent⟩)
    rw [hassoc] at hsound hparents ⊢
    exact registerAll_cons_eq_ok.2 ⟨_, hreg,
      ih hsound fun e he => hparents e (List.mem_cons_of_mem _ he)⟩

/-- Types can be registered and are valid exactly if together they are sound and valid. -/
theorem registerAll_validate_iff {ds : List Descriptor} :
    (∃ r, registerAll ∅ ds = (r, .ok ()) ∧ r.validate = .ok ()) ↔
      Sound ⟨ds⟩ ∧ validate ⟨ds⟩ = .ok () := by
  refine ⟨?_, ?_⟩
  · intro h
    obtain ⟨⟨types⟩, hds, hvalid⟩ := h
    obtain rfl : types = ds := types_registerAll hds
    exact ⟨sound_empty.registerAll hds, hvalid⟩
  · intro h
    obtain ⟨hsound, hvalid⟩ := h
    exact ⟨⟨ds⟩, registerAll_of_checkParent hsound fun d hd =>
      checkParent_of_checkType (checkTypes_eq_ok_iff.1 hvalid d hd), hvalid⟩

/-- Types that are valid in one order are valid in another. -/
theorem Sound.validate_perm {r' : Registry} (h : r.Sound) (hperm : r.types.Perm r'.types)
    (hvalid : r.validate = .ok ()) : r'.validate = .ok () := by
  refine checkTypes_eq_ok_iff.2 fun d hd => ?_
  rw [checkType_perm h hperm]
  exact checkTypes_eq_ok_iff.1 hvalid d (hperm.mem_iff.2 hd)

/-! ## Registration in any order -/

/-- Types can be registered and are valid in one order if they are in another. In all orders in
which they can be registered, valid or not, they are looked up alike, stand in the same places, and
are encoded and decoded alike. Registration itself may refuse a child in one order that only
validation refuses in another. -/
theorem registerAll_perm {ds ds' : List Descriptor} (h : ds.Perm ds') :
    ((∃ r, registerAll ∅ ds = (r, .ok ()) ∧ r.validate = .ok ()) ↔
      ∃ r, registerAll ∅ ds' = (r, .ok ()) ∧ r.validate = .ok ()) ∧
    (∀ r r', registerAll ∅ ds = (r, .ok ()) → registerAll ∅ ds' = (r', .ok ()) →
      (∀ tag, r'.lookup tag = r.lookup tag) ∧
      (∀ i, r'.lookupInstance i = r.lookupInstance i) ∧
      (∀ concrete declared, r'.isAssignable concrete declared = r.isAssignable concrete declared) ∧
      ∀ l : Limits,
        (∀ i, (Codec.mk r' l).encode i = (Codec.mk r l).encode i) ∧
        (∀ bytes, (Codec.mk r' l).decodePrefix bytes = (Codec.mk r l).decodePrefix bytes) ∧
        ∀ bytes, (Codec.mk r' l).decode bytes = (Codec.mk r l).decode bytes) ∧
    ∃ parent child r,
      registerAll ∅ [parent, child] =
        (⟨[parent]⟩, .error (.incompatibleParent child.tag parent.tag)) ∧
      registerAll ∅ [child, parent] = (r, .ok ()) ∧
      r.validate = .error (.incompatibleParent child.tag parent.tag) := by
  refine ⟨?_, ?_, ?_⟩
  · rw [registerAll_validate_iff, registerAll_validate_iff]
    exact ⟨fun hds => ⟨hds.1.perm h, hds.1.validate_perm h hds.2⟩,
      fun hds => ⟨hds.1.perm h.symm, hds.1.validate_perm h.symm hds.2⟩⟩
  · intro r r' hr hr'
    have hsound : r.Sound := sound_empty.registerAll hr
    have hperm : r.types.Perm r'.types := by
      rw [types_registerAll hr, types_registerAll hr']
      exact h
    exact ⟨lookup_perm hsound hperm, lookupInstance_perm hsound hperm,
      isAssignable_perm hsound hperm, fun l => ⟨encode_perm hsound hperm l,
        decodePrefix_perm hsound hperm l, decode_perm hsound hperm l⟩⟩
  · -- A child without the fields of its parent.
    let child : Descriptor :=
      ⟨"Guest", some "User", [], (Record.fresh ⟨"Guest", []⟩).toInstance⟩
    exact ⟨EntityType.user.descriptor, child, _, rfl, rfl, rfl⟩

/-- The localization types are valid also if they are registered the other way round. -/
theorem registerAll_perm_localization : ∃ r,
    registerAll ∅ (EntityType.all.map EntityType.descriptor).reverse = (r, .ok ()) ∧
      r.validate = .ok () :=
  (registerAll_perm (List.reverse_perm (EntityType.all.map EntityType.descriptor)).symm).1.1
    ⟨_, rfl, rfl⟩

end Registry

end TagWire
