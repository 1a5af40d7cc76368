import TagWire.Proofs.Registry.Order
import TagWire.Proofs.Registry.Received
import TagWire.Proofs.Schema.Recorded

/-!
# Peers that know the localization types as records

The localization types can also be registered as types of records, under the same tags and with the
same parents and fields. Where one peer knows them as entities and another as records, in whatever
order these are registered, they send the same bytes for the same content, and make the same of all
bytes that they receive, except that records keep the separator in front of a file name
(`Registry.peers_agree`).

The entity and the record that are read from the same bytes agree, up to that separator, in the
fields that have been read so far (`Registry.ReadAlike`), and each setter keeps it so
(`Registry.ReadAlike.setField`).
-/

namespace TagWire

open TagWire.Localization (Entity EntityType)

/-- The type of records with the tag, the parent and the fields of a localization type. -/
def Localization.EntityType.recordDescriptor (t : EntityType) : Descriptor :=
  ⟨t.tag, t.parent?, t.fields, (Record.fresh t.shape).toInstance⟩

/-- The draft of a localization type that asks for records builds its type of records. -/
theorem Localization.EntityType.build_draft_withRecords (t : EntityType) :
    t.draft.withRecords.build = .ok t.recordDescriptor := by
  have h : t.draft.withRecords.fault? = none := by cases t <;> decide
  simp only [Draft.build, h]
  rfl

/-! ## Leaves -/

/-- Whether what is of a kind is a leaf: no collection, and nested no other than a context or a
user. -/
def FieldKind.isLeaf : FieldKind → Bool
  | .list _ | .map _ _ => false
  | .nested declared => declared == EntityType.context.tag || declared == EntityType.user.tag
  | _ => true

/-- The fields of a localization type are for leaves. -/
theorem Localization.EntityType.isLeaf_of_mem_fields {t : EntityType} {f : Field}
    (hf : f ∈ t.fields) : f.kind.isLeaf = true := by
  have h : ∀ f ∈ t.fields, f.kind.isLeaf = true := by cases t <;> decide
  exact h f hf

namespace Registry

/-! ## The two registries -/

/-- The registry of localization types. -/
def entities : Registry := ⟨EntityType.all.map EntityType.descriptor⟩

/-- The registry of localization types as types of records. -/
def records : Registry := ⟨EntityType.all.map EntityType.recordDescriptor⟩

/-- The localization types can be registered in an empty registry. -/
theorem registerLocalization_empty : registerLocalization ∅ = (entities, .ok ()) := rfl

/-- The types of records are sound. -/
theorem sound_records : records.Sound :=
  have h : registerAll ∅ (EntityType.all.map EntityType.recordDescriptor) = (records, .ok ()) :=
    rfl
  sound_empty.registerAll h

/-- A tag leads to a localization type. -/
theorem get?_entities (tag : String) :
    entities.get? tag = (EntityType.ofTag? tag).map EntityType.descriptor :=
  List.find?_map

/-- A tag leads to a localization type as a type of records. -/
theorem get?_records (tag : String) :
    records.get? tag = (EntityType.ofTag? tag).map EntityType.recordDescriptor :=
  List.find?_map

/-- Types stand in the same places of both registries. -/
theorem entities_assignsLike (excused : CodecError → Prop) :
    entities.AssignsLike records excused := by
  have hparent (tag : String) : records.parent? tag = entities.parent? tag := by
    rw [parent?, parent?, get?_entities, get?_records]
    cases EntityType.ofTag? tag <;> rfl
  exact fun tag declared => .inl (isAssignable_congr hparent rfl tag declared)

/-- In the place of a context or a user stands no entity of another type, so none with a request. -/
theorem eq_tag_of_isAssignable {declared : String}
    (hleaf : (FieldKind.nested declared).isLeaf = true) {e : Entity}
    (hto : entities.isAssignable e.type.tag declared = true) :
    declared = e.type.tag ∧ e.request? = none := by
  have hdeclared : declared = EntityType.context.tag ∨ declared = EntityType.user.tag := by
    simpa [FieldKind.isLeaf] using hleaf
  have hcontext (t : EntityType) :
      entities.isAssignable t.tag EntityType.context.tag = true → t = .context := by
    cases t <;> decide
  have huser (t : EntityType) :
      entities.isAssignable t.tag EntityType.user.tag = true → t = .user := by
    cases t <;> decide
  rcases hdeclared with rfl | rfl
  · cases e with
    | context c => exact ⟨rfl, rfl⟩
    | _ => cases hcontext _ hto
  · cases e with
    | user u => exact ⟨rfl, rfl⟩
    | _ => cases huser _ hto

/-! ## Encoding -/

/-- Entities are encoded like their records. -/
theorem entities_encodesLike : entities.EncodesLike records (fun _ => False)
    (fun i j => ∃ e : Entity, i = .entity e ∧ j = e.record)
    (fun _ v w => v.IsLeaf ∧ w = v.recorded) where
  layer {f v w} hvw := by
    obtain ⟨hv, rfl⟩ := hvw
    cases v with
    | null => exact .null
    | scalar s => exact .scalar s
    | string s => exact .string s
    | bytes b => exact .bytes b
    | enum variant => exact .enum variant
    | list | map => cases hv
    | nested i =>
      cases i with
      | record => cases hv
      | entity e =>
        rw [Value.recorded_nested hv]
        exact .nested ⟨e, rfl, rfl⟩
  lookup {i j} hij := by
    obtain ⟨e, rfl, rfl⟩ := hij
    have hentity : entities.lookupInstance (.entity e) = .ok e.type.descriptor := by
      cases e <;> rfl
    have hrecord : records.lookupInstance e.record = .ok e.type.recordDescriptor := by
      cases e <;> rfl
    rw [hentity, hrecord]
    exact .ok ⟨rfl, rfl⟩
  values {i j} hij := by
    obtain ⟨e, rfl, rfl⟩ := hij
    refine List.forall₂_map_right_iff.2 (List.forall₂_same.2 fun v hv f => ?_)
    exact ⟨e.isLeaf_values v hv, rfl⟩
  assigns := entities_assignsLike _

/-! ## Decoding -/

/-- Whether an entity and a record of its shape hold the same in the first fields of their type, of
which the record keeps the separators. -/
def ReadAlike (d : Descriptor) (k : Nat) (i j : Instance) : Prop :=
  ∃ (e : Entity) (ws : List Value), i = .entity e ∧ d = e.type.descriptor ∧
    j = .record e.type.shape ws ∧ ws.length = e.type.fields.length ∧
    ∀ n < k, ∀ f, e.type.fields[n]? = some f →
      e.values[n]?.map Value.recorded = ws[n]?.map (Value.dropSeparators f)

/-- Whether an entity takes one value for a field of its type, and a record another, and both end up
with the same, but for separators. -/
def TakenAlike (f : Field) (v w : Value) : Prop :=
  ∀ t : EntityType, f ∈ t.fields →
    f.Takes v ∧ f.accepts w = true ∧ (v.dropSeparators f).recorded = w.dropSeparators f

/-- Fresh entities and records have yet to be read into. -/
theorem ReadAlike.fresh (t : EntityType) :
    ReadAlike t.descriptor 0 t.descriptor.prototype t.recordDescriptor.prototype := by
  refine ⟨t.fresh, t.shape.initialValues, rfl, by rw [t.type_fresh], by rw [t.type_fresh]; rfl, ?_,
    fun n hn => absurd hn n.not_lt_zero⟩
  rw [t.type_fresh, RecordShape.initialValues, List.length_map, EntityType.shape]

/-- What both take for a field is stored in both. -/
theorem ReadAlike.setField {d : Descriptor} {k : Nat} {i j : Instance} (h : ReadAlike d k i j)
    {f : Field} (hf : d.fields[k]? = some f) {v w : Value} (hvw : TakenAlike f v w) :
    Except.Agrees (fun _ => False) (ReadAlike d (k + 1)) (i.setField k v) (j.setField k w) := by
  obtain ⟨e, ws, rfl, rfl, rfl, hlength, hread⟩ := h
  have hf : e.type.fields[k]? = some f := hf
  obtain ⟨hv, hw, hsame⟩ := hvw e.type (List.mem_of_getElem? hf)
  obtain ⟨e', he', htype, hvalues⟩ := e.setField_of_takes hf hv
  have hentity : (Instance.entity e).setField k v = .ok (.entity e') := by
    rw [Instance.setField, he']
    rfl
  have hrecord : (Instance.record e.type.shape ws).setField k w =
      .ok (.record e.type.shape (ws.set k w)) :=
    Instance.setField_of_accepts hf hw ws
  rw [hentity, hrecord]
  refine .ok ⟨e', ws.set k w, rfl, by rw [htype], by rw [htype], ?_, ?_⟩
  · rw [List.length_set, hlength, htype]
  · intro n hn g hg
    rw [htype] at hg
    rw [hvalues]
    rcases Nat.lt_or_eq_of_le (Nat.le_of_lt_succ hn) with hlt | rfl
    · have hne : k ≠ n := Nat.ne_of_gt hlt
      rw [List.getElem?_set_ne hne, List.getElem?_set_ne hne]
      exact hread n hlt g hg
    · obtain rfl : f = g := Option.some.inj (hf.symm.trans hg)
      have hk : n < e.type.fields.length := (List.getElem?_eq_some_iff.1 hf).1
      rw [List.getElem?_set_self (e.length_values ▸ hk), List.getElem?_set_self (hlength ▸ hk)]
      exact congrArg some hsame

/-- An entity and a record that have been read agree but for separators. -/
theorem ReadAlike.record_eq {d : Descriptor} {i j : Instance}
    (h : ReadAlike d d.fields.length i j) :
    ∃ e : Entity, i = .entity e ∧ d.tag = e.type.tag ∧ e.record = j.dropSeparators := by
  obtain ⟨e, ws, rfl, rfl, rfl, hlength, hread⟩ := h
  refine ⟨e, rfl, rfl, ?_⟩
  rw [Entity.record, Instance.dropSeparators]
  refine congrArg _ (List.ext_getElem? fun n => ?_)
  rcases Nat.lt_or_ge n e.type.fields.length with hn | hn
  · have hf : e.type.fields[n]? = some e.type.fields[n] := List.getElem?_eq_getElem hn
    rw [List.getElem?_map, hread n hn _ hf, EntityType.shape, Value.getElem?_dropSeparatorsList hf]
  · rw [List.getElem?_eq_none (by rwa [List.length_map, e.length_values]),
      List.getElem?_eq_none (by rwa [Value.length_dropSeparatorsList, hlength])]

/-- Values of one form are taken alike, if a nested entity and a nested record agree. -/
theorem TakenAlike.of_layer {f : Field} {v w : Value} (hv : f.accepts v = true)
    (h : Value.Layer (fun i j => ∃ d declared, f.kind = .nested declared ∧
      entities.isAssignable d.tag declared = true ∧ ReadAlike d d.fields.length i j)
      TakenAlike f v w) : TakenAlike f v w := by
  intro t hf
  have hleaf := EntityType.isLeaf_of_mem_fields hf
  cases h with
  | null | scalar | string | bytes | enum => exact ⟨⟨hv, nofun⟩, hv, rfl⟩
  | list | map =>
    -- The field accepts a collection, so it is not for leaves.
    cases hk : f.kind <;>
      simp_all [Field.accepts, Value.isNull, FieldKind.accepts, FieldKind.isLeaf]
  | @nested i j hij =>
    obtain ⟨d, declared, hk, hto, hread⟩ := hij
    obtain ⟨e, rfl, htag, hrecord⟩ := hread.record_eq
    rw [hk] at hleaf
    rw [htag] at hto
    obtain ⟨rfl, hrequest⟩ := eq_tag_of_isAssignable hleaf hto
    refine ⟨⟨hv, ?_⟩, ?_, ?_⟩
    · intro i hi
      cases hi
      exact ⟨e, rfl, hk⟩
    · simp [Field.accepts, Value.isNull, FieldKind.accepts, hk]
    · have hnormal : e.normalized = e := (Entity.normalized_eq_iff hrequest).2 rfl
      rw [Value.dropSeparators, Instance.dropSeparators, hnormal, Value.recorded_nested hrequest,
        Value.dropSeparators, hrecord]

/-- Bytes are decoded to entities and records that agree but for separators. -/
theorem entities_decodesLike :
    entities.DecodesLike records (fun _ => False) ReadAlike TakenAlike where
  lookup tag := by
    rw [lookup, lookup, get?_entities, get?_records]
    cases EntityType.ofTag? tag with
    | none => exact .error _
    | some t => exact .ok ⟨⟨rfl, rfl⟩, .fresh t⟩
  assigns := entities_assignsLike _
  store hf hij hvw := hij.setField hf hvw
  value hv hlayer := .of_layer hv hlayer

/-! ## Peers -/

/-- A peer that knows the localization types as entities and one that knows them as records, under
the same limits, send the same bytes, or fail alike. They receive the same bytes as the same content
and of the same length, but for the separators in front of file names, or fail alike. -/
theorem peers_agree {r : Registry}
    (h : r.types.Perm (EntityType.all.map EntityType.recordDescriptor)) (l : Limits) :
    (∀ e : Entity, (Codec.mk (registerLocalization ∅).1 l).encode (.entity e) =
      (Codec.mk r l).encode e.record) ∧
    ∀ bytes,
      (∃ error, (Codec.mk (registerLocalization ∅).1 l).decodePrefix bytes = .error error ∧
        (Codec.mk r l).decodePrefix bytes = .error error) ∨
      ∃ (e : Entity) (i : Instance) (n : Nat),
        (Codec.mk (registerLocalization ∅).1 l).decodePrefix bytes = .ok (.entity e, n) ∧
        (Codec.mk r l).decodePrefix bytes = .ok (i, n) ∧ e.record = i.dropSeparators := by
  have hperm : records.types.Perm r.types := h.symm
  rw [registerLocalization_empty]
  refine ⟨fun e => ?_, fun bytes => ?_⟩
  · rw [encode_perm sound_records hperm]
    exact (entities_encodesLike.encode ⟨e, rfl, rfl⟩).eq
  · rw [decodePrefix_perm sound_records hperm]
    have hagrees := entities_decodesLike.decodePrefix (l := l) bytes
    generalize (Codec.mk entities l).decodePrefix bytes = x at hagrees ⊢
    generalize (Codec.mk records l).decodePrefix bytes = y at hagrees ⊢
    cases hagrees with
    | error e => exact .inl ⟨e, rfl, rfl⟩
    | excused _ he => exact he.elim
    | @ok m m' hm =>
      obtain ⟨hlength, d, hread⟩ := hm
      obtain ⟨e, he, -, hrecord⟩ := hread.record_eq
      exact .inr ⟨e, m'.1, m.2, congrArg Except.ok (Prod.ext he rfl),
        congrArg Except.ok (Prod.ext rfl hlength), hrecord⟩

/-- The file name `/a` of a stream request keeps its separator in a record, also if the types of
records have been registered the other way round. -/
theorem peers_agree_streamRequest : ∃ i n,
    (Codec.mk ⟨(EntityType.all.map EntityType.recordDescriptor).reverse⟩ {}).decodePrefix
      [25, 0, 0, 0, 76, 111, 99, 97, 108, 105, 122, 97, 116, 105, 111, 110, 83, 116, 114, 101, 97,
        109, 82, 101, 113, 117, 101, 115, 116, 255, 255, 255, 255, 2, 0, 0, 0, 47, 97, 255, 255,
        255, 255, 4, 0, 0, 0, 85, 115, 101, 114, 255, 255, 255, 255] = .ok (i, n) ∧
    i.dropSeparators = Entity.record (.streamRequest { fileName := some "a" }) := by
  have hentity : ((Codec.mk (registerLocalization ∅).1 {}).decodePrefix
      [25, 0, 0, 0, 76, 111, 99, 97, 108, 105, 122, 97, 116, 105, 111, 110, 83, 116, 114, 101, 97,
        109, 82, 101, 113, 117, 101, 115, 116, 255, 255, 255, 255, 2, 0, 0, 0, 47, 97, 255, 255,
        255, 255, 4, 0, 0, 0, 85, 115, 101, 114, 255, 255, 255, 255]).toOption.any
      (·.1.alike (.entity (.streamRequest { fileName := some "a" }))) = true := by
    decide +kernel
  rcases (peers_agree (List.reverse_perm _) {}).2 _ with
    ⟨error, he, -⟩ | ⟨e, i, n, he, hi, hrecord⟩
  · rw [he] at hentity
    cases hentity
  · rw [he] at hentity
    obtain rfl : e = .streamRequest { fileName := some "a" } := eq_of_beq hentity
    exact ⟨i, n, hi, hrecord.symm⟩

end Registry

end TagWire
