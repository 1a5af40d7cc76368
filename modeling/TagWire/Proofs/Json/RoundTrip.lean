import TagWire.Proofs.Codec.RoundTrip
import TagWire.Proofs.Json.Leaf
import TagWire.Proofs.Json.Viewing

/-!
# Instances come back from JSON

The view of an instance that can be encoded and has no infinite float or NaN in it is read back as
what is received of the instance, wherever its type may stand (`Registry.ofJson_toJson`): the same
tree, except that stream requests drop a separator in front of their file names.
-/

namespace TagWire

open TagWire.Localization (Entity EntityType)

/-! ## Finite values -/

mutual

/-- Whether every float in a value is finite. -/
def Value.Finite : Value → Prop
  | .scalar s => s.Finite
  | .list items => Value.FiniteList items
  | .map entries => Value.FiniteEntries entries
  | .nested i => i.Finite
  | _ => True
termination_by structural v => v

/-- Whether every float in an instance is finite. There is none in an entity. -/
def Instance.Finite : Instance → Prop
  | .record _ vs => Value.FiniteList vs
  | .entity _ => True
termination_by structural i => i

/-- `Value.Finite` of each of some values. -/
def Value.FiniteList : List Value → Prop
  | [] => True
  | v :: vs => v.Finite ∧ Value.FiniteList vs
termination_by structural vs => vs

/-- `Value.Finite` of the keys and values of some entries. -/
def Value.FiniteEntries : List (Value × Value) → Prop
  | [] => True
  | (k, v) :: es => (k.Finite ∧ v.Finite) ∧ Value.FiniteEntries es
termination_by structural es => es

end

/-- `Value.FiniteList` element by element. -/
theorem Value.finiteList_iff {vs : List Value} : Value.FiniteList vs ↔ ∀ v ∈ vs, v.Finite := by
  induction vs with
  | nil => exact iff_of_true trivial (List.forall_mem_nil _)
  | cons v vs ih => rw [Value.FiniteList, ih, List.forall_mem_cons]

/-- `Value.FiniteEntries` entry by entry. -/
theorem Value.finiteEntries_iff {es : List (Value × Value)} :
    Value.FiniteEntries es ↔ ∀ e ∈ es, e.1.Finite ∧ e.2.Finite := by
  induction es with
  | nil => exact iff_of_true trivial (List.forall_mem_nil _)
  | cons e es ih => rw [Value.FiniteEntries, ih, List.forall_mem_cons]

/-- There are no floats in an entity. -/
theorem Localization.Entity.finite_values : ∀ e : Entity, ∀ v ∈ e.values, v.Finite :=
  Entity.forall_values trivial (fun _ => trivial) (fun _ => trivial) (fun _ => trivial)
    (fun _ => trivial) (fun _ => trivial) fun _ _ => trivial

/-- The values of an instance are finite if the instance is. -/
theorem Instance.Finite.values {i : Instance} (h : i.Finite) : ∀ v ∈ i.values, v.Finite := by
  cases i with
  | record s vs => exact Value.finiteList_iff.1 h
  | entity e => exact e.finite_values

/-! ## Reading members -/

namespace Registry

variable {r : Registry}

/-- Items are read in a row. -/
theorem itemsOfJson_eq_ok_iff {js : List Json} {f : Field} {vs : List Value} :
    r.itemsOfJson js f = .ok vs ↔ List.Forall₂ (fun j v => r.valueOfJson j f = .ok v) js vs := by
  induction js generalizing vs with
  | nil =>
    rw [itemsOfJson, Except.ok.injEq, List.forall₂_nil_left_iff, eq_comm]
  | cons j js ih =>
    rw [itemsOfJson]
    simp only [Except.bind_eq_ok, ih]
    refine ⟨?_, ?_⟩
    · intro h
      obtain ⟨v, hv, vs, hvs, h⟩ := h
      cases h
      exact .cons hv hvs
    · intro h
      cases h with
      | cons hv hvs => exact ⟨_, hv, _, hvs, rfl⟩

/-- Pairs are read in a row. -/
theorem entriesOfJson_pairs {key value : Field} {js : List Json} {es : List (Value × Value)}
    (h : List.Forall₂ (fun j e => ∃ jk jv, j = .array [jk, jv] ∧
      r.valueOfJson jk key = .ok e.1 ∧ r.valueOfJson jv value = .ok e.2) js es) :
    r.entriesOfJson js key value = .ok es := by
  induction h with
  | nil => rw [entriesOfJson]
  | cons he _ ih =>
    obtain ⟨jk, jv, rfl, hk, hv⟩ := he
    rw [entriesOfJson, hk, hv, ih]
    rfl

/-- The readers of members read their values. -/
theorem readersOfJson_eq (ms : List (String × Json)) :
    r.readersOfJson ms = ms.map fun m => (m.1, r.valueOfJson m.2) := by
  induction ms with
  | nil => rw [readersOfJson, List.map_nil]
  | cons m ms ih => rw [readersOfJson, ih, List.map_cons]

/-- Among members of different names, each is found under its own. -/
theorem find?_readersOfJson {ms : List (String × Json)} (hnodup : (ms.map Prod.fst).Nodup)
    {m : String × Json} (hm : m ∈ ms) :
    (r.readersOfJson ms).find? (·.1 == m.1) = some (m.1, r.valueOfJson m.2) := by
  rw [readersOfJson_eq]
  induction ms with
  | nil => cases hm
  | cons m' ms ih =>
    rw [List.map_cons, List.nodup_cons] at hnodup
    rw [List.map_cons, List.find?_cons]
    cases hm with
    | head => simp
    | tail _ hm =>
      have hname : (m'.1 == m.1) = false := by
        rw [beq_eq_false_iff_ne]
        exact fun h => hnodup.1 (h ▸ List.mem_map_of_mem hm)
      simp only [hname]
      exact ih hnodup.2 hm

/-- Members that are read as values are stored as these. -/
theorem storeMembers_of_members {tag : String} {readers : List (String × FieldReader)}
    {fs : List Field} {vs : List Value} {ms : List (String × Json)}
    (hms : Json.Members (fun f v j => r.valueOfJson j f = .ok v) fs vs ms)
    (hlen : vs.length = fs.length)
    (hfind : ∀ m ∈ ms, readers.find? (·.1 == m.1) = some (m.1, r.valueOfJson m.2))
    {index : Nat} {i k : Instance} (hstore : i.storeAll index vs = .ok k) :
    storeMembers tag readers index fs i = .ok k := by
  induction hms generalizing index i with
  | nil vs =>
    cases List.eq_nil_of_length_eq_zero hlen
    cases hstore
    rw [storeMembers]
  | @cons f v j fs vs ms hv _ ih =>
    obtain ⟨t, hset, hrest⟩ := storeValues_cons.1 hstore
    have hfound := hfind (f.name, j) (.head _)
    rw [storeMembers, hfound]
    simp only [hv, hset]
    exact ih (Nat.succ.inj hlen) (fun m hm => hfind m (.tail _ hm)) hrest

/-- No member of a view is unknown. -/
theorem unknownMember?_view {d : Descriptor} {ms : List (String × Json)}
    (hnames : ms.map Prod.fst = d.fields.map Field.name) (j : Json) :
    unknownMember? d ((Json.typeName, j) :: ms) = none := by
  rw [unknownMember?, Option.map_eq_none_iff, List.find?_eq_none]
  intro m hm
  cases hm with
  | head => simp
  | tail _ hm =>
    have hmem : m.1 ∈ d.fields.map Field.name := hnames ▸ List.mem_map_of_mem hm
    obtain ⟨f, hf, hname⟩ := List.mem_map.1 hmem
    have hfield : (d.field? m.1).isSome := List.find?_isSome.2 ⟨f, hf, by simp [hname]⟩
    simp [Option.isNone_iff_eq_none, Option.isSome_iff_ne_none.1 hfield]

/-- The view of an instance is read where its type may stand. -/
theorem ofMembers_view {d : Descriptor} (hd : r.get? d.tag = some d) (hview : d.Viewable)
    {vs : List Value} {ms : List (String × Json)}
    (hms : Json.Members (fun f v j => r.valueOfJson j f = .ok v) d.fields vs ms)
    (hlen : vs.length = d.fields.length) {k : Instance}
    (hstore : d.prototype.storeAll 0 vs = .ok k) {declared : String}
    (hto : r.isAssignable d.tag declared = true) :
    r.ofMembers declared ((Json.typeName, .text d.tag) :: ms)
      (r.readersOfJson ((Json.typeName, .text d.tag) :: ms)) = .ok k := by
  have htag : r.concreteTag declared ((Json.typeName, .text d.tag) :: ms) = .ok d.tag := by
    have hmember : Json.member? ((Json.typeName, .text d.tag) :: ms) Json.typeName =
        some (.text d.tag) := by simp [Json.member?]
    rw [concreteTag, hmember]
    exact if_pos hto
  have hlookup : r.lookup d.tag = .ok d := by rw [lookup, hd]
  have hnodup : (((Json.typeName, Json.text d.tag) :: ms).map Prod.fst).Nodup := by
    rw [List.map_cons, hms.names]
    exact hview
  rw [ofMembers, htag]
  simp only [bind, Except.bind, hlookup, unknownMember?_view hms.names]
  exact storeMembers_of_members hms hlen
    (fun m hm => find?_readersOfJson hnodup (.tail _ hm)) hstore

end Registry

/-! ## Views that come back -/

/-- Whether a value has a view, and the view is read in the place of a field as what is received of
the value. -/
def Value.Restored (r : Registry) (f : Field) (v : Value) : Prop :=
  ∃ j, v.toJson r = .ok j ∧ r.valueOfJson j f = .ok (v.received r)

/-- If values have views that are as a property says, the values of fields have members that are. -/
theorem Json.exists_members {P : Field → Value → Json → Prop} {fs : List Field} {vs : List Value}
    (h : Codec.FieldsFit (fun f v => ∃ j, P f v j) fs vs) : ∃ ms, Json.Members P fs vs ms := by
  induction fs generalizing vs with
  | nil => exact ⟨[], .nil vs⟩
  | cons f fs ih =>
    cases vs with
    | nil => exact h.elim
    | cons v vs =>
      obtain ⟨⟨j, hj⟩, hvs⟩ := h
      obtain ⟨ms, hms⟩ := ih hvs
      exact ⟨_, .cons hj hms⟩

/-- A list comes back if its items do. -/
theorem Value.restored_list {r : Registry} {f element : Field} (hk : f.kind = .list element)
    {items : List Value} (h : ∀ v ∈ items, v.Restored r element) :
    (Value.list items).Restored r f := by
  obtain ⟨js, hjs⟩ := exists_forall₂ h
  have hview := (Value.itemsToJson_eq_ok_iff r).2 (hjs.imp fun _ _ hj => hj.1)
  have hread : r.itemsOfJson js element = .ok (items.map (Value.received r)) :=
    Registry.itemsOfJson_eq_ok_iff.2
      (List.forall₂_map_right_iff.2 (hjs.imp fun _ _ hj => hj.2).flip)
  refine ⟨.array js, by rw [Value.toJson, hview]; rfl, ?_⟩
  obtain ⟨name, kind, nullable⟩ := f
  cases hk
  rw [Registry.valueOfJson, hread, Value.received, Value.mapTree_list]
  rfl

/-- A map comes back if its keys and values do. -/
theorem Value.restored_map {r : Registry} {f key value : Field} (hk : f.kind = .map key value)
    {entries : List (Value × Value)}
    (h : ∀ e ∈ entries, e.1.Restored r key ∧ e.2.Restored r value) :
    (Value.map entries).Restored r f := by
  have hpair : ∀ e ∈ entries, ∃ p : Json × Json,
      (e.1.toJson r = .ok p.1 ∧ e.2.toJson r = .ok p.2) ∧
        r.valueOfJson p.1 key = .ok (e.1.received r) ∧
        r.valueOfJson p.2 value = .ok (e.2.received r) := by
    intro e he
    obtain ⟨⟨jk, hkey, hkey'⟩, ⟨jv, hvalue, hvalue'⟩⟩ := h e he
    exact ⟨(jk, jv), ⟨hkey, hvalue⟩, hkey', hvalue'⟩
  obtain ⟨ps, hps⟩ := exists_forall₂ hpair
  have hview : Value.entriesToJson r entries = .ok (ps.map fun p => .array [p.1, p.2]) :=
    (Value.entriesToJson_eq_ok_iff r).2 (List.forall₂_map_right_iff.2
      (hps.imp fun _ p hp => ⟨p.1, p.2, hp.1.1, hp.1.2, rfl⟩))
  have hread : r.entriesOfJson (ps.map fun p => .array [p.1, p.2]) key value =
      .ok (entries.map fun e => (e.1.received r, e.2.received r)) :=
    Registry.entriesOfJson_pairs (List.forall₂_map_left_iff.2 (List.forall₂_map_right_iff.2
      (hps.imp fun _ p hp => ⟨p.1, p.2, rfl, hp.2.1, hp.2.2⟩).flip))
  refine ⟨.array (ps.map fun p => .array [p.1, p.2]), by rw [Value.toJson, hview]; rfl, ?_⟩
  obtain ⟨name, kind, nullable⟩ := f
  cases hk
  rw [Registry.valueOfJson, hread, Value.received, Value.mapTree_map]
  rfl

section
variable {c : Codec} (hc : c.registry.Native) (hview : ∀ d ∈ c.registry.types, d.Viewable)
include hc hview

/-- The view of an instance comes back if the values of the instance do. -/
theorem Instance.exists_view {i : Instance} {d : Descriptor} {depth : Nat}
    (hd : c.registry.lookupInstance i = .ok d) (hi : i.Native c.registry)
    (hfit : Codec.FieldsFit (fun f v => c.Fits f v depth) d.fields i.values)
    (hvalues : ∀ v ∈ i.values, ∀ f, c.Fits f v depth → v.Restored c.registry f) :
    ∃ ms, i.toJson c.registry = .ok (.object ms) ∧
      ∀ declared, c.registry.isAssignable d.tag declared = true →
        c.registry.ofMembers declared ms (c.registry.readersOfJson ms) =
          .ok (i.received c.registry) := by
  have hget := hc.get?_of_lookupInstance hd
  have hd' := hview d (Registry.mem_of_get? hget).1
  obtain ⟨hsome, hfits⟩ := Codec.fieldsFit_iff.1 hfit
  have hrestored : Codec.FieldsFit (Value.Restored c.registry) d.fields i.values :=
    Codec.fieldsFit_iff.2
      ⟨hsome, fun k f v hf hv => hvalues v (List.mem_of_getElem? hv) f (hfits k f v hf hv)⟩
  obtain ⟨ms, hms⟩ := Json.exists_members hrestored
  obtain ⟨hlen, hstore⟩ := Codec.storeAll_values hc hd hi hfit
  refine ⟨(Json.typeName, .text d.tag) :: ms, ?_, fun declared hto => ?_⟩
  · exact (i.toJson_eq_ok_iff c.registry hd hd').2 ⟨ms, hms.mono fun _ _ _ h => h.1, rfl⟩
  · have hread : Json.Members (fun f v j => c.registry.valueOfJson j f = .ok v) d.fields
        (i.values.map (Value.received c.registry)) ms := (hms.mono fun _ _ _ h => h.2).map
    exact Registry.ofMembers_view hget hd' hread (by rwa [List.length_map]) hstore hto

/-- A native value that fits a field and is finite comes back from its view, by induction over the
values of instances. -/
theorem Value.restored_of_fits {v : Value} {f : Field} {depth : Nat} (hfit : c.Fits f v depth)
    (hnative : v.Native c.registry) (hfinite : v.Finite) : v.Restored c.registry f := by
  induction v using Value.valuesInduction generalizing f depth with
  | null => exact ⟨.null, by rw [Value.toJson], Registry.valueOfJson_null⟩
  | scalar s =>
    exact ⟨s.toJson, by rw [Value.toJson],
      Registry.valueOfJson_toJson hfinite (Codec.fits_scalar.1 hfit)⟩
  | string s =>
    exact ⟨.text s, by rw [Value.toJson],
      Registry.valueOfJson_string (Codec.fits_string.1 hfit).1⟩
  | bytes b =>
    exact ⟨.text (Text.Hex.encode b), by rw [Value.toJson],
      Registry.valueOfJson_bytes (Codec.fits_bytes.1 hfit).1⟩
  | enum variant =>
    obtain ⟨e, hk, hmem, -⟩ := Codec.fits_enum.1 hfit
    exact ⟨.text variant, by rw [Value.toJson], Registry.valueOfJson_enum hk hmem⟩
  | list items ih =>
    obtain ⟨element, hk, -, -, hitems⟩ := Codec.fits_list.1 hfit
    have hnative := Value.everywhere_list.1 hnative
    have hfinite := Value.finiteList_iff.1 hfinite
    exact Value.restored_list hk fun v hv => ih v hv (hitems v hv) (hnative v hv) (hfinite v hv)
  | map entries ih =>
    obtain ⟨key, value, hk, -, -, hentries⟩ := Codec.fits_map.1 hfit
    have hnative := Value.everywhere_map.1 hnative
    have hfinite := Value.finiteEntries_iff.1 hfinite
    exact Value.restored_map hk fun e he =>
      ⟨(ih e he).1 (hentries e he).1 (hnative e he).1 (hfinite e he).1,
        (ih e he).2 (hentries e he).2 (hnative e he).2 (hfinite e he).2⟩
  | nested i ih =>
    obtain ⟨declared, d, hk, hd, hto, hi⟩ := Codec.fits_nested.1 hfit
    have hnative : i.Native c.registry := hnative
    have hfinite : i.Finite := hfinite
    obtain ⟨-, -, hfields⟩ := (Codec.conforms_of_lookup hd).1 hi
    obtain ⟨ms, hms, hback⟩ := Instance.exists_view hc hview hd hnative hfields fun v hv f hf =>
      ih v hv hf (hnative.values v hv) (hfinite.values v hv)
    refine ⟨.object ms, by rw [Value.toJson, hms], ?_⟩
    obtain ⟨name, kind, nullable⟩ := f
    cases hk
    rw [Registry.valueOfJson, hback declared hto]
    rfl

end

/-- Whatever can be encoded and is finite has a view, and wherever its type may stand the view is
read as the same tree, normalized. -/
theorem Registry.ofJson_toJson {r : Registry} (hr : r.Native) (hbuilt : r.Built)
    (htype : ∀ d ∈ r.types, ∀ f ∈ d.fields, f.name ≠ Json.typeName) {i : Instance}
    (hi : i.Native r) (hfinite : i.Finite) {l : Limits} {bytes : List UInt8}
    (h : (Codec.mk r l).encode i = .ok bytes) :
    ∃ d j, r.lookupInstance i = .ok d ∧ i.toJson r = .ok j ∧
      ∀ declared, r.isAssignable d.tag declared = true →
        ∃ k, r.ofJson declared j = .ok k ∧ k.Same i.normalized := by
  have hview : ∀ d ∈ r.types, d.Viewable := fun d hd => hbuilt.viewable hd (htype d hd)
  obtain ⟨-, d, hd, -, hfields⟩ := Codec.conforms_iff.1 ((Codec.encode_eq_ok _).1 h).1
  obtain ⟨ms, hms, hback⟩ := Instance.exists_view hr hview hd hi hfields fun v hv f hf =>
    Value.restored_of_fits hr hview hf (hi.values v hv) (hfinite.values v hv)
  refine ⟨d, .object ms, hd, hms, fun declared hto => ⟨i.received r, ?_, i.received_same r⟩⟩
  exact hback declared hto

/-- The types that a folder is made of have been built. -/
theorem Codec.built_folderRegistry : Codec.folderRegistry.Built := by
  simp only [Registry.Built, Codec.folderRegistry, List.forall_mem_cons]
  refine ⟨⟨_, EntityType.user.build_draft⟩, ?_, ⟨_, EntityType.streamRequest.build_draft⟩,
    List.forall_mem_nil _⟩
  exact ⟨{ tag := "Folder", fields := Codec.folder.fields, source? := some .ownRecord }, rfl⟩

/-- A folder with one request, for a file of some name, and a ratio of one and a half. -/
def Codec.ratedFolder (name : String) : Instance :=
  .record ⟨"Folder", []⟩
    [.list [.nested (.entity (.streamRequest { fileName := some name }))],
      .scalar (.f64 ⟨0x3FF8000000000000⟩)]

/-- A folder comes back from its view with one separator less in front of the file name. -/
theorem Registry.ofJson_toJson_ratedFolder :
    ∃ j k, (Codec.ratedFolder "//a").toJson Codec.folderRegistry = .ok j ∧
      Codec.folderRegistry.ofJson "Folder" j = .ok k ∧ k.Same (Codec.ratedFolder "/a") := by
  have hnative : (Codec.ratedFolder "//a").Native Codec.folderRegistry :=
    ⟨⟨Codec.folder, rfl, rfl, rfl⟩, ⟨trivial, trivial⟩, trivial, trivial⟩
  have hfinite : (Codec.ratedFolder "//a").Finite := ⟨⟨trivial, trivial⟩, rfl, trivial⟩
  have hencode : (Codec.mk Codec.folderRegistry {}).encode (Codec.ratedFolder "//a") = .ok _ := rfl
  obtain ⟨d, j, hd, hj, hback⟩ := ofJson_toJson Codec.native_folderRegistry
    Codec.built_folderRegistry (by decide) hnative hfinite hencode
  cases hd
  obtain ⟨k, hk, hsame⟩ := hback "Folder" (by decide)
  exact ⟨j, k, hj, hk, hsame⟩

end TagWire
