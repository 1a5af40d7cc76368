import TagWire.Proofs.Codec.RoundTrip
import TagWire.Proofs.Registry.Order

/-!
# More variants

A registry of records widens to another one if their types are the same up to enumerations, each of
which has all the variants that it had before, in any order and under any name
(`Registry.WidensTo`). Neither the place of a variant nor the name of its enumeration is on the
wire, so what fits a field fits the wider one and has the same form there. A fresh record may start
out otherwise, since a required enumeration starts at its first variant, but nothing of that is left
when every field has been read. So the wider registry encodes and decodes whatever the other one
does, to the same bytes and the same trees (`Registry.WidensTo.keeps_traffic`).
-/

namespace TagWire

/-! ## Wider types -/

mutual

/-- Whether a kind is another one up to its enumerations, whose variants are among the other's. -/
inductive FieldKind.WidensTo : FieldKind → FieldKind → Prop
  | scalar (k : ScalarKind) : FieldKind.WidensTo (.scalar k) (.scalar k)
  | string : FieldKind.WidensTo .string .string
  | bytes : FieldKind.WidensTo .bytes .bytes
  | enum {e e' : Enumeration} : (∀ variant ∈ e.variants, variant ∈ e'.variants) →
      FieldKind.WidensTo (.enum e) (.enum e')
  | nested (tag : String) : FieldKind.WidensTo (.nested tag) (.nested tag)
  | list {f f' : Field} : Field.WidensTo f f' → FieldKind.WidensTo (.list f) (.list f')
  | map {f f' g g' : Field} : Field.WidensTo f f' → Field.WidensTo g g' →
      FieldKind.WidensTo (.map f g) (.map f' g')

/-- Whether a field is another one up to its enumerations, whose variants are among the other's. -/
inductive Field.WidensTo : Field → Field → Prop
  | intro {name : String} {kind kind' : FieldKind} {nullable : Bool} :
      FieldKind.WidensTo kind kind' → Field.WidensTo ⟨name, kind, nullable⟩ ⟨name, kind', nullable⟩

end

/-- Whether a type is another one up to the enumerations of its fields, whose variants are among the
other's. -/
structure Descriptor.WidensTo (d d' : Descriptor) : Prop where
  tag : d'.tag = d.tag
  parent : d'.parent? = d.parent?
  fields : List.Forall₂ Field.WidensTo d.fields d'.fields

/-- Whether the types of a registry are those of another one, in order, up to their enumerations,
whose variants are among the other's. -/
def Registry.WidensTo (r r' : Registry) : Prop := List.Forall₂ Descriptor.WidensTo r.types r'.types

/-- A wider enumeration has the variant. -/
theorem Enumeration.contains_of_subset {e e' : Enumeration} {variant : String}
    (h : ∀ variant ∈ e.variants, variant ∈ e'.variants) (hmem : e.contains variant = true) :
    e'.contains variant = true := by
  rw [contains, List.contains_iff_mem] at hmem ⊢
  exact h variant hmem

namespace Registry.WidensTo

variable {r r' : Registry} (h : r.WidensTo r')
include h

/-- A tag leads to a wider type, or to none in both. -/
theorem get? (tag : String) : Option.Rel Descriptor.WidensTo (r.get? tag) (r'.get? tag) := by
  have hfind (ds ds' : List Descriptor) (hds : List.Forall₂ Descriptor.WidensTo ds ds') :
      Option.Rel Descriptor.WidensTo (ds.find? (·.tag == tag)) (ds'.find? (·.tag == tag)) := by
    induction hds with
    | nil => exact .none
    | cons hd _ ih =>
      rw [List.find?_cons, List.find?_cons, hd.tag]
      split
      next => exact .some hd
      next => exact ih
  exact hfind r.types r'.types h

/-- A type that is registered has a wider one. -/
theorem exists_get? {tag : String} {d : Descriptor} (hd : r.get? tag = some d) :
    ∃ d', r'.get? tag = some d' ∧ d.WidensTo d' := by
  have hget := h.get? tag
  rw [hd] at hget
  generalize r'.get? tag = found at hget ⊢
  cases hget with
  | some hw => exact ⟨_, rfl, hw⟩

/-- A record of a registered type is one of a wider type. -/
theorem exists_lookupInstance {s : RecordShape} {vs : List Value} {d : Descriptor}
    (hd : r.lookupInstance (.record s vs) = .ok d) :
    ∃ d', r'.lookupInstance (.record s vs) = .ok d' ∧ d.WidensTo d' := by
  obtain ⟨d', hd', hw⟩ := h.exists_get? (lookupInstance_record.1 hd)
  exact ⟨d', lookupInstance_record.2 hd', hw⟩

/-- Parents are the same. -/
theorem parent? (tag : String) : r'.parent? tag = r.parent? tag := by
  have hget := h.get? tag
  unfold Registry.parent?
  generalize r.get? tag = found, r'.get? tag = found' at hget ⊢
  cases hget with
  | none => rfl
  | some hd => exact hd.parent

/-- Types stand in the same places. -/
theorem isAssignable (concrete declared : String) :
    r'.isAssignable concrete declared = r.isAssignable concrete declared :=
  isAssignable_congr h.parent? (List.Forall₂.length_eq h).symm concrete declared

/-- A native value stays native among types of records. -/
theorem native (hr' : r'.OfRecords) {v : Value} (hv : v.Native r) : v.Native r' := by
  refine Value.Everywhere.mono (fun s vs hs => ?_) (fun _ _ => trivial) hv
  obtain ⟨d, hd, -, hlen⟩ := hs
  obtain ⟨d', hd', hw⟩ := h.exists_get? hd
  exact ⟨d', hd', hr' d' (mem_of_get? hd').1, hlen.trans hw.fields.length_eq⟩

end Registry.WidensTo

/-! ## Traffic -/

namespace Codec

/-- Values in a row that fit fields fit wider fields and have the same forms there, if that holds of
each value. -/
theorem FieldsFit.widen {r r' : Registry} {P Q : Field → Value → Prop} {fs fs' : List Field}
    {vs : List Value} (hfields : List.Forall₂ Field.WidensTo fs fs')
    (h : ∀ v ∈ vs, ∀ f f', Field.WidensTo f f' → P f v → Q f' v ∧ r'.form f' v = r.form f v)
    (hfit : FieldsFit P fs vs) :
    FieldsFit Q fs' vs ∧ r'.fieldsForm fs' vs = r.fieldsForm fs vs := by
  induction hfields generalizing vs with
  | nil => exact ⟨trivial, by rw [Registry.fieldsForm, Registry.fieldsForm] <;> simp⟩
  | cons hf _ ih =>
    cases vs with
    | nil => exact hfit.elim
    | cons v vs =>
      obtain ⟨hfit, hfits⟩ := hfit
      obtain ⟨hv, hform⟩ := h v (.head _) _ _ hf hfit
      obtain ⟨hvs, hforms⟩ := ih (fun v hv => h v (.tail _ hv)) hfits
      exact ⟨⟨hv, hvs⟩, by rw [Registry.fieldsForm, Registry.fieldsForm, hform, hforms]⟩

section
variable {r r' : Registry} (h : r.WidensTo r') {l : Limits} {depth : Nat}
include h

/-- A record that conforms does so with the same form, if its values do so in wider fields. -/
theorem Conforms.widen_of {s : RecordShape} {vs : List Value}
    (hvs : ∀ v ∈ vs, ∀ f f', Field.WidensTo f f' → (Codec.mk r l).Fits f v depth →
      (Codec.mk r' l).Fits f' v depth ∧ r'.form f' v = r.form f v)
    (hi : (Codec.mk r l).Conforms (.record s vs) depth) :
    (Codec.mk r' l).Conforms (.record s vs) depth ∧
      r'.message (.record s vs) = r.message (.record s vs) := by
  obtain ⟨hdepth, d, hd, htag, hfit⟩ := conforms_iff.1 hi
  obtain ⟨d', hd', hw⟩ := h.exists_lookupInstance hd
  obtain ⟨hfit', hform⟩ := hfit.widen hw.fields hvs
  refine ⟨conforms_iff.2 ⟨hdepth, d', hd', by rwa [hw.tag], hfit'⟩, ?_⟩
  rw [r.message_of_lookup hd, r'.message_of_lookup hd', hw.tag]
  exact congrArg _ hform

variable (hn : r.Native) (hr : r.OfRecords)
include hn hr

/-- What fits a field fits the wider one and has the same form there. -/
theorem Fits.widen {f f' : Field} (hf : f.WidensTo f') {v : Value}
    (hfit : (Codec.mk r l).Fits f v depth) :
    (Codec.mk r' l).Fits f' v depth ∧ r'.form f' v = r.form f v := by
  induction v using Value.treeInduction generalizing f f' depth with
  | null =>
    have hnull := fits_null.1 hfit
    obtain ⟨hkind⟩ := hf
    refine ⟨.null hnull, ?_⟩
    rw [Registry.form, Registry.form]
    cases hkind <;> rfl
  | scalar s =>
    have hk := fits_scalar.1 hfit
    obtain ⟨hkind⟩ := hf
    cases hkind <;> cases hk
    exact ⟨.scalar rfl, by rw [Registry.form, Registry.form]⟩
  | string s =>
    obtain ⟨hk, hlen⟩ := fits_string.1 hfit
    obtain ⟨hkind⟩ := hf
    cases hkind <;> cases hk
    exact ⟨.string rfl hlen, by rw [Registry.form, Registry.form]⟩
  | bytes b =>
    obtain ⟨hk, hlen⟩ := fits_bytes.1 hfit
    obtain ⟨hkind⟩ := hf
    cases hkind <;> cases hk
    exact ⟨.bytes rfl hlen, by rw [Registry.form, Registry.form]⟩
  | enum variant =>
    obtain ⟨e, hk, hmem, hlen⟩ := fits_enum.1 hfit
    obtain ⟨hkind⟩ := hf
    cases hkind <;> cases hk
    case enum hsub =>
      exact ⟨.enum rfl (Enumeration.contains_of_subset hsub hmem) hlen,
        by rw [Registry.form, Registry.form]⟩
  | list items ih =>
    obtain ⟨element, hk, hdepth, hlen, hitems⟩ := fits_list.1 hfit
    obtain ⟨hkind⟩ := hf
    cases hkind <;> cases hk
    case list hf =>
      have hitems' := fun v hv => ih v hv hf (hitems v hv)
      refine ⟨.list rfl hdepth hlen fun v hv => (hitems' v hv).1, ?_⟩
      rw [r.form_list rfl, r'.form_list rfl, List.flatMap_congr fun v hv => (hitems' v hv).2]
  | map entries ih =>
    obtain ⟨key, value, hk, hdepth, hlen, hentries⟩ := fits_map.1 hfit
    obtain ⟨hkind⟩ := hf
    cases hkind <;> cases hk
    case map hkey hvalue =>
      have hkeys := fun e he => (ih e he).1 hkey (hentries e he).1
      have hvalues := fun e he => (ih e he).2 hvalue (hentries e he).2
      refine ⟨.map rfl hdepth hlen (fun e he => (hkeys e he).1) fun e he => (hvalues e he).1, ?_⟩
      rw [r.form_map rfl, r'.form_map rfl,
        List.flatMap_congr fun e he => by rw [(hkeys e he).2, (hvalues e he).2]]
  | record s vs ih =>
    obtain ⟨declared, d, hk, hd, hto, hi⟩ := fits_nested.1 hfit
    obtain ⟨d', hd', hw⟩ := h.exists_lookupInstance hd
    obtain ⟨hi', hform⟩ := hi.widen_of h fun v hv f f' hf hv' => ih v hv hf hv'
    obtain ⟨hkind⟩ := hf
    cases hkind <;> cases hk
    refine ⟨.nested rfl hd' ?_ hi', ?_⟩
    · rw [hw.tag]
      exact (h.isAssignable d.tag declared).trans hto
    · rw [Registry.form, Registry.form, hform]
  | entity e =>
    obtain ⟨declared, d, -, hd, -, -⟩ := fits_nested.1 hfit
    exact absurd hd (hn.lookupInstance_entity_ne hr)

/-- What conforms does so among wider types, with the same form. -/
theorem Conforms.widen {i : Instance} (hi : (Codec.mk r l).Conforms i depth) :
    (Codec.mk r' l).Conforms i depth ∧ r'.message i = r.message i := by
  cases i with
  | record s vs => exact hi.widen_of h fun v _ f f' hf hfit => hfit.widen h hn hr hf
  | entity e =>
    obtain ⟨-, d, hd, -⟩ := conforms_iff.1 hi
    exact absurd hd (hn.lookupInstance_entity_ne hr)

end

end Codec

namespace Registry

/-- A registry of records whose enumerations have more variants encodes whatever it did before, to
the same bytes, and decodes whatever it did before, to the same trees. -/
theorem WidensTo.keeps_traffic {r r' : Registry} (h : r.WidensTo r') (hn : r.Native)
    (hr : r.OfRecords) (hn' : r'.Native) (hr' : r'.OfRecords) (l : Limits) :
    (∀ i bytes, (Codec.mk r l).encode i = .ok bytes → (Codec.mk r' l).encode i = .ok bytes) ∧
      ∀ bytes i n, (Codec.mk r l).decodePrefix bytes = .ok (i, n) →
        ∃ j, (Codec.mk r' l).decodePrefix bytes = .ok (j, n) ∧ j.Same i := by
  refine ⟨?_, ?_⟩
  · intro i bytes hi
    obtain ⟨hconforms, rfl⟩ := (Codec.encode_eq_ok _).1 hi
    obtain ⟨hconforms', hform⟩ := hconforms.widen h hn hr
    exact (Codec.encode_eq_ok _).2 ⟨hconforms', hform.symm⟩
  · intro bytes i n hi
    rw [← Codec.decodePrefix_capped, Codec.decodePrefix_iff hn (Codec.maxLength_capped_le _)] at hi
    obtain ⟨raw, hnative, hconforms, rfl, hle, hbytes⟩ := hi
    obtain ⟨hconforms', hform⟩ := hconforms.widen h hn hr
    have hnative' := h.native hr' (Value.everywhere_nested.2 hnative)
    refine ⟨raw.received r', ?_, (raw.received_same r').trans (raw.received_same r).symm⟩
    rw [← Codec.decodePrefix_capped, Codec.decodePrefix_iff hn' (Codec.maxLength_capped_le _)]
    exact ⟨raw, Value.everywhere_nested.1 hnative', hconforms', rfl, hle, hform.trans hbytes⟩

/-- A type of records with a required color and a list of colors. -/
def swatch (colors : Enumeration) : Descriptor :=
  let fields : List Field :=
    [⟨"color", .enum colors, false⟩, ⟨"shades", .list ⟨"shade", .enum colors, false⟩, false⟩]
  ⟨"Swatch", none, fields, (Record.fresh ⟨"Swatch", fields⟩).toInstance⟩

/-- A red swatch with a blue shade, as a record of the given fields. -/
def redSwatch (fields : List Field) : Instance :=
  .record ⟨"Swatch", fields⟩ [.enum "red", .list [.enum "blue"]]

/-- The message of a red swatch with a blue shade. -/
def redSwatchMessage : List UInt8 :=
  [6, 0, 0, 0, 0x53, 0x77, 0x61, 0x74, 0x63, 0x68, 3, 0, 0, 0, 0x72, 0x65, 0x64,
    1, 0, 0, 0, 4, 0, 0, 0, 0x62, 0x6C, 0x75, 0x65]

/-- A swatch is written and read alike where its colors stand in another order among more of them,
under another name. -/
theorem keeps_traffic_swatch :
    (Codec.mk ⟨[swatch ⟨"Hue", ["green", "blue", "red"]⟩]⟩ {}).encode (redSwatch []) =
      .ok redSwatchMessage ∧
    ∃ j, (Codec.mk ⟨[swatch ⟨"Hue", ["green", "blue", "red"]⟩]⟩ {}).decodePrefix redSwatchMessage =
      .ok (j, 29) ∧ j.Same (redSwatch (swatch ⟨"Color", ["red", "blue"]⟩).fields) := by
  have hcolors : ∀ variant ∈ ["red", "blue"], variant ∈ ["green", "blue", "red"] := by decide
  have hwidens : WidensTo ⟨[swatch ⟨"Color", ["red", "blue"]⟩]⟩
      ⟨[swatch ⟨"Hue", ["green", "blue", "red"]⟩]⟩ :=
    .cons ⟨rfl, rfl, .cons ⟨.enum hcolors⟩ (.cons ⟨.list ⟨.enum hcolors⟩⟩ .nil)⟩ .nil
  have hrecords (colors : Enumeration) : OfRecords ⟨[swatch colors]⟩ :=
    List.forall_mem_singleton.2 rfl
  have hnative (colors : Enumeration) : Native ⟨[swatch colors]⟩ :=
    .records (d := swatch colors) .empty rfl rfl
  obtain ⟨hencode, hdecode⟩ :=
    WidensTo.keeps_traffic hwidens (hnative _) (hrecords _) (hnative _) (hrecords _) {}
  have hmessage : (Codec.mk ⟨[swatch ⟨"Color", ["red", "blue"]⟩]⟩ {}).encode (redSwatch []) =
      .ok redSwatchMessage := rfl
  obtain ⟨hconforms, hform⟩ := (Codec.encode_eq_ok _).1 hmessage
  have hred : (redSwatch []).Native ⟨[swatch ⟨"Color", ["red", "blue"]⟩]⟩ :=
    ⟨⟨swatch ⟨"Color", ["red", "blue"]⟩, rfl, rfl, rfl⟩, trivial, ⟨trivial, trivial⟩, trivial⟩
  have hprefix : (Codec.mk ⟨[swatch ⟨"Color", ["red", "blue"]⟩]⟩ {}).decodePrefix
      redSwatchMessage = .ok (redSwatch (swatch ⟨"Color", ["red", "blue"]⟩).fields, 29) :=
    (Codec.decodePrefix_iff (hnative _) (by decide)).2
      ⟨redSwatch [], hred, hconforms, rfl, by decide, hform.symm⟩
  exact ⟨hencode _ _ hmessage, hdecode _ _ _ hprefix⟩

end Registry

end TagWire
