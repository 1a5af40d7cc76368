import TagWire.Proofs.Codec.Conformance
import TagWire.Proofs.Registry.Received
import TagWire.Proofs.Schema.Storing

/-!
# What arrives in a field

A value arrives in the place of a field if it is what is received of a native value that fits there,
and the bytes it arrives as are the form of that value (`Codec.Arrives`). Null is told apart from
what is present (`Codec.arrives_iff`), and what is present is described for each kind of field, the
way it is read. The fields of a type arrive together: storing them in a fresh instance gives what is
received of a native instance of the type, and nothing else (`Codec.exists_body_iff`).
-/

namespace TagWire

open TagWire.Localization (Entity)

namespace Codec

/-- Answers that come from something with a property, of which the bytes are the form. -/
def Stems {α β : Type} (P : α → Prop) (form : α → List UInt8) (g : α → β) (b : β)
    (bs : List UInt8) : Prop :=
  ∃ a, P a ∧ form a = bs ∧ g a = b

/-- Whether a value arrives in the place of a field of an instance at a depth, and is spelled by
some bytes. -/
def Arrives (c : Codec) (f : Field) (depth : Nat) : Value → List UInt8 → Prop :=
  Stems (fun raw => raw.Native c.registry ∧ c.Fits f raw depth) (c.registry.form f)
    (Value.received c.registry)

/-- Whether a value arrives of something other than null. -/
def ArrivesPresent (c : Codec) (f : Field) (depth : Nat) (v : Value) (bs : List UInt8) : Prop :=
  ∃ raw, raw ≠ .null ∧ c.Fits f raw depth ∧ raw.Native c.registry ∧ c.registry.form f raw = bs ∧
    raw.received c.registry = v

variable {c : Codec} {f : Field} {depth : Nat}

/-- Null arrives where it is allowed, and something else stems from something else. -/
theorem arrives_iff {v : Value} {bs : List UInt8} : c.Arrives f depth v bs ↔
    (f.nullable = true ∧ v = .null ∧ bs = c.registry.form f .null) ∨
      c.ArrivesPresent f depth v bs := by
  refine ⟨?_, ?_⟩
  · intro h
    obtain ⟨raw, ⟨hnative, hfit⟩, rfl, rfl⟩ := h
    by_cases hraw : raw = .null
    · subst hraw
      exact .inl ⟨fits_null.1 hfit, rfl, rfl⟩
    · exact .inr ⟨raw, hraw, hfit, hnative, rfl, rfl⟩
  · intro h
    rcases h with ⟨hnull, rfl, rfl⟩ | ⟨raw, -, hfit, hnative, rfl, rfl⟩
    · exact ⟨.null, ⟨trivial, .null hnull⟩, rfl, rfl⟩
    · exact ⟨raw, ⟨hnative, hfit⟩, rfl, rfl⟩

/-- What arrives of a value that fits a field is accepted by the field. -/
theorem Fits.accepts_received {v : Value} (h : c.Fits f v depth) (r : Registry) :
    f.accepts (v.received r) = true :=
  (f.accepts_mapTree _ _ v).trans h.accepts

/-- What arrives in the place of a field is accepted by the field. -/
theorem Arrives.accepts {v : Value} {bs : List UInt8} (h : c.Arrives f depth v bs) :
    f.accepts v = true := by
  obtain ⟨raw, ⟨-, hfit⟩, -, rfl⟩ := h
  exact hfit.accepts_received c.registry

/-! ## Each kind of field -/

section
variable {v : Value} {bs : List UInt8}

/-- A scalar of the kind arrives, behind the byte of presence where null is allowed. -/
theorem arrivesPresent_scalar {k : ScalarKind} (hk : f.kind = .scalar k) :
    c.ArrivesPresent f depth v bs ↔ ∃ s, s.kind = k ∧ v = .scalar s ∧
      bs = (if f.nullable then Wire.presence true else []) ++ s.bytes := by
  refine ⟨?_, ?_⟩
  · intro h
    obtain ⟨raw, hraw, hfit, -, rfl, rfl⟩ := h
    rw [fits_iff_of_ne_null hraw, hk] at hfit
    obtain ⟨s, rfl, rfl⟩ := hfit
    exact ⟨s, rfl, rfl, c.registry.form_scalar _⟩
  · intro h
    obtain ⟨s, rfl, rfl, rfl⟩ := h
    exact ⟨.scalar s, Value.noConfusion, .scalar hk, trivial, c.registry.form_scalar _, rfl⟩

/-- A text arrives behind its length. -/
theorem arrivesPresent_string (hk : f.kind = .string) :
    c.ArrivesPresent f depth v bs ↔ ∃ s,
      (Text.Utf8.ofString s).length ≤ c.limits.maxLength.toNat ∧ v = .string s ∧
      bs = Wire.text s := by
  refine ⟨?_, ?_⟩
  · intro h
    obtain ⟨raw, hraw, hfit, -, rfl, rfl⟩ := h
    rw [fits_iff_of_ne_null hraw, hk] at hfit
    obtain ⟨s, rfl, hlen⟩ := hfit
    exact ⟨s, hlen, rfl, c.registry.form_string _⟩
  · intro h
    obtain ⟨s, hlen, rfl, rfl⟩ := h
    exact ⟨.string s, Value.noConfusion, .string hk hlen, trivial, c.registry.form_string _, rfl⟩

/-- Bytes arrive behind their length. -/
theorem arrivesPresent_bytes (hk : f.kind = .bytes) :
    c.ArrivesPresent f depth v bs ↔ ∃ b : List UInt8,
      b.length ≤ c.limits.maxLength.toNat ∧ v = .bytes b ∧ bs = Wire.block b := by
  refine ⟨?_, ?_⟩
  · intro h
    obtain ⟨raw, hraw, hfit, -, rfl, rfl⟩ := h
    rw [fits_iff_of_ne_null hraw, hk] at hfit
    obtain ⟨b, rfl, hlen⟩ := hfit
    exact ⟨b, hlen, rfl, c.registry.form_bytes _⟩
  · intro h
    obtain ⟨b, hlen, rfl, rfl⟩ := h
    exact ⟨.bytes b, Value.noConfusion, .bytes hk hlen, trivial, c.registry.form_bytes _, rfl⟩

/-- A variant of the enumeration arrives as its name. -/
theorem arrivesPresent_enum {e : Enumeration} (hk : f.kind = .enum e) :
    c.ArrivesPresent f depth v bs ↔ ∃ variant, e.contains variant = true ∧
      (Text.Utf8.ofString variant).length ≤ c.limits.maxLength.toNat ∧ v = .enum variant ∧
      bs = Wire.text variant := by
  refine ⟨?_, ?_⟩
  · intro h
    obtain ⟨raw, hraw, hfit, -, rfl, rfl⟩ := h
    rw [fits_iff_of_ne_null hraw, hk] at hfit
    obtain ⟨variant, rfl, hmem, hlen⟩ := hfit
    exact ⟨variant, hmem, hlen, rfl, c.registry.form_enum _⟩
  · intro h
    obtain ⟨variant, hmem, hlen, rfl, rfl⟩ := h
    exact ⟨.enum variant, Value.noConfusion, .enum hk hmem hlen, trivial, c.registry.form_enum _,
      rfl⟩

/-- A native instance of an assignable type arrives as its message, one level deeper. -/
theorem arrivesPresent_nested {declared : String} (hk : f.kind = .nested declared) :
    c.ArrivesPresent f depth v bs ↔ ∃ i d, c.registry.lookupInstance i = .ok d ∧
      c.registry.isAssignable d.tag declared = true ∧ c.Conforms i (depth + 1) ∧
      i.Native c.registry ∧ v = .nested (i.received c.registry) ∧ bs = c.registry.message i := by
  refine ⟨?_, ?_⟩
  · intro h
    obtain ⟨raw, hraw, hfit, hnative, rfl, rfl⟩ := h
    rw [fits_iff_of_ne_null hraw, hk] at hfit
    obtain ⟨i, d, rfl, hlookup, hto, hi⟩ := hfit
    exact ⟨i, d, hlookup, hto, hi, hnative, rfl, c.registry.form_nested _⟩
  · intro h
    obtain ⟨i, d, hlookup, hto, hi, hnative, rfl, rfl⟩ := h
    exact ⟨.nested i, Value.noConfusion, .nested hk hlookup hto hi, hnative,
      c.registry.form_nested _, rfl⟩

/-- The items of a list arrive in a row behind their number, one level deeper. -/
theorem arrivesPresent_list {element : Field} (hk : f.kind = .list element) :
    c.ArrivesPresent f depth v bs ↔ depth + 1 ≤ c.limits.maxDepth.toNat ∧ ∃ raws : List Value,
      raws.length ≤ c.limits.maxLength.toNat ∧
      (∀ raw ∈ raws, raw.Native c.registry ∧ c.Fits element raw (depth + 1)) ∧
      v = .list (raws.map (Value.received c.registry)) ∧
      bs = Wire.count raws.length ++ raws.flatMap (c.registry.form element) := by
  refine ⟨?_, ?_⟩
  · intro h
    obtain ⟨raw, hraw, hfit, hnative, rfl, rfl⟩ := h
    rw [fits_iff_of_ne_null hraw, hk] at hfit
    obtain ⟨raws, rfl, hdepth, hlen, hraws⟩ := hfit
    have hnative := Value.everywhere_list.1 hnative
    exact ⟨hdepth, raws, hlen, fun raw hmem => ⟨hnative raw hmem, hraws raw hmem⟩,
      Value.mapTree_list _ _ _, c.registry.form_list hk raws⟩
  · intro h
    obtain ⟨hdepth, raws, hlen, hraws, rfl, rfl⟩ := h
    have hfit : c.Fits f (.list raws) depth :=
      .list hk hdepth hlen fun raw hmem => (hraws raw hmem).2
    exact ⟨.list raws, Value.noConfusion, hfit,
      Value.everywhere_list.2 fun raw hmem => (hraws raw hmem).1, c.registry.form_list hk raws,
      Value.mapTree_list _ _ _⟩

/-- The entries of a map arrive in a row behind their number, one level deeper. -/
theorem arrivesPresent_map {key value : Field} (hk : f.kind = .map key value) :
    c.ArrivesPresent f depth v bs ↔ depth + 1 ≤ c.limits.maxDepth.toNat ∧
      ∃ raws : List (Value × Value), raws.length ≤ c.limits.maxLength.toNat ∧
      (∀ raw ∈ raws, (raw.1.Native c.registry ∧ c.Fits key raw.1 (depth + 1)) ∧
        raw.2.Native c.registry ∧ c.Fits value raw.2 (depth + 1)) ∧
      v = .map (raws.map fun raw => (raw.1.received c.registry, raw.2.received c.registry)) ∧
      bs = Wire.count raws.length ++
        raws.flatMap fun raw => c.registry.form key raw.1 ++ c.registry.form value raw.2 := by
  refine ⟨?_, ?_⟩
  · intro h
    obtain ⟨raw, hraw, hfit, hnative, rfl, rfl⟩ := h
    rw [fits_iff_of_ne_null hraw, hk] at hfit
    obtain ⟨raws, rfl, hdepth, hlen, hraws⟩ := hfit
    have hnative := Value.everywhere_map.1 hnative
    exact ⟨hdepth, raws, hlen, fun raw hmem => ⟨⟨(hnative raw hmem).1, (hraws raw hmem).1⟩,
      (hnative raw hmem).2, (hraws raw hmem).2⟩, Value.mapTree_map _ _ _,
      c.registry.form_map hk raws⟩
  · intro h
    obtain ⟨hdepth, raws, hlen, hraws, rfl, rfl⟩ := h
    have hfit : c.Fits f (.map raws) depth := .map hk hdepth hlen
      (fun raw hmem => (hraws raw hmem).1.2) fun raw hmem => (hraws raw hmem).2.2
    exact ⟨.map raws, Value.noConfusion, hfit,
      Value.everywhere_map.2 fun raw hmem => ⟨(hraws raw hmem).1.1, (hraws raw hmem).2.1⟩,
      c.registry.form_map hk raws, Value.mapTree_map _ _ _⟩

end

/-! ## The fields of a type -/

/-- Values in a row that fit fields in a row, with as many of the one as of the other. -/
theorem forall₂_iff {P : Value → Prop} {Q : Field → Value → Prop} {fs : List Field}
    {vs : List Value} : List.Forall₂ (fun f v => P v ∧ Q f v) fs vs ↔
      vs.length = fs.length ∧ (∀ v ∈ vs, P v) ∧ FieldsFit Q fs vs := by
  induction fs generalizing vs with
  | nil =>
    rw [List.forall₂_nil_left_iff, List.length_nil, List.length_eq_zero_iff]
    refine ⟨fun h => ?_, fun h => h.1⟩
    subst h
    exact ⟨rfl, List.forall_mem_nil _, trivial⟩
  | cons f fs ih =>
    cases vs with
    | nil =>
      refine ⟨?_, ?_⟩
      · intro h
        cases h
      · intro h
        cases h.1
    | cons v vs =>
      rw [List.forall₂_cons, ih, List.forall_mem_cons, List.length_cons, List.length_cons,
        Nat.succ_inj, FieldsFit]
      refine ⟨?_, ?_⟩
      · intro h
        obtain ⟨⟨hp, hq⟩, hlen, hps, hqs⟩ := h
        exact ⟨hlen, ⟨hp, hps⟩, hq, hqs⟩
      · intro h
        obtain ⟨hlen, ⟨hp, hps⟩, hq, hqs⟩ := h
        exact ⟨⟨hp, hq⟩, hlen, hps, hqs⟩

/-- A record of a registered type arrives with the shape of the type. -/
theorem received_record {r : Registry} {s : RecordShape} {vs : List Value} {d : Descriptor}
    (hd : r.get? s.tag = some d) : (Instance.record s vs).received r =
      .record ⟨d.tag, d.fields⟩ (vs.map (Value.received r)) := by
  rw [Instance.received, Instance.mapTree_record, Registry.shapeOf, hd]
  rfl

/-- A fresh record of a type stores what is received of values that fit. -/
theorem storeAll_received {r : Registry} {d : Descriptor} (hd : d.OfRecords) {raws : List Value}
    (h : List.Forall₂ (fun f raw => raw.Native r ∧ c.Fits f raw depth) d.fields raws) :
    d.prototype.storeAll 0 (raws.map (Value.received r)) =
      .ok (.record ⟨d.tag, d.fields⟩ (raws.map (Value.received r))) := by
  rw [hd]
  exact Instance.storeAll_fresh (List.forall₂_map_right_iff.2
    (h.imp fun f raw hraw => hraw.2.accepts_received r))

/-- A fresh instance of a type becomes what is received of a native instance of the type, when what
is received of its values is stored. -/
theorem storeAll_values (hc : c.registry.Native) {i : Instance} {d : Descriptor}
    (hd : c.registry.lookupInstance i = .ok d) (hi : i.Native c.registry)
    (hfit : FieldsFit (fun f v => c.Fits f v depth) d.fields i.values) :
    i.values.length = d.fields.length ∧
      d.prototype.storeAll 0 (i.values.map (Value.received c.registry)) =
        .ok (i.received c.registry) := by
  cases i with
  | record s vs =>
    have hs := Registry.lookupInstance_record.1 hd
    obtain ⟨⟨d', hd', hrec, hlen⟩, hvs⟩ := Instance.everywhere_record.1 hi
    rw [hs, Option.some.injEq] at hd'
    subst hd'
    rw [received_record hs]
    exact ⟨hlen, storeAll_received hrec (forall₂_iff.2 ⟨hlen, hvs, hfit⟩)⟩
  | entity e =>
    obtain ⟨rfl, -⟩ := hc.lookupInstance_entity.1 hd
    rw [Instance.values, Entity.map_received_eq_iff.2 rfl]
    exact ⟨e.length_values, (Instance.storeAll_entity e.length_values).2 ⟨e, rfl, rfl, rfl⟩⟩

/-- The fields of a type are stored in a fresh instance exactly if they are those of a native
instance of the type, and become what is received of it. -/
theorem exists_body_iff (hc : c.registry.Native) {d : Descriptor}
    (hd : c.registry.get? d.tag = some d) {j : Instance} {bs : List UInt8} :
    (∃ raws, List.Forall₂ (fun f raw => raw.Native c.registry ∧ c.Fits f raw depth) d.fields raws ∧
      c.registry.fieldsForm d.fields raws = bs ∧
      d.prototype.storeAll 0 (raws.map (Value.received c.registry)) = .ok j) ↔
    ∃ raw, c.registry.lookupInstance raw = .ok d ∧ raw.Native c.registry ∧
      FieldsFit (fun f v => c.Fits f v depth) d.fields raw.values ∧
      c.registry.fieldsForm d.fields raw.values = bs ∧ raw.received c.registry = j := by
  have hmem := (Registry.mem_of_get? hd).1
  refine ⟨?_, ?_⟩
  · intro h
    obtain ⟨raws, hraws, rfl, hj⟩ := h
    obtain ⟨hlen, hnative, hfit⟩ := forall₂_iff.1 hraws
    rcases hc.ofRecords_or_entity d hmem with hrec | ⟨t, rfl⟩
    · rw [storeAll_received hrec hraws] at hj
      cases hj
      exact ⟨.record ⟨d.tag, d.fields⟩ raws, Registry.lookupInstance_record.2 hd,
        Instance.everywhere_record.2 ⟨⟨d, hd, hrec, hlen⟩, hnative⟩, hfit, rfl,
        received_record hd⟩
    · have hlen' := (List.length_map (Value.received c.registry)).trans hlen
      obtain ⟨e, rfl, hvalues, rfl⟩ := (Instance.storeAll_entity hlen').1 hj
      cases Entity.map_received_eq_iff.1 hvalues.symm
      exact ⟨.entity e, hc.lookupInstance_entity.2 ⟨rfl, hmem⟩, trivial, hfit, rfl, rfl⟩
  · intro h
    obtain ⟨raw, hlookup, hnative, hfit, rfl, rfl⟩ := h
    obtain ⟨hlen, hstore⟩ := storeAll_values hc hlookup hnative hfit
    exact ⟨raw.values, forall₂_iff.2 ⟨hlen, hnative.values, hfit⟩, rfl, hstore⟩

end Codec

end TagWire
