import TagWire.Proofs.Codec.RoundTrip

/-!
# Canonical messages

Whatever is decoded can be encoded again: what is received of an instance that conforms conforms
(`Codec.Conforms.received`), since a normalized file name is no longer than before. If no file name
on the wire starts with a separator, the bytes are the same again, so no instance has two messages
over a registry of records (`Codec.encode_decode`).
-/

namespace TagWire

open TagWire.Localization (Entity StreamRequest)

/-! ## What is received fits -/

/-- A file name without the separator in front is no longer than before. -/
theorem Localization.length_bareName (name : String) :
    (Text.Utf8.ofString (bareName name)).length ≤ (Text.Utf8.ofString name).length := by
  unfold bareName
  split
  next hhead =>
    obtain ⟨rest, hrest⟩ := List.head?_eq_some_iff.1 hhead
    simp only [Text.Utf8.ofString, Text.Utf8.encode, hrest, List.tail_cons, String.toList_ofList,
      List.flatMap_cons, List.length_append]
    omega
  next => exact Nat.le_refl _

namespace Codec

variable {c : Codec} {f : Field} {depth : Nat}

/-- Values in a row stay fit when each becomes one that fits wherever it did. -/
theorem FieldsFit.mono {P : Field → Value → Prop} {fs : List Field} {vs ws : List Value}
    (h : List.Forall₂ (fun v w => ∀ f, P f v → P f w) vs ws) (hfit : FieldsFit P fs vs) :
    FieldsFit P fs ws := by
  induction h generalizing fs with
  | nil => exact hfit
  | cons hvw _ ih =>
    cases fs with
    | nil => trivial
    | cons f fs => exact ⟨hvw f hfit.1, ih hfit.2⟩

/-- A file name fits without the separator in front where it fits. -/
theorem Fits.bareName {name? : Option String} (h : c.Fits f (.ofOptionalText name?) depth) :
    c.Fits f (.ofOptionalText (name?.map Localization.bareName)) depth := by
  cases name? with
  | none => exact h
  | some name =>
    obtain ⟨hk, hlen⟩ := fits_string.1 h
    exact .string hk (Nat.le_trans (Localization.length_bareName name) hlen)

/-- The values of an entity fit normalized where they fit. -/
theorem forall₂_normalized (e : Entity) :
    List.Forall₂ (fun v w => ∀ f, c.Fits f v depth → c.Fits f w depth) e.values
      e.normalized.values := by
  have hsame (vs : List Value) :
      List.Forall₂ (fun v w => ∀ f, c.Fits f v depth → c.Fits f w depth) vs vs :=
    List.forall₂_same.2 fun v _ f h => h
  have hrequest (r : StreamRequest) (vs : List Value) :
      List.Forall₂ (fun v w => ∀ f, c.Fits f v depth → c.Fits f w depth)
        (Entity.values.requestValues r ++ vs)
        (Entity.values.requestValues r.normalized ++ vs) :=
    .cons (fun _ h => h) (.cons (fun _ h => h.bareName) (hsame _))
  cases e with
  | user u => exact hsame _
  | context k => exact hsame _
  | streamRequest r => exact hrequest r []
  | getRequest g => exact hrequest g.request _
  | putRequest p => exact hrequest p.request _

/-- An instance stays conformant when its values become ones that fit wherever they did. -/
theorem Conforms.mono {i j : Instance}
    (hlookup : c.registry.lookupInstance j = c.registry.lookupInstance i)
    (hvalues : List.Forall₂ (fun v w => ∀ f, c.Fits f v depth → c.Fits f w depth) i.values j.values)
    (h : c.Conforms i depth) : c.Conforms j depth := by
  obtain ⟨hdepth, d, hd, htag, hfit⟩ := conforms_iff.1 h
  exact conforms_iff.2 ⟨hdepth, d, hlookup.trans hd, htag, hfit.mono hvalues⟩

/-- What is received of a value that fits fits. -/
theorem Fits.received {v : Value} (h : c.Fits f v depth) :
    c.Fits f (v.received c.registry) depth := by
  induction v using Value.treeInduction generalizing f depth with
  | null | scalar _ | string _ | bytes _ | enum _ => exact h
  | list items ih =>
    rw [Value.received, Value.mapTree_list]
    obtain ⟨element, hk, hdepth, hlen, hfit⟩ := fits_list.1 h
    exact .list hk hdepth (by simpa using hlen)
      (List.forall_mem_map.2 fun v hv => ih v hv (hfit v hv))
  | map entries ih =>
    rw [Value.received, Value.mapTree_map]
    obtain ⟨key, value, hk, hdepth, hlen, hfit⟩ := fits_map.1 h
    exact .map hk hdepth (by simpa using hlen)
      (List.forall_mem_map.2 fun e he => (ih e he).1 (hfit e he).1)
      (List.forall_mem_map.2 fun e he => (ih e he).2 (hfit e he).2)
  | record s vs ih =>
    obtain ⟨declared, d, hk, hlookup, hto, hi⟩ := fits_nested.1 h
    refine .nested hk ((c.registry.lookupInstance_received _).trans hlookup) hto
      (hi.mono (c.registry.lookupInstance_received _) ?_)
    rw [Instance.mapTree_record]
    exact List.forall₂_map_right_iff.2 (List.forall₂_same.2 fun v hv f hf => ih v hv hf)
  | entity e =>
    obtain ⟨declared, d, hk, hlookup, hto, hi⟩ := fits_nested.1 h
    exact .nested hk ((c.registry.lookupInstance_received _).trans hlookup) hto
      (hi.mono (c.registry.lookupInstance_received _) (forall₂_normalized e))

/-- What is received of an instance that conforms conforms. -/
theorem Conforms.received {i : Instance} (h : c.Conforms i depth) :
    c.Conforms (i.received c.registry) depth := by
  refine h.mono (c.registry.lookupInstance_received i) ?_
  cases i with
  | record s vs =>
    rw [Instance.received, Instance.mapTree_record]
    exact List.forall₂_map_right_iff.2 (List.forall₂_same.2 fun v _ f hf => hf.received)
  | entity e => exact forall₂_normalized e

end Codec

/-- What is received of a native instance is native. -/
theorem Instance.Native.received {r : Registry} {i : Instance} (h : i.Native r) :
    (i.received r).Native r := by
  refine Instance.Everywhere.mapTree (fun s vs hs => ?_) (fun _ _ => trivial) h
  obtain ⟨d, hd, hrec, hlen⟩ := hs
  exact ⟨d, by rwa [r.tag_shapeOf], hrec, by rwa [List.length_map]⟩

/-- A type may stand where it is declared itself. -/
theorem Registry.isAssignable_self (r : Registry) (tag : String) :
    r.isAssignable tag tag = true := by
  unfold isAssignable
  cases r.size <;> simp [reaches]

/-- What is received of an instance without separators has the same form. -/
theorem Registry.message_received {r : Registry} {i : Instance} (h : i.SeparatorFree) :
    r.message (i.received r) = r.message i := by
  have hi : i.received r = i.normalized.mapTree r.shapeOf id :=
    (Instance.mapTree_mapTree id Entity.normalized r.shapeOf id i).symm
  rw [hi, Instance.normalized_eq_self h]
  exact r.message_mapTree r.tag_shapeOf i

namespace Codec

/-- Among as many values as fields, each fits a field. -/
theorem FieldsFit.exists_of_mem {P : Field → Value → Prop} {fs : List Field} {vs : List Value}
    (h : FieldsFit P fs vs) (hlen : vs.length = fs.length) : ∀ v ∈ vs, ∃ f, P f v := by
  induction fs generalizing vs with
  | nil =>
    rw [List.eq_nil_of_length_eq_zero hlen]
    exact List.forall_mem_nil _
  | cons f fs ih =>
    cases vs with
    | nil => exact List.forall_mem_nil _
    | cons v vs =>
      exact List.forall_mem_cons.2 ⟨⟨f, h.1⟩, ih h.2 (Nat.succ.inj hlen)⟩

/-- Over a registry of records alone, a native value that fits has no file names in it. -/
theorem Fits.separatorFree {c : Codec} (hc : c.registry.Native) (hr : c.registry.OfRecords)
    {f : Field} {v : Value} {depth : Nat} (hv : v.Native c.registry) (h : c.Fits f v depth) :
    v.Everywhere (fun _ _ => True) Entity.SeparatorFree := by
  induction v using Value.treeInduction generalizing f depth with
  | null | scalar _ | string _ | bytes _ | enum _ => trivial
  | list items ih =>
    obtain ⟨element, -, -, -, hfit⟩ := fits_list.1 h
    have hv := Value.everywhere_list.1 hv
    exact Value.everywhere_list.2 fun v hmem => ih v hmem (hv v hmem) (hfit v hmem)
  | map entries ih =>
    obtain ⟨key, value, -, -, -, hfit⟩ := fits_map.1 h
    have hv := Value.everywhere_map.1 hv
    exact Value.everywhere_map.2 fun e hmem =>
      ⟨(ih e hmem).1 (hv e hmem).1 (hfit e hmem).1, (ih e hmem).2 (hv e hmem).2 (hfit e hmem).2⟩
  | record s vs ih =>
    obtain ⟨declared, d, -, hlookup, -, hi⟩ := fits_nested.1 h
    obtain ⟨⟨d', hd', -, hlen⟩, hvs⟩ := Instance.everywhere_record.1 (Value.everywhere_nested.1 hv)
    rw [Registry.lookupInstance_record.1 hlookup, Option.some.injEq] at hd'
    subst hd'
    obtain ⟨-, -, hfit⟩ := (conforms_of_lookup hlookup).1 hi
    refine Value.everywhere_nested.2 (Instance.everywhere_record.2 ⟨trivial, fun v hmem => ?_⟩)
    obtain ⟨f, hf⟩ := hfit.exists_of_mem hlen v hmem
    exact ih v hmem (hvs v hmem) hf
  | entity e =>
    obtain ⟨declared, d, -, hlookup, -, -⟩ := fits_nested.1 h
    exact absurd hlookup (hc.lookupInstance_entity_ne hr)

/-- Whether some bytes are the form of a native instance that conforms, which they carry. -/
def Carries (c : Codec) (bytes : List UInt8) (raw : Instance) : Prop :=
  raw.Native c.registry ∧ c.Conforms raw 1 ∧ c.registry.message raw = bytes

/-- Bytes that carry no file name with a separator in front are what is encoded of what they are
decoded to. -/
theorem Carries.encode_received {c : Codec} {bytes : List UInt8} {raw : Instance}
    (h : c.Carries bytes raw) (hraw : raw.SeparatorFree) :
    c.encode (raw.received c.registry) = .ok bytes :=
  c.encode_eq_ok.2 ⟨h.2.1.received, by rw [Registry.message_received hraw, h.2.2]⟩

/-- Bytes may carry more than one instance, but what is received of each is the same. -/
theorem Carries.received_eq {c : Codec} (hc : c.registry.Native)
    (hlength : c.limits.maxLength ≤ maxWireLength) {bytes : List UInt8} {raw raw' : Instance}
    (h : c.Carries bytes raw) (h' : c.Carries bytes raw') :
    raw.received c.registry = raw'.received c.registry := by
  have hdecode := (decode_iff hc hlength).2 ⟨raw, h.1, h.2.1, rfl, h.2.2⟩
  have hdecode' := (decode_iff hc hlength).2 ⟨raw', h'.1, h'.2.1, rfl, h'.2.2⟩
  exact Except.ok.inj (hdecode.symm.trans hdecode')

/-- An instance that conforms below the root fits a field of its own type. -/
theorem Conforms.exists_fits {c : Codec} {i : Instance} {depth : Nat}
    (h : c.Conforms i (depth + 1)) : ∃ f, c.Fits f (.nested i) depth := by
  obtain ⟨-, d, hd, -⟩ := conforms_iff.1 h
  exact ⟨⟨"", .nested d.tag, false⟩, .nested rfl hd (c.registry.isAssignable_self d.tag) h⟩

/-- Over a registry of records alone, bytes carry no file names. -/
theorem Carries.separatorFree {c : Codec} (hc : c.registry.Native) (hr : c.registry.OfRecords)
    {bytes : List UInt8} {raw : Instance} (h : c.Carries bytes raw) : raw.SeparatorFree := by
  obtain ⟨f, hf⟩ := h.2.1.exists_fits
  exact Value.everywhere_nested.1 (hf.separatorFree hc hr h.1)

/-- Whatever decodes encodes again, and what is encoded decodes again. If the bytes of the message
carry no file name with a separator in front, they are what is encoded. So over a registry of
records alone, no two messages decode to the same tree. -/
theorem encode_decode {c : Codec} (hc : c.registry.Native)
    (hlength : c.limits.maxLength ≤ maxWireLength) :
    (∀ b i n, c.decodePrefix b = .ok (i, n) →
      (∃ m j, c.encode i = .ok m ∧ c.decode m = .ok j) ∧
      (∃ raw, c.Carries (b.take n) raw ∧ raw.normalized.Same i) ∧
      ∀ raw, c.Carries (b.take n) raw → raw.SeparatorFree → c.encode i = .ok (b.take n)) ∧
    (c.registry.OfRecords → ∀ b b' i i', c.decode b = .ok i → c.decode b' = .ok i' → i.Same i' →
      b = b') := by
  refine ⟨?_, ?_⟩
  · intro b i n h
    obtain ⟨raw, hnative, hi, rfl, -, hraw⟩ := (decodePrefix_iff hc hlength).1 h
    have hcarries : c.Carries (b.take n) raw := ⟨hnative, hi, hraw⟩
    have hencode := c.encode_eq_ok.2 ⟨hi.received, rfl⟩
    have hdecode := (decode_iff hc hlength).2
      ⟨raw.received c.registry, hnative.received, hi.received, rfl, rfl⟩
    refine ⟨⟨_, _, hencode, hdecode⟩, ⟨raw, hcarries, (raw.received_same _).symm⟩, ?_⟩
    intro raw' hcarries' hfree
    rw [hcarries.received_eq hc hlength hcarries']
    exact hcarries'.encode_received hfree
  · intro hr b b' i i' h h' hsame
    obtain ⟨raw, hnative, hi, rfl, rfl⟩ := (decode_iff hc hlength).1 h
    obtain ⟨raw', hnative', hi', rfl, rfl⟩ := (decode_iff hc hlength).1 h'
    have hfree := Carries.separatorFree hc hr ⟨hnative, hi, rfl⟩
    have hfree' := Carries.separatorFree hc hr ⟨hnative', hi', rfl⟩
    rw [← Registry.message_received hfree, ← Registry.message_received hfree']
    exact c.registry.message_eq_of_same hsame

/-- A user in front of another byte encodes again, and that decodes again. -/
theorem encode_decode_user : ∃ m j,
    (Codec.mk folderRegistry {}).decodePrefix
      [4, 0, 0, 0, 0x55, 0x73, 0x65, 0x72, 1, 0, 0, 0, 0x61, 7] =
        .ok (.entity (.user ⟨some "a"⟩), 13) ∧
      (Codec.mk folderRegistry {}).encode (.entity (.user ⟨some "a"⟩)) = .ok m ∧
      (Codec.mk folderRegistry {}).decode m = .ok j := by
  have h : (Codec.mk folderRegistry {}).decodePrefix
      [4, 0, 0, 0, 0x55, 0x73, 0x65, 0x72, 1, 0, 0, 0, 0x61, 7] =
        .ok (.entity (.user ⟨some "a"⟩), 13) := rfl
  obtain ⟨⟨m, j, hm, hj⟩, -⟩ := (encode_decode native_folderRegistry (by decide)).1 _ _ _ h
  exact ⟨m, j, h, hm, hj⟩

end Codec

end TagWire
