import TagWire.Codec.Encoder
import TagWire.Proofs.Codec.Layout

/-!
# What the encoder accepts

An instance conforms at a depth if it is found in the registry, is not too deep, and every field of
its type fits: `Codec.Conforms` and `Codec.Fits` say so by mutual induction, without a word on how a
message is written. The encoder accepts exactly the instances that conform at depth one, and what it
writes is their wire form (`Codec.encode_ok_iff_conforms`). Each part of the encoder is specified by
`Write.Appends`: the condition under which it succeeds, and the bytes that it appends if it does.
-/

namespace TagWire

/-! ## Conformance -/

namespace Codec

mutual

/-- Whether an instance has a wire form at a depth, the root of a message being at depth one. -/
inductive Conforms (c : Codec) : Instance → Nat → Prop
  | intro {i : Instance} {d : Descriptor} {depth : Nat} :
      depth ≤ c.limits.maxDepth.toNat →
      c.registry.lookupInstance i = .ok d →
      (Text.Utf8.ofString d.tag).length ≤ c.limits.maxLength.toNat →
      (∀ k f, d.fields[k]? = some f → (i.value? k).isSome) →
      (∀ k f v, d.fields[k]? = some f → i.value? k = some v → Fits c f v depth) →
      Conforms c i depth

/-- Whether a value has a wire form in the place of a field of an instance at a depth. -/
inductive Fits (c : Codec) : Field → Value → Nat → Prop
  | null {f : Field} {depth : Nat} : f.nullable = true → Fits c f .null depth
  | scalar {f : Field} {s : Scalar} {depth : Nat} :
      f.kind = .scalar s.kind → Fits c f (.scalar s) depth
  | string {f : Field} {s : String} {depth : Nat} : f.kind = .string →
      (Text.Utf8.ofString s).length ≤ c.limits.maxLength.toNat → Fits c f (.string s) depth
  | bytes {f : Field} {b : List UInt8} {depth : Nat} : f.kind = .bytes →
      b.length ≤ c.limits.maxLength.toNat → Fits c f (.bytes b) depth
  | enum {f : Field} {e : Enumeration} {variant : String} {depth : Nat} : f.kind = .enum e →
      e.contains variant = true →
      (Text.Utf8.ofString variant).length ≤ c.limits.maxLength.toNat →
      Fits c f (.enum variant) depth
  | nested {f : Field} {declared : String} {i : Instance} {d : Descriptor} {depth : Nat} :
      f.kind = .nested declared →
      c.registry.lookupInstance i = .ok d → c.registry.isAssignable d.tag declared = true →
      Conforms c i (depth + 1) → Fits c f (.nested i) depth
  | list {f element : Field} {items : List Value} {depth : Nat} : f.kind = .list element →
      depth + 1 ≤ c.limits.maxDepth.toNat → items.length ≤ c.limits.maxLength.toNat →
      (∀ v ∈ items, Fits c element v (depth + 1)) → Fits c f (.list items) depth
  | map {f key value : Field} {entries : List (Value × Value)} {depth : Nat} :
      f.kind = .map key value →
      depth + 1 ≤ c.limits.maxDepth.toNat → entries.length ≤ c.limits.maxLength.toNat →
      (∀ e ∈ entries, Fits c key e.1 (depth + 1)) →
      (∀ e ∈ entries, Fits c value e.2 (depth + 1)) → Fits c f (.map entries) depth

end

/-- Whether values fit fields in a row, none of which is left without a value. -/
def FieldsFit (P : Field → Value → Prop) : List Field → List Value → Prop
  | [], _ => True
  | _ :: _, [] => False
  | f :: fs, v :: vs => P f v ∧ FieldsFit P fs vs

/-- `FieldsFit` index by index. -/
theorem fieldsFit_iff {P : Field → Value → Prop} {fs : List Field} {vs : List Value} :
    FieldsFit P fs vs ↔ (∀ (k : Nat) f, fs[k]? = some f → vs[k]?.isSome) ∧
      ∀ (k : Nat) f v, fs[k]? = some f → vs[k]? = some v → P f v := by
  induction fs generalizing vs with
  | nil => simp [FieldsFit]
  | cons f fs ih =>
    cases vs with
    | nil =>
      refine iff_of_false not_false fun h => ?_
      have := h.1 0 f rfl
      cases this
    | cons v vs =>
      rw [FieldsFit, ih]
      refine ⟨?_, ?_⟩
      · intro h'
        obtain ⟨hf, hsome, hfit⟩ := h'
        refine ⟨?_, ?_⟩
        · intro k
          cases k with
          | zero => intro _ _; rfl
          | succ k => exact hsome k
        · intro k
          cases k with
          | zero => rintro _ _ ⟨⟩ ⟨⟩; exact hf
          | succ k => exact hfit k
      · intro h'
        obtain ⟨hsome, hfit⟩ := h'
        exact ⟨hfit 0 f v rfl rfl, fun k => hsome (k + 1), fun k => hfit (k + 1)⟩

variable {c : Codec} {f : Field} {depth : Nat}

/-- Conformance with the fields in a row. -/
theorem conforms_iff {i : Instance} : c.Conforms i depth ↔
    depth ≤ c.limits.maxDepth.toNat ∧ ∃ d, c.registry.lookupInstance i = .ok d ∧
      (Text.Utf8.ofString d.tag).length ≤ c.limits.maxLength.toNat ∧
      FieldsFit (fun f v => c.Fits f v depth) d.fields i.values := by
  refine ⟨?_, ?_⟩
  · intro h
    obtain ⟨hdepth, hd, htag, hsome, hfit⟩ := h
    exact ⟨hdepth, _, hd, htag, fieldsFit_iff.2 ⟨hsome, hfit⟩⟩
  · intro h
    obtain ⟨hdepth, d, hd, htag, hfields⟩ := h
    obtain ⟨hsome, hfit⟩ := fieldsFit_iff.1 hfields
    exact .intro hdepth hd htag hsome hfit

/-- Conformance of an instance whose type is known. -/
theorem conforms_of_lookup {i : Instance} {d : Descriptor}
    (hd : c.registry.lookupInstance i = .ok d) : c.Conforms i depth ↔
      depth ≤ c.limits.maxDepth.toNat ∧
        (Text.Utf8.ofString d.tag).length ≤ c.limits.maxLength.toNat ∧
        FieldsFit (fun f v => c.Fits f v depth) d.fields i.values := by
  rw [conforms_iff]
  refine and_congr_right fun _ => ⟨?_, fun h => ⟨d, hd, h⟩⟩
  intro h
  obtain ⟨d', hd', h⟩ := h
  rw [hd] at hd'
  cases hd'
  exact h

/-- Null fits where it is allowed. -/
theorem fits_null : c.Fits f .null depth ↔ f.nullable = true :=
  ⟨fun h => by cases h; assumption, .null⟩

/-- A scalar fits a field of its kind. -/
theorem fits_scalar {s : Scalar} : c.Fits f (.scalar s) depth ↔ f.kind = .scalar s.kind :=
  ⟨fun h => by cases h; assumption, .scalar⟩

/-- A text fits a text field if it is not too long. -/
theorem fits_string {s : String} : c.Fits f (.string s) depth ↔
    f.kind = .string ∧ (Text.Utf8.ofString s).length ≤ c.limits.maxLength.toNat := by
  refine ⟨?_, ?_⟩
  · intro h
    cases h with
    | string hk hlen => exact ⟨hk, hlen⟩
  · intro h
    obtain ⟨hk, hlen⟩ := h
    exact .string hk hlen

/-- Bytes fit a field of bytes if they are not too long. -/
theorem fits_bytes {b : List UInt8} : c.Fits f (.bytes b) depth ↔
    f.kind = .bytes ∧ b.length ≤ c.limits.maxLength.toNat := by
  refine ⟨?_, ?_⟩
  · intro h
    cases h with
    | bytes hk hlen => exact ⟨hk, hlen⟩
  · intro h
    obtain ⟨hk, hlen⟩ := h
    exact .bytes hk hlen

/-- A variant fits a field of its enumeration if it is not too long. -/
theorem fits_enum {variant : String} : c.Fits f (.enum variant) depth ↔
    ∃ e, f.kind = .enum e ∧ e.contains variant = true ∧
      (Text.Utf8.ofString variant).length ≤ c.limits.maxLength.toNat := by
  refine ⟨?_, ?_⟩
  · intro h
    cases h with
    | enum hk hmem hlen => exact ⟨_, hk, hmem, hlen⟩
  · intro h
    obtain ⟨_, hk, hmem, hlen⟩ := h
    exact .enum hk hmem hlen

/-- An instance fits where its type may stand, if it conforms one level deeper. -/
theorem fits_nested {i : Instance} : c.Fits f (.nested i) depth ↔
    ∃ declared d, f.kind = .nested declared ∧ c.registry.lookupInstance i = .ok d ∧
      c.registry.isAssignable d.tag declared = true ∧ c.Conforms i (depth + 1) := by
  refine ⟨?_, ?_⟩
  · intro h
    cases h with
    | nested hk hd hto hi => exact ⟨_, _, hk, hd, hto, hi⟩
  · intro h
    obtain ⟨_, _, hk, hd, hto, hi⟩ := h
    exact .nested hk hd hto hi

/-- A list fits if it is not too long or too deep and its items fit one level deeper. -/
theorem fits_list {items : List Value} : c.Fits f (.list items) depth ↔
    ∃ element, f.kind = .list element ∧ depth + 1 ≤ c.limits.maxDepth.toNat ∧
      items.length ≤ c.limits.maxLength.toNat ∧ ∀ v ∈ items, c.Fits element v (depth + 1) := by
  refine ⟨?_, ?_⟩
  · intro h
    cases h with
    | list hk hdepth hlen hfit => exact ⟨_, hk, hdepth, hlen, hfit⟩
  · intro h
    obtain ⟨_, hk, hdepth, hlen, hfit⟩ := h
    exact .list hk hdepth hlen hfit

/-- A map fits if it is not too long or too deep and its keys and values fit one level deeper. -/
theorem fits_map {entries : List (Value × Value)} : c.Fits f (.map entries) depth ↔
    ∃ key value, f.kind = .map key value ∧ depth + 1 ≤ c.limits.maxDepth.toNat ∧
      entries.length ≤ c.limits.maxLength.toNat ∧
      ∀ e ∈ entries, c.Fits key e.1 (depth + 1) ∧ c.Fits value e.2 (depth + 1) := by
  refine ⟨?_, ?_⟩
  · intro h
    rcases h with _ | _ | _ | _ | _ | _ | _ | ⟨hk, hdepth, hlen, hkey, hvalue⟩
    exact ⟨_, _, hk, hdepth, hlen, fun e he => ⟨hkey e he, hvalue e he⟩⟩
  · intro h
    obtain ⟨_, _, hk, hdepth, hlen, hfit⟩ := h
    exact .map hk hdepth hlen (fun e he => (hfit e he).1) fun e he => (hfit e he).2

/-- What fits a field of a kind, null apart. -/
theorem fits_iff_of_ne_null {v : Value} (hv : v ≠ .null) : c.Fits f v depth ↔
    match f.kind with
    | .scalar k => ∃ s, v = .scalar s ∧ k = s.kind
    | .string => ∃ s, v = .string s ∧ (Text.Utf8.ofString s).length ≤ c.limits.maxLength.toNat
    | .bytes => ∃ b, v = .bytes b ∧ b.length ≤ c.limits.maxLength.toNat
    | .enum e => ∃ variant, v = .enum variant ∧ e.contains variant = true ∧
        (Text.Utf8.ofString variant).length ≤ c.limits.maxLength.toNat
    | .nested declared => ∃ i d, v = .nested i ∧ c.registry.lookupInstance i = .ok d ∧
        c.registry.isAssignable d.tag declared = true ∧ c.Conforms i (depth + 1)
    | .list element => ∃ items, v = .list items ∧ depth + 1 ≤ c.limits.maxDepth.toNat ∧
        items.length ≤ c.limits.maxLength.toNat ∧ ∀ v ∈ items, c.Fits element v (depth + 1)
    | .map key value => ∃ entries, v = .map entries ∧ depth + 1 ≤ c.limits.maxDepth.toNat ∧
        entries.length ≤ c.limits.maxLength.toNat ∧
        ∀ e ∈ entries, c.Fits key e.1 (depth + 1) ∧ c.Fits value e.2 (depth + 1) := by
  cases v with
  | null => exact absurd rfl hv
  | scalar s => rw [fits_scalar]; cases f.kind <;> simp
  | string s => rw [fits_string]; cases f.kind <;> simp
  | bytes b => rw [fits_bytes]; cases f.kind <;> simp
  | enum variant => rw [fits_enum]; cases f.kind <;> simp
  | nested i => rw [fits_nested]; cases f.kind <;> simp
  | list items => rw [fits_list]; cases f.kind <;> simp
  | map entries => rw [fits_map]; cases f.kind <;> simp

section
variable {e : Enumeration} {declared : String} {element key value : Field}

/-- A variant in the place of a field of an enumeration. -/
theorem fits_enum_of_kind (hk : f.kind = .enum e) {variant : String} :
    c.Fits f (.enum variant) depth ↔ e.contains variant = true ∧
      (Text.Utf8.ofString variant).length ≤ c.limits.maxLength.toNat := by
  rw [fits_iff_of_ne_null Value.noConfusion, hk]
  simp

/-- An instance in the place of a field of nested instances. -/
theorem fits_nested_of_kind (hk : f.kind = .nested declared) {i : Instance} :
    c.Fits f (.nested i) depth ↔ ∃ d, c.registry.lookupInstance i = .ok d ∧
      c.registry.isAssignable d.tag declared = true ∧ c.Conforms i (depth + 1) := by
  rw [fits_iff_of_ne_null Value.noConfusion, hk]
  simp

/-- A list in the place of a field of lists. -/
theorem fits_list_of_kind (hk : f.kind = .list element) {items : List Value} :
    c.Fits f (.list items) depth ↔ depth + 1 ≤ c.limits.maxDepth.toNat ∧
      items.length ≤ c.limits.maxLength.toNat ∧ ∀ v ∈ items, c.Fits element v (depth + 1) := by
  rw [fits_iff_of_ne_null Value.noConfusion, hk]
  simp

/-- A map in the place of a field of maps. -/
theorem fits_map_of_kind (hk : f.kind = .map key value) {entries : List (Value × Value)} :
    c.Fits f (.map entries) depth ↔ depth + 1 ≤ c.limits.maxDepth.toNat ∧
      entries.length ≤ c.limits.maxLength.toNat ∧
      ∀ e ∈ entries, c.Fits key e.1 (depth + 1) ∧ c.Fits value e.2 (depth + 1) := by
  rw [fits_iff_of_ne_null Value.noConfusion, hk]
  simp

end

/-- A field accepts what fits it. -/
theorem Fits.accepts {v : Value} (h : c.Fits f v depth) : f.accepts v = true := by
  unfold Field.accepts
  cases h with
  | null h => exact h
  | enum hk hmem => simpa [Value.isNull, hk, FieldKind.accepts] using hmem
  | scalar hk => simp [Value.isNull, hk, FieldKind.accepts]
  | string hk | bytes hk | nested hk | list hk | map hk =>
    simp [Value.isNull, hk, FieldKind.accepts]

mutual

/-- An instance that conforms at a depth conforms nearer to the root. -/
theorem Conforms.shallower {i : Instance} {depth depth' : Nat} (hle : depth' ≤ depth) :
    c.Conforms i depth → c.Conforms i depth'
  | .intro hdepth hd htag hsome hfit =>
    .intro (Nat.le_trans hle hdepth) hd htag hsome fun k f v hf hv =>
      (hfit k f v hf hv).shallower hle

/-- A value that fits at a depth fits nearer to the root. -/
theorem Fits.shallower {f : Field} {v : Value} {depth depth' : Nat} (hle : depth' ≤ depth) :
    c.Fits f v depth → c.Fits f v depth'
  | .null h => .null h
  | .scalar hk => .scalar hk
  | .string hk hlen => .string hk hlen
  | .bytes hk hlen => .bytes hk hlen
  | .enum hk hmem hlen => .enum hk hmem hlen
  | .nested hk hd hto hi => .nested hk hd hto (hi.shallower (Nat.succ_le_succ hle))
  | .list hk hdepth hlen hfit =>
    .list hk (Nat.le_trans (Nat.succ_le_succ hle) hdepth) hlen fun v hv =>
      (hfit v hv).shallower (Nat.succ_le_succ hle)
  | .map hk hdepth hlen hkey hvalue =>
    .map hk (Nat.le_trans (Nat.succ_le_succ hle) hdepth) hlen
      (fun e he => (hkey e he).shallower (Nat.succ_le_succ hle))
      fun e he => (hvalue e he).shallower (Nat.succ_le_succ hle)

end

end Codec

/-! ## What a computation appends -/

namespace Write

/-- A computation succeeds under a condition on what it writes, and then appends some bytes to
whatever stands in the buffer. -/
def Appends (w : Write Unit) (P : Prop) (bs : List UInt8) : Prop :=
  ∀ buffer buffer', w buffer = .ok () buffer' ↔ P ∧ buffer' = buffer ++ bs

namespace Appends

variable {w w' : Write Unit} {P Q : Prop} {bs bs' : List UInt8}

/-- The condition and the bytes may be put in other words. -/
theorem congr (h : Appends w P bs) (hP : P ↔ Q) (hbs : P → bs = bs') : Appends w Q bs' := by
  intro buffer buffer'
  rw [h, ← hP]
  exact and_congr_right fun p => by rw [hbs p]

/-- Doing nothing appends nothing. -/
theorem pure : Appends (Pure.pure ()) True [] := by
  intro buffer buffer'
  rw [Array.appendList_nil, true_and]
  refine ⟨?_, ?_⟩
  · intro h
    cases h
    rfl
  · intro h
    subst h
    rfl

/-- Bytes are appended as they are. -/
theorem emit (bs : List UInt8) : Appends (emit bs) True bs := by
  intro buffer buffer'
  refine ⟨?_, ?_⟩
  · intro h
    cases h
    exact ⟨trivial, rfl⟩
  · intro h
    obtain ⟨-, rfl⟩ := h
    rfl

/-- A failure never succeeds. -/
theorem throw {e : CodecError} (hP : ¬P) : Appends (MonadExcept.throw e) P bs := by
  intro buffer buffer'
  refine ⟨?_, ?_⟩
  · intro h
    cases h
  · intro h
    exact absurd h.1 hP

/-- One computation after the other. -/
theorem bind (h : Appends w P bs) (h' : Appends w' Q bs') :
    Appends (do w; w') (P ∧ Q) (bs ++ bs') := by
  intro buffer buffer'
  have hw : (do w; w') buffer = .ok () buffer' ↔
      ∃ grown, w buffer = .ok () grown ∧ w' grown = .ok () buffer' := by
    simp only [Bind.bind, EStateM.bind]
    cases w buffer with
    | ok _ grown => simp
    | error e grown => simp
  have happend : buffer ++ (bs ++ bs') = buffer ++ bs ++ bs' := Array.ext' (by simp)
  rw [hw, happend]
  refine ⟨?_, ?_⟩
  · intro hx
    obtain ⟨grown, h₁, h₂⟩ := hx
    obtain ⟨p, rfl⟩ := (h _ _).1 h₁
    obtain ⟨q, rfl⟩ := (h' _ _).1 h₂
    exact ⟨⟨p, q⟩, rfl⟩
  · intro hx
    obtain ⟨⟨p, q⟩, rfl⟩ := hx
    exact ⟨_, (h _ _).2 ⟨p, rfl⟩, (h' _ _).2 ⟨q, rfl⟩⟩

/-- A computation behind a check. -/
theorem ite {b : Prop} [Decidable b] {e : CodecError} (h : b → Appends w P bs) :
    Appends (if b then w else MonadExcept.throw e) (b ∧ P) bs := by
  split
  next hb => exact (h hb).congr (and_iff_right hb).symm fun _ => rfl
  next hb => exact throw fun h => hb h.1

/-- Bytes in front that are appended only on a condition. -/
theorem behind (b : Bool) (front : List UInt8) (h : Appends w P bs) :
    Appends
      (do
        if b then Write.emit front
        w)
      P ((if b then front else []) ++ bs) := by
  cases b with
  | true => exact ((emit front).bind h).congr (and_iff_right trivial) fun _ => rfl
  | false => exact h

/-- A computation that goes on with what it is given, or fails. -/
theorem ofExcept {α : Type} {x : Except CodecError α} {w : α → Write Unit} {P : α → Prop}
    (h : ∀ a, x = .ok a → Appends (w a) (P a) bs) :
    Appends (do w (← Write.ofExcept x)) (∃ a, x = .ok a ∧ P a) bs := by
  cases x with
  | ok a =>
    refine (h a rfl).congr ⟨fun hp => ⟨a, rfl, hp⟩, fun hp => ?_⟩ fun _ => rfl
    obtain ⟨_, ha, hp⟩ := hp
    cases ha
    exact hp
  | error e =>
    refine throw fun hp => ?_
    obtain ⟨_, ha, -⟩ := hp
    cases ha

end Appends

end Write

namespace Codec

open Write (Appends)

variable (c : Codec) {r : Registry}

/-- The check of a length appends nothing. -/
theorem appends_checkLength (tag field : String) (length : Nat) :
    Appends (c.checkLength tag field length) (length ≤ c.limits.maxLength.toNat) [] := by
  unfold checkLength
  split
  next h => exact .throw (by omega)
  next h => exact Appends.pure.congr (by simp; omega) fun _ => rfl

/-- A block is appended if it is not too long. -/
theorem appends_writeBlock (tag field : String) (bs : List UInt8) :
    Appends (c.writeBlock tag field bs) (bs.length ≤ c.limits.maxLength.toNat) (Wire.block bs) :=
  ((c.appends_checkLength tag field _).bind (.emit _)).congr (and_iff_left trivial) fun _ => rfl

/-- A text is appended if it is not too long. -/
theorem appends_writeText (tag field : String) (s : String) :
    Appends (c.writeText tag field s)
      ((Text.Utf8.ofString s).length ≤ c.limits.maxLength.toNat) (Wire.text s) :=
  c.appends_writeBlock tag field _

variable {c}

/-- Fields append their forms in a row if each of them fits. -/
theorem appends_writeFields {write : Field → Value → Write Unit} {P : Field → Value → Prop}
    (h : ∀ f v, Appends (write f v) (P f v) (r.form f v)) (tag : String) (index : Nat)
    (fs : List Field) (vs : List Value) :
    Appends (writeFields write tag index fs vs) (FieldsFit P fs vs) (r.fieldsForm fs vs) := by
  induction fs generalizing index vs with
  | nil =>
    refine Appends.pure.congr Iff.rfl fun _ => ?_
    rw [Registry.fieldsForm]
    simp
  | cons f fs ih =>
    cases vs with
    | nil => exact .throw not_false
    | cons v vs =>
      refine ((h f v).bind (ih (index + 1) vs)).congr Iff.rfl fun _ => ?_
      rw [Registry.fieldsForm]

/-- Items append their forms in a row if each of them fits. -/
theorem appends_writeItems {write : Value → Write Unit} {P : Value → Prop} {element : Field}
    (h : ∀ v, Appends (write v) (P v) (r.form element v)) (vs : List Value) :
    Appends (writeItems write vs) (∀ v ∈ vs, P v) (r.itemsForm element vs) := by
  induction vs with
  | nil =>
    refine Appends.pure.congr (by simp) fun _ => ?_
    rw [Registry.itemsForm]
  | cons v vs ih =>
    refine ((h v).bind ih).congr List.forall_mem_cons.symm fun _ => ?_
    rw [Registry.itemsForm]

/-- Entries append their forms in a row if each key and each value fits. -/
theorem appends_writeEntries {writeKey writeValue : Value → Write Unit} {P Q : Value → Prop}
    {key value : Field} (hk : ∀ v, Appends (writeKey v) (P v) (r.form key v))
    (hv : ∀ v, Appends (writeValue v) (Q v) (r.form value v)) (es : List (Value × Value)) :
    Appends (writeEntries writeKey writeValue es) (∀ e ∈ es, P e.1 ∧ Q e.2)
      (r.entriesForm key value es) := by
  induction es with
  | nil =>
    refine Appends.pure.congr (by simp) fun _ => ?_
    rw [Registry.entriesForm]
  | cons e es ih =>
    refine ((hk e.1).bind ((hv e.2).bind ih)).congr ?_ fun _ => ?_
    · rw [List.forall_mem_cons, and_assoc]
    · rw [Registry.entriesForm, List.append_assoc]

/-- A body is the tag and the fields of the type. -/
theorem appends_writeBody {write : Field → Value → Write Unit} {P : Field → Value → Prop}
    (h : ∀ f v, Appends (write f v) (P f v) (r.form f v)) (d : Descriptor) (i : Instance) :
    Appends (c.writeBody write d i)
      ((Text.Utf8.ofString d.tag).length ≤ c.limits.maxLength.toNat ∧ FieldsFit P d.fields i.values)
      (Wire.text d.tag ++ r.fieldsForm d.fields i.values) :=
  (c.appends_writeText _ _ _).bind (appends_writeFields h d.tag 0 d.fields i.values)

/-- What is written with a level entered is written only if a level is left. -/
theorem appends_enter {w : Nat → Write Unit} {P : Prop} {bs : List UInt8} {levels : Nat} :
    levels + depth = c.limits.maxDepth.toNat → (∀ n, n + 1 = levels → Appends (w n) P bs) →
      Appends (match levels with | 0 => throw c.tooDeep | n + 1 => w n)
        (depth + 1 ≤ c.limits.maxDepth.toNat ∧ P) bs := by
  intro hlevels h
  cases levels with
  | zero => exact .throw fun h => absurd h.1 (by omega)
  | succ n => exact (h n rfl).congr (and_iff_right (by omega)).symm fun _ => rfl

/-- The body of an instance, with a level entered for it. -/
theorem appends_enterBody {write : Nat → Field → Value → Write Unit} {i : Instance}
    {d : Descriptor} (hd : c.registry.lookupInstance i = .ok d) {levels : Nat} :
    levels + depth = c.limits.maxDepth.toNat →
      (∀ n, n + 1 = levels → ∀ f v,
        Appends (write n f v) (c.Fits f v (depth + 1)) (c.registry.form f v)) →
      Appends (match levels with | 0 => throw c.tooDeep | n + 1 => c.writeBody (write n) d i)
        (c.Conforms i (depth + 1)) (c.registry.message i) := by
  intro hlevels h
  exact (appends_enter hlevels fun n hn => appends_writeBody (h n hn) d i).congr
    (conforms_of_lookup hd).symm fun _ => (c.registry.message_of_lookup hd).symm

/-- A value is written in the place of a field exactly if it fits, and as its form, by induction on
the levels that may still be entered. -/
theorem appends_writeValue {levels : Nat} (hlevels : levels + depth = c.limits.maxDepth.toNat)
    (tag owner : String) (f : Field) (v : Value) :
    Appends (c.writeValue levels tag owner f v) (c.Fits f v depth) (c.registry.form f v) := by
  induction levels using Nat.strongRecOn generalizing depth tag owner f v with
  | ind levels ih =>
  have hin : ∀ n, n + 1 = levels → ∀ tag owner f v,
      Appends (c.writeValue n tag owner f v) (c.Fits f v (depth + 1)) (c.registry.form f v) :=
    fun n hn tag owner f v => ih n (by omega) (by omega) tag owner f v
  unfold writeValue
  split
  next hv =>
    have hv : v = .null := by cases v <;> first | rfl | cases hv
    subst hv
    refine (Appends.ite fun _ => .emit _).congr ?_ fun _ => ?_
    · rw [fits_null, and_true]
    · rw [Registry.form]
      rfl
  next hv =>
  split
  next v _ _ k hk =>
    have hfail (e : CodecError) : Appends (throw e) False [] := .throw not_false
    cases v with
    | null => exact absurd rfl hv
    | scalar s =>
      refine (Appends.behind _ _ (Appends.ite fun _ => .emit _)).congr ?_ fun _ => ?_
      · rw [fits_scalar, hk, and_true, FieldKind.scalar.injEq, eq_comm]
      · rw [Registry.form_scalar]
    | _ =>
      -- The byte of presence is written before the value turns out to be no scalar.
      refine (Appends.behind _ _ (hfail _)).congr (iff_of_false not_false ?_) False.elim
      simp [fits_string, fits_bytes, fits_enum, fits_nested, fits_list, fits_map, hk]
  next s hk =>
    refine (c.appends_writeText _ _ _).congr ?_ fun _ => ?_
    · rw [fits_string, and_iff_right hk]
    · rw [Registry.form_string]
  next b hk =>
    refine (c.appends_writeBlock _ _ _).congr ?_ fun _ => ?_
    · rw [fits_bytes, and_iff_right hk]
    · rw [Registry.form_bytes]
  next e variant hk =>
    refine (Appends.ite fun _ => c.appends_writeText _ _ _).congr ?_ fun _ => ?_
    · rw [fits_enum_of_kind hk]
    · rw [Registry.form_enum]
  next declared i hk =>
    refine (Appends.ofExcept fun d hd =>
      .ite fun _ => appends_enterBody hd hlevels fun n hn f v => hin n hn d.tag f.name f v).congr
      ?_ fun _ => ?_
    · rw [fits_nested_of_kind hk]
    · rw [Registry.form_nested]
  next element items hk =>
    refine (appends_enter hlevels fun n hn => (c.appends_checkLength _ _ _).bind
      ((Appends.emit _).bind (appends_writeItems (hin n hn tag owner element) items))).congr
      ?_ fun _ => ?_
    · rw [fits_list_of_kind hk, true_and]
    · rw [Registry.form_list _ hk, Registry.itemsForm_eq_flatMap]
      rfl
  next key value entries hk =>
    refine (appends_enter hlevels fun n hn => (c.appends_checkLength _ _ _).bind
      ((Appends.emit _).bind (appends_writeEntries (hin n hn tag owner key)
        (hin n hn tag owner value) entries))).congr ?_ fun _ => ?_
    · rw [fits_map_of_kind hk, true_and]
    · rw [Registry.form_map _ hk, Registry.entriesForm_eq_flatMap]
      rfl
  next hscalar hstring hbytes henum hnested hlist hmap =>
    -- A value that fits has gone through one of the branches above.
    refine .throw fun h => ?_
    cases h with
    | null => exact hv rfl
    | scalar hk => exact hscalar _ hk
    | string hk => exact hstring _ hk rfl
    | bytes hk => exact hbytes _ hk rfl
    | enum hk => exact henum _ _ hk rfl
    | nested hk => exact hnested _ _ hk rfl
    | list hk => exact hlist _ _ hk rfl
    | map hk => exact hmap _ _ _ hk rfl

variable (c)

/-- A message is written exactly if its instance conforms at the root, and as its form. -/
theorem appends_writeMessage (i : Instance) :
    Appends (c.writeMessage i) (c.Conforms i 1) (c.registry.message i) := by
  refine (Appends.ofExcept fun d hd => appends_enterBody hd (Nat.add_zero _) fun n hn f v =>
    appends_writeValue hn d.tag f.name f v).congr ⟨fun h => ?_, fun h => ?_⟩ fun _ => rfl
  · obtain ⟨_, -, h⟩ := h
    exact h
  · obtain ⟨-, d, hd, -⟩ := conforms_iff.1 h
    exact ⟨d, hd, h⟩

/-- An instance has a message exactly if it conforms at the root. The message is its wire form. -/
theorem encode_eq_ok {i : Instance} {m : List UInt8} :
    c.encode i = .ok m ↔ c.Conforms i 1 ∧ m = c.registry.message i := by
  have h := c.appends_writeMessage i #[]
  unfold encode encodeInto
  cases hw : c.writeMessage i #[] with
  | ok _ grown =>
    obtain ⟨hi, rfl⟩ := (h grown).1 hw
    simp [hi, eq_comm]
  | error e grown =>
    have hi : ¬c.Conforms i 1 := fun hi => by simpa [hw] using (h _).2 ⟨hi, rfl⟩
    simp [hi]

/-- The encoder accepts exactly the instances that conform at the root of a message, and what it
writes is their wire form. -/
theorem encode_ok_iff_conforms (i : Instance) :
    ((∃ m, c.encode i = .ok m) ↔ c.Conforms i 1) ∧
      ∀ m, c.encode i = .ok m → m = c.registry.message i := by
  refine ⟨⟨?_, ?_⟩, ?_⟩
  · intro h
    obtain ⟨m, hm⟩ := h
    exact (c.encode_eq_ok.1 hm).1
  · intro hi
    exact ⟨c.registry.message i, c.encode_eq_ok.2 ⟨hi, rfl⟩⟩
  · intro m hm
    exact (c.encode_eq_ok.1 hm).2

/-- A type of samples, with a field for almost every row of the wire form. -/
def sample : Descriptor :=
  let fields : List Field :=
    [⟨"delta", .scalar .i16, false⟩, ⟨"valid", .scalar .bool, true⟩, ⟨"gain", .scalar .u8, true⟩,
      ⟨"ratio", .scalar .f32, false⟩, ⟨"unit", .scalar .char, false⟩, ⟨"note", .string, true⟩,
      ⟨"levels", .list ⟨"element", .scalar .i64, false⟩, false⟩]
  ⟨"Sample", none, fields, (Record.fresh ⟨"Sample", fields⟩).toInstance⟩

/-- A sample conforms, and its form holds a negative number, a boolean and a null behind the byte of
presence, the bits of a float that signals, a code point, a null text and a list. -/
theorem conforms_sample :
    let i : Instance := .record ⟨"Sample", []⟩
      [.scalar (.i16 (-2)), .scalar (.bool true), .null, .scalar (.f32 ⟨0x7FA00001⟩),
        .scalar (.char 'é'), .null, .list [.scalar (.i64 0x0102030405060708)]]
    let bytes : List UInt8 :=
      [6, 0, 0, 0, 0x53, 0x61, 0x6D, 0x70, 0x6C, 0x65, 0xFE, 0xFF, 1, 1, 0, 1, 0, 0xA0, 0x7F,
        0xE9, 0, 0, 0, 0xFF, 0xFF, 0xFF, 0xFF, 1, 0, 0, 0, 8, 7, 6, 5, 4, 3, 2, 1]
    (Codec.mk ⟨[sample]⟩ {}).Conforms i 1 ∧ bytes = (Registry.mk [sample]).message i := by
  intro i bytes
  have h : (Codec.mk ⟨[sample]⟩ {}).encode i = .ok bytes := rfl
  have hspec := encode_ok_iff_conforms (Codec.mk ⟨[sample]⟩ {}) i
  exact ⟨hspec.1.1 ⟨bytes, h⟩, hspec.2 bytes h⟩

end Codec

end TagWire
