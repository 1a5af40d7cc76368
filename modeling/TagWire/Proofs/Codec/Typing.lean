import TagWire.Proofs.Codec.Conformance
import TagWire.Proofs.Codec.Failing

/-!
# Well-typed instances

An instance is well-typed if it is found in the registry and every value in it is null or of the
kind of its field, nested instances being well-typed and of assignable types: `Registry.Typed` and
`Registry.Admits` say so by mutual induction. Unlike conformance this asks neither where null may
stand nor how long or how deep things are. So these are all that the encoder can find wrong with a
well-typed instance (`Codec.encode_of_typed`), under whatever limits.
-/

namespace TagWire

/-! ## Types -/

namespace Registry

mutual

/-- Whether an instance is of a registered type and each field of the type admits its value. -/
inductive Typed (r : Registry) : Instance → Prop
  | intro {i : Instance} {d : Descriptor} : r.lookupInstance i = .ok d →
      (∀ k f, d.fields[k]? = some f → (i.value? k).isSome) →
      (∀ k f v, d.fields[k]? = some f → i.value? k = some v → Admits r f v) → Typed r i

/-- Whether a value may stand in the place of a field. Null may, whether or not it is allowed. -/
inductive Admits (r : Registry) : Field → Value → Prop
  | null {f : Field} : Admits r f .null
  | scalar {f : Field} {s : Scalar} : f.kind = .scalar s.kind → Admits r f (.scalar s)
  | string {f : Field} {s : String} : f.kind = .string → Admits r f (.string s)
  | bytes {f : Field} {b : List UInt8} : f.kind = .bytes → Admits r f (.bytes b)
  | enum {f : Field} {e : Enumeration} {variant : String} : f.kind = .enum e →
      e.contains variant = true → Admits r f (.enum variant)
  | nested {f : Field} {declared : String} {i : Instance} {d : Descriptor} :
      f.kind = .nested declared → r.lookupInstance i = .ok d →
      r.isAssignable d.tag declared = true → Typed r i → Admits r f (.nested i)
  | list {f element : Field} {items : List Value} : f.kind = .list element →
      (∀ v ∈ items, Admits r element v) → Admits r f (.list items)
  | map {f key value : Field} {entries : List (Value × Value)} : f.kind = .map key value →
      (∀ e ∈ entries, Admits r key e.1) → (∀ e ∈ entries, Admits r value e.2) →
      Admits r f (.map entries)

end

variable {r : Registry} {i : Instance} {d : Descriptor}

/-- The fields of a well-typed instance, in a row. -/
theorem Typed.fieldsFit (h : r.Typed i) (hd : r.lookupInstance i = .ok d) :
    Codec.FieldsFit r.Admits d.fields i.values := by
  obtain ⟨hd', hsome, hadmits⟩ := h
  rw [hd] at hd'
  cases hd'
  exact Codec.fieldsFit_iff.2 ⟨hsome, hadmits⟩

/-- An instance is well-typed if its values in a row are. -/
theorem typed_of_fieldsFit (hd : r.lookupInstance i = .ok d)
    (h : Codec.FieldsFit r.Admits d.fields i.values) : r.Typed i := by
  obtain ⟨hsome, hadmits⟩ := Codec.fieldsFit_iff.1 h
  exact .intro hd hsome hadmits

end Registry

/-! ## What the encoder finds wrong -/

/-- The errors of encoding that are up to the content of an instance: nulls, lengths and depth. -/
inductive CodecError.OfContent : CodecError → Prop
  | missingField (tag field : String) : OfContent (.encoding (.missingField tag field))
  | lengthOverflow (tag field : String) (length limit : Nat) :
      OfContent (.encoding (.lengthOverflow tag field length limit))
  | depthExceeded (limit : Nat) : OfContent (.depthExceeded limit)

open CodecError (OfContent)

namespace Write

/-- Appending does not fail. -/
theorem fails_emit {P : CodecError → Prop} (bytes : List UInt8) : Fails P (emit bytes) := nofun

/-- A result that is given is gone on with. -/
theorem fails_ofExcept_bind {α β : Type} {P : CodecError → Prop} {x : Except CodecError α} {a : α}
    (hx : x = .ok a) {f : α → Write β} (hf : Fails P (f a)) : Fails P (ofExcept x >>= f) := by
  subst hx
  exact hf

end Write

namespace Codec

variable (c : Codec)

/-- A length may be too long. -/
theorem fails_checkLength (tag field : String) (length : Nat) :
    Fails OfContent (c.checkLength tag field length) :=
  .ite (fun _ => .throw (.lengthOverflow _ _ _ _)) fun _ => .pure ()

/-- A block may be too long. -/
theorem fails_writeBlock (tag field : String) (bytes : List UInt8) :
    Fails OfContent (c.writeBlock tag field bytes) :=
  (c.fails_checkLength tag field _).bind fun _ => Write.fails_emit _

/-- A text may be too long. -/
theorem fails_writeText (tag field : String) (s : String) :
    Fails OfContent (c.writeText tag field s) :=
  c.fails_writeBlock tag field _

/-- Fields fail like one of them, none being left without a value. -/
theorem fails_writeFields {write : Field → Value → Write Unit} {P : Field → Value → Prop}
    (h : ∀ f v, P f v → Fails OfContent (write f v)) (tag : String) (index : Nat)
    {fs : List Field} {vs : List Value} (hfit : FieldsFit P fs vs) :
    Fails OfContent (writeFields write tag index fs vs) := by
  induction fs generalizing index vs with
  | nil => exact .pure ()
  | cons f fs ih =>
    cases vs with
    | nil => exact absurd hfit not_false
    | cons v vs => exact (h f v hfit.1).bind fun _ => ih (index + 1) hfit.2

/-- Items fail like one of them. -/
theorem fails_writeItems {write : Value → Write Unit} {vs : List Value}
    (h : ∀ v ∈ vs, Fails OfContent (write v)) : Fails OfContent (writeItems write vs) := by
  induction vs with
  | nil => exact .pure ()
  | cons v vs ih =>
    obtain ⟨hv, hvs⟩ := List.forall_mem_cons.1 h
    exact hv.bind fun _ => ih hvs

/-- Entries fail like a key or a value of them. -/
theorem fails_writeEntries {writeKey writeValue : Value → Write Unit} {es : List (Value × Value)}
    (hk : ∀ e ∈ es, Fails OfContent (writeKey e.1))
    (hv : ∀ e ∈ es, Fails OfContent (writeValue e.2)) :
    Fails OfContent (writeEntries writeKey writeValue es) := by
  induction es with
  | nil => exact .pure ()
  | cons e es ih =>
    obtain ⟨hk, hks⟩ := List.forall_mem_cons.1 hk
    obtain ⟨hv, hvs⟩ := List.forall_mem_cons.1 hv
    exact hk.bind fun _ => hv.bind fun _ => ih hks hvs

/-- A body fails like its tag or one of its fields. -/
theorem fails_writeBody {write : Field → Value → Write Unit}
    (h : ∀ f v, c.registry.Admits f v → Fails OfContent (write f v)) {d : Descriptor}
    {i : Instance} (hd : c.registry.lookupInstance i = .ok d) (hi : c.registry.Typed i) :
    Fails OfContent (c.writeBody write d i) :=
  (c.fails_writeText _ _ _).bind fun _ => fails_writeFields h d.tag 0 (hi.fieldsFit hd)

/-- A value that may stand in the place of a field fails by its content only, by induction on the
levels that may still be entered. -/
theorem fails_writeValue (levels : Nat) (tag owner : String) (f : Field) (v : Value)
    (hadmits : c.registry.Admits f v) :
    Fails OfContent (c.writeValue levels tag owner f v) := by
  induction levels using Nat.strongRecOn generalizing tag owner f v with
  | ind levels ih =>
  have hin (n : Nat) (hn : n + 1 = levels) (tag owner : String) (f : Field) (v : Value)
      (hadmits : c.registry.Admits f v) : Fails OfContent (c.writeValue n tag owner f v) :=
    ih n (by omega) tag owner f v hadmits
  unfold writeValue
  split
  next => exact .ite (fun _ => Write.fails_emit _) fun _ => .throw (.missingField _ _)
  next hv =>
  cases hadmits with
  | null => exact absurd rfl hv
  | @scalar _ s hk =>
    have hs : Fails OfContent (if s.kind = s.kind then Write.emit s.bytes
        else throw (mismatch tag owner (.scalar s.kind) (.scalar s))) :=
      .ite (fun _ => Write.fails_emit _) fun h => absurd rfl h
    rw [hk]
    exact .ite (fun _ => (Write.fails_emit _).bind fun _ => hs) fun _ => hs
  | string hk =>
    rw [hk]
    exact c.fails_writeText _ _ _
  | bytes hk =>
    rw [hk]
    exact c.fails_writeBlock _ _ _
  | enum hk hvariant =>
    rw [hk]
    exact .ite (fun _ => c.fails_writeText _ _ _) fun h => absurd hvariant h
  | nested hk hd hto hi =>
    rw [hk]
    refine Write.fails_ofExcept_bind hd (.ite (fun _ => ?_) fun h => absurd hto h)
    exact fails_enter (.depthExceeded _) fun n hn =>
      c.fails_writeBody (fun f => hin n hn _ f.name f) hd hi
  | @list _ element items hk hitems =>
    rw [hk]
    refine fails_enter (.depthExceeded _) fun n hn => ?_
    exact (c.fails_checkLength _ _ _).bind fun _ => (Write.fails_emit _).bind fun _ =>
      fails_writeItems fun v hv => hin n hn tag owner element v (hitems v hv)
  | @map _ key value entries hk hkeys hvalues =>
    rw [hk]
    refine fails_enter (.depthExceeded _) fun n hn => ?_
    exact (c.fails_checkLength _ _ _).bind fun _ => (Write.fails_emit _).bind fun _ =>
      fails_writeEntries (fun e he => hin n hn tag owner key e.1 (hkeys e he))
        fun e he => hin n hn tag owner value e.2 (hvalues e he)

variable {c}

/-- A well-typed instance fails by its content only. -/
theorem fails_writeMessage {i : Instance} (hi : c.registry.Typed i) :
    Fails OfContent (c.writeMessage i) := by
  have ⟨hd, _, _⟩ := hi
  exact Write.fails_ofExcept_bind hd <| fails_enter (.depthExceeded _) fun n _ =>
    c.fails_writeBody (fun f => c.fails_writeValue n _ f.name f) hd hi

/-- A well-typed instance is encoded, or its content is what the encoder finds wrong. -/
theorem encode_of_typed {i : Instance} (hi : c.registry.Typed i) :
    (∃ m, c.encode i = .ok m) ∨ ∃ e, c.encode i = .error e ∧ e.OfContent := by
  unfold encode encodeInto
  cases hw : c.writeMessage i #[] with
  | ok _ grown => exact .inl ⟨_, rfl⟩
  | error e grown => exact .inr ⟨e, rfl, fails_writeMessage hi _ _ _ hw⟩

end Codec

end TagWire
