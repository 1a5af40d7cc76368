import Mathlib.Data.List.Forall2
import TagWire.Proofs.Codec.Agreement
import TagWire.Proofs.Codec.Spelling

/-!
# Codecs over different registries

Two codecs under the same limits that know different types agree as far as their registries agree on
what a codec asks them: the type of a tag or of an instance, and which type may stand where another
is declared. Encoders agree on instances that are related (`EncodesLike.encode`), decoders on all
bytes (`DecodesLike.decodePrefix`, `DecodesLike.decode`), with related instances as answers. Values
are related layer by layer (`Value.Layer`), and both facts are by induction on the levels that may
still be entered.
-/

namespace TagWire

/-! ## Values that are related -/

/-- Whether two values in the place of a field are of one form and their parts are related: nested
instances by `I`, what stands in lists and maps by `V`. -/
inductive Value.Layer (I : Instance → Instance → Prop) (V : Field → Value → Value → Prop)
    (f : Field) : Value → Value → Prop
  | null : Layer I V f .null .null
  | scalar (s : Scalar) : Layer I V f (.scalar s) (.scalar s)
  | string (s : String) : Layer I V f (.string s) (.string s)
  | bytes (b : List UInt8) : Layer I V f (.bytes b) (.bytes b)
  | enum (variant : String) : Layer I V f (.enum variant) (.enum variant)
  | nested {i j : Instance} : I i j → Layer I V f (.nested i) (.nested j)
  | list {items items' : List Value} :
      (∀ element, f.kind = .list element → List.Forall₂ (V element) items items') →
      Layer I V f (.list items) (.list items')
  | map {entries entries' : List (Value × Value)} :
      (∀ key value, f.kind = .map key value →
        List.Forall₂ (fun e e' => V key e.1 e'.1 ∧ V value e.2 e'.2) entries entries') →
      Layer I V f (.map entries) (.map entries')

/-- Every value is of its own form. -/
theorem Value.Layer.refl (f : Field) (v : Value) : Layer Eq (fun _ => Eq) f v v := by
  cases v with
  | null => exact .null
  | scalar s => exact .scalar s
  | string s => exact .string s
  | bytes b => exact .bytes b
  | enum variant => exact .enum variant
  | nested i => exact .nested rfl
  | list items => exact .list fun _ _ => List.forall₂_same.2 fun _ _ => rfl
  | map entries => exact .map fun _ _ _ => List.forall₂_same.2 fun _ _ => ⟨rfl, rfl⟩

/-! ## Messages of computations that agree -/

namespace Codec

variable {excused : CodecError → Prop} {c c' : Codec}

/-- Instances that are written alike have the same message, or the same error. -/
theorem encode_of_agrees {i j : Instance}
    (h : Agrees excused Eq (c.writeMessage i) (c'.writeMessage j)) :
    Except.Agrees excused Eq (c.encode i) (c'.encode j) := by
  have hrun := h #[]
  unfold encode encodeInto
  generalize c.writeMessage i #[] = x at hrun ⊢
  generalize c'.writeMessage j #[] = y at hrun ⊢
  cases hrun with
  | ok _ => exact .ok rfl
  | error e _ => exact .error e
  | excused _ he => exact .excused _ he

/-- Codecs that read messages alike find related messages at the front of some bytes, which take the
same bytes. -/
theorem decodePrefix_of_agrees {R : Descriptor × Instance → Descriptor × Instance → Prop}
    {S : Instance → Instance → Prop} (h : Agrees excused R c.readMessage c'.readMessage)
    (hRS : ∀ m m', R m m' → S m.2 m'.2) (bytes : List UInt8) :
    Except.Agrees excused (fun m m' => m'.2 = m.2 ∧ S m.1 m'.1) (c.decodePrefix bytes)
      (c'.decodePrefix bytes) := by
  have hrun := h (Reader.start bytes)
  unfold decodePrefix run
  generalize c.readMessage (Reader.start bytes) = x at hrun ⊢
  generalize c'.readMessage (Reader.start bytes) = y at hrun ⊢
  cases hrun with
  | ok hm => exact .ok ⟨rfl, hRS _ _ hm⟩
  | error e _ => exact .error e
  | excused _ he => exact .excused _ he

end Codec

namespace Registry

/-- Codecs under the same limits agree on how deep is too deep. -/
theorem enter {r r' : Registry} {l : Limits} {excused : CodecError → Prop} {σ α β : Type}
    {R : α → β → Prop} {levels : Nat} {p : Nat → EStateM CodecError σ α}
    {q : Nat → EStateM CodecError σ β} :
    (∀ n, n + 1 = levels → Agrees excused R (p n) (q n)) →
      Agrees excused R (match levels with | 0 => throw (Codec.mk r l).tooDeep | n + 1 => p n)
        (match levels with | 0 => throw (Codec.mk r' l).tooDeep | n + 1 => q n) := by
  intro h
  cases levels with
  | zero => exact .throw _
  | succ n => exact h n rfl

/-- Whether types may stand in the same places according to two registries, where the error that one
may not may be excused. -/
def AssignsLike (r r' : Registry) (excused : CodecError → Prop) : Prop :=
  ∀ tag declared, r'.isAssignable tag declared = r.isAssignable tag declared ∨
    r.isAssignable tag declared = false ∧
      ∀ owner field, excused (.notAssignable owner field declared tag)

/-! ## Encoders -/

/-- Whether two descriptors are written alike: under the same tag and with the same fields. -/
def Alike (d d' : Descriptor) : Prop := d'.tag = d.tag ∧ d'.fields = d.fields

/-- Whether two registries let instances related by `I` be encoded alike, the values of their fields
being related by `V`. -/
structure EncodesLike (r r' : Registry) (excused : CodecError → Prop)
    (I : Instance → Instance → Prop) (V : Field → Value → Value → Prop) : Prop where
  /-- Related values are of one form. -/
  layer {f : Field} {v w : Value} : V f v w → Value.Layer I V f v w
  /-- Related instances are of types that are written alike. -/
  lookup {i j : Instance} : I i j →
    Except.Agrees excused Alike (r.lookupInstance i) (r'.lookupInstance j)
  /-- Related instances have related values. -/
  values {i j : Instance} : I i j → List.Forall₂ (fun v w => ∀ f, V f v w) i.values j.values
  /-- Types may stand in the same places. -/
  assigns : r.AssignsLike r' excused

namespace EncodesLike

variable {r r' : Registry} {l : Limits} {excused : CodecError → Prop}
  {I : Instance → Instance → Prop} {V : Field → Value → Value → Prop}

/-- Fields are written alike if each value is. -/
theorem writeFields {write write' : Field → Value → Write Unit}
    (h : ∀ f v w, V f v w → Agrees excused Eq (write f v) (write' f w)) {vs ws : List Value}
    (hvs : List.Forall₂ (fun v w => ∀ f, V f v w) vs ws) (tag : String) (index : Nat)
    (fs : List Field) : Agrees excused Eq (Codec.writeFields write tag index fs vs)
      (Codec.writeFields write' tag index fs ws) := by
  induction hvs generalizing index fs with
  | nil =>
    cases fs with
    | nil => exact .pure rfl
    | cons f fs => exact .throw _
  | @cons v w vs ws hv _ ih =>
    cases fs with
    | nil => exact .pure rfl
    | cons f fs => exact (h f v w (hv f)).bind fun _ _ _ => ih (index + 1) fs

/-- Items are written alike if each of them is. -/
theorem writeItems {write write' : Value → Write Unit} {P : Value → Value → Prop}
    (h : ∀ v w, P v w → Agrees excused Eq (write v) (write' w)) {vs ws : List Value}
    (hvs : List.Forall₂ P vs ws) :
    Agrees excused Eq (Codec.writeItems write vs) (Codec.writeItems write' ws) := by
  induction hvs with
  | nil => exact .pure rfl
  | cons hv _ ih => exact (h _ _ hv).bind fun _ _ _ => ih

/-- Entries are written alike if each key and each value is. -/
theorem writeEntries {writeKey writeKey' writeValue writeValue' : Value → Write Unit}
    {P Q : Value → Value → Prop}
    (hk : ∀ v w, P v w → Agrees excused Eq (writeKey v) (writeKey' w))
    (hv : ∀ v w, Q v w → Agrees excused Eq (writeValue v) (writeValue' w))
    {es es' : List (Value × Value)}
    (hes : List.Forall₂ (fun e e' => P e.1 e'.1 ∧ Q e.2 e'.2) es es') :
    Agrees excused Eq (Codec.writeEntries writeKey writeValue es)
      (Codec.writeEntries writeKey' writeValue' es') := by
  induction hes with
  | nil => exact .pure rfl
  | cons he _ ih =>
    exact (hk _ _ he.1).bind fun _ _ _ => (hv _ _ he.2).bind fun _ _ _ => ih

/-- A type that has been found is handed on. -/
theorem ofExcept {α β : Type} {R : α → β → Prop} {x : Except CodecError α}
    {y : Except CodecError β} (h : Except.Agrees excused R x y) :
    Agrees excused R (Write.ofExcept x) (Write.ofExcept y) := by
  cases h with
  | ok hab => exact .pure hab
  | error e => exact .throw e
  | excused y he => exact .excuse he _

/-- Related instances of types that are written alike are written alike, if their values are. -/
theorem writeBody (h : r.EncodesLike r' excused I V) {write write' : Field → Value → Write Unit}
    (hwrite : ∀ f v w, V f v w → Agrees excused Eq (write f v) (write' f w)) {d d' : Descriptor}
    (hd : Alike d d') {i j : Instance} (hij : I i j) :
    Agrees excused Eq ((Codec.mk r l).writeBody write d i)
      ((Codec.mk r' l).writeBody write' d' j) := by
  unfold Codec.writeBody
  rw [hd.1, hd.2]
  exact .after _ fun _ => writeFields hwrite (h.values hij) d.tag 0 d.fields

/-- Related values are written alike, by induction on the levels that may still be entered. -/
theorem writeValue (h : r.EncodesLike r' excused I V) (levels : Nat) (tag owner : String)
    (f : Field) (v w : Value) (hv : V f v w) :
    Agrees excused Eq ((Codec.mk r l).writeValue levels tag owner f v)
      ((Codec.mk r' l).writeValue levels tag owner f w) := by
  induction levels using Nat.strongRecOn generalizing tag owner f v w with
  | ind levels ih =>
  have hin : ∀ n, n + 1 = levels → ∀ tag owner f v w, V f v w →
      Agrees excused Eq ((Codec.mk r l).writeValue n tag owner f v)
        ((Codec.mk r' l).writeValue n tag owner f w) :=
    fun n hn tag owner f v w hv => ih n (by omega) tag owner f v w hv
  cases h.layer hv with
  | null | scalar s | string s | bytes b | enum variant =>
    -- No registry is asked about a leaf.
    unfold Codec.writeValue
    cases f.kind <;> exact .refl _
  | @nested i j hij =>
    unfold Codec.writeValue
    cases f.kind with
    | nested declared =>
      refine (ofExcept (h.lookup hij)).bind fun d d' hd => ?_
      dsimp only
      rw [hd.1]
      rcases h.assigns d.tag declared with hsame | ⟨hfalse, hexcused⟩
      · rw [hsame]
        split
        next =>
          exact enter fun n hn =>
            h.writeBody (fun f => hin n hn d.tag f.name f) hd hij
        next => exact .throw _
      · rw [hfalse, if_neg Bool.false_ne_true]
        exact .excuse (hexcused tag owner) _
    | _ => exact .refl _
  | list hitems =>
    unfold Codec.writeValue
    cases hk : f.kind with
    | list element =>
      have hitems := hitems element hk
      simp only [Value.isNull, Bool.false_eq_true, if_false, ← hitems.length_eq]
      exact enter fun n hn => .after _ fun _ => (Agrees.refl _).bind fun _ _ _ =>
        writeItems (hin n hn tag owner element) hitems
    | _ => exact .refl _
  | map hentries =>
    unfold Codec.writeValue
    cases hk : f.kind with
    | map key value =>
      have hentries := hentries key value hk
      simp only [Value.isNull, Bool.false_eq_true, if_false, ← hentries.length_eq]
      exact enter fun n hn => .after _ fun _ => (Agrees.refl _).bind fun _ _ _ =>
        writeEntries (hin n hn tag owner key) (hin n hn tag owner value) hentries
    | _ => exact .refl _

/-- Related instances have the same message, or the same error. -/
theorem encode (h : r.EncodesLike r' excused I V) {i j : Instance} (hij : I i j) :
    Except.Agrees excused Eq ((Codec.mk r l).encode i) ((Codec.mk r' l).encode j) := by
  refine Codec.encode_of_agrees ((ofExcept (h.lookup hij)).bind fun d d' hd => ?_)
  rw [hd.1]
  exact enter fun n _ => h.writeBody (fun f => h.writeValue n d.tag f.name f) hd hij

end EncodesLike

/-! ## Decoders -/

/-- Whether two registries let bytes be decoded alike. Instances that are read into are related by
`K`, which also counts the fields read so far, and the values read for a field by `V`. -/
structure DecodesLike (r r' : Registry) (excused : CodecError → Prop)
    (K : Descriptor → Nat → Instance → Instance → Prop) (V : Field → Value → Value → Prop) :
    Prop where
  /-- A tag names types that are read alike, with related fresh instances. -/
  lookup (tag : String) : Except.Agrees excused
    (fun d d' => Alike d d' ∧ K d 0 d.prototype d'.prototype) (r.lookup tag) (r'.lookup tag)
  /-- Types may stand in the same places. -/
  assigns : r.AssignsLike r' excused
  /-- Storing related values in related instances leaves them related. -/
  store {d : Descriptor} {k : Nat} {f : Field} {i j : Instance} {v w : Value} :
    d.fields[k]? = some f → K d k i j → V f v w →
    Except.Agrees (fun _ => False) (K d (k + 1)) (i.setField k v) (j.setField k w)
  /-- Values of one form that a field accepts are related if their parts are. Instances are of a
  type that may stand there, and all their fields have been read. -/
  value {f : Field} {v w : Value} : f.accepts v = true →
    Value.Layer (fun i j => ∃ d declared, f.kind = .nested declared ∧
      r.isAssignable d.tag declared = true ∧ K d d.fields.length i j) V f v w →
    V f v w

namespace DecodesLike

variable {r r' : Registry} {l : Limits} {excused : CodecError → Prop}
  {K : Descriptor → Nat → Instance → Instance → Prop} {V : Field → Value → Value → Prop}

/-- A tag is resolved alike. -/
theorem resolve (h : r.DecodesLike r' excused K V) (tag : String) :
    Agrees excused (fun d d' => Alike d d' ∧ K d 0 d.prototype d'.prototype)
      ((Codec.mk r l).resolve tag) ((Codec.mk r' l).resolve tag) := by
  have hlookup := h.lookup tag
  unfold Codec.resolve
  dsimp only
  generalize r.lookup tag = x at hlookup ⊢
  generalize r'.lookup tag = y at hlookup ⊢
  cases hlookup with
  | ok hd => exact .pure hd
  | error e => exact .throw e
  | excused _ he => exact .excuse he _

/-- The fields of a type are read and stored alike if each of them is read alike. Those before have
been stored already. -/
theorem readFields (h : r.DecodesLike r' excused K V) {read read' : Field → Read Value}
    (hread : ∀ f, Agrees excused (V f) (read f) (read' f)) {d : Descriptor} (tag : String)
    (fs before : List Field) (hfields : d.fields = before ++ fs) (i j : Instance)
    (hij : K d before.length i j) :
    Agrees excused (K d d.fields.length) (Codec.readFields read tag before.length fs i)
      (Codec.readFields read' tag before.length fs j) := by
  induction fs generalizing before i j with
  | nil =>
    rw [List.append_nil] at hfields
    rw [hfields]
    exact .pure hij
  | cons f fs ih =>
    refine (hread f).bind fun v w hv => ?_
    have hf : d.fields[before.length]? = some f := by
      rw [hfields, List.getElem?_append_right (Nat.le_refl _), Nat.sub_self]
      rfl
    have hstore := h.store hf hij hv
    have hrest := ih (before ++ [f]) (by rw [hfields, List.append_assoc]; rfl)
    rw [List.length_append, List.length_singleton] at hrest
    generalize i.setField before.length v = x at hstore ⊢
    generalize j.setField before.length w = y at hstore ⊢
    cases hstore with
    | ok hij' => exact hrest _ _ hij'
    | error e => exact .throw _
    | excused _ he => exact he.elim

/-- A body is read alike if each field is. -/
theorem readBody (h : r.DecodesLike r' excused K V) {read read' : Field → Read Value}
    (hread : ∀ f, Agrees excused (V f) (read f) (read' f)) {d d' : Descriptor}
    (hd : Alike d d' ∧ K d 0 d.prototype d'.prototype) :
    Agrees excused (K d d.fields.length) (Codec.readBody read d) (Codec.readBody read' d') := by
  unfold Codec.readBody
  rw [hd.1.1, hd.1.2]
  exact h.readFields hread d.tag d.fields [] rfl _ _ hd.2

/-- Items are read alike if one of them is. -/
theorem readItems {read read' : Read Value} {P : Value → Value → Prop}
    (h : Agrees excused P read read') (n : Nat) :
    Agrees excused (List.Forall₂ P) (Codec.readItems read n) (Codec.readItems read' n) := by
  induction n with
  | zero => exact .pure .nil
  | succ n ih => exact h.bind fun _ _ hv => ih.bind fun _ _ hvs => .pure (.cons hv hvs)

/-- Entries are read alike if a key and a value are. -/
theorem readEntries {readKey readKey' readValue readValue' : Read Value}
    {P Q : Value → Value → Prop} (hk : Agrees excused P readKey readKey')
    (hv : Agrees excused Q readValue readValue') (n : Nat) :
    Agrees excused (List.Forall₂ fun e e' => P e.1 e'.1 ∧ Q e.2 e'.2)
      (Codec.readEntries readKey readValue n) (Codec.readEntries readKey' readValue' n) := by
  induction n with
  | zero => exact .pure .nil
  | succ n ih =>
    exact hk.bind fun _ _ hk => hv.bind fun _ _ hv => ih.bind fun _ _ hes =>
      .pure (.cons ⟨hk, hv⟩ hes)

/-- Null is read alike. -/
theorem readNull (h : r.DecodesLike r' excused K V) (tag owner : String) (f : Field) :
    Agrees excused (V f) (Codec.readNull tag owner f) (Codec.readNull tag owner f) := by
  unfold Codec.readNull
  split
  next hf => exact .pure (h.value hf .null)
  next => exact .throw _

/-- A scalar is read alike. -/
theorem readScalar (h : r.DecodesLike r' excused K V) {f : Field} {k : ScalarKind}
    (hk : f.kind = .scalar k) :
    Agrees excused (V f) (Codec.readScalar f k) (Codec.readScalar f k) := by
  have hscalar : Agrees excused (V f) (do return Value.scalar (← Read.scalar k))
      (do return Value.scalar (← Read.scalar k)) := by
    have hkind : Agrees excused (fun s s' => s' = s ∧ s.kind = k) (Read.scalar k) (Read.scalar k) :=
      .self fun reader s _ hs => by
        obtain ⟨_, ⟨hs, -⟩, -⟩ := (Read.spells_scalar k reader.offset reader.rest s _).1 hs
        exact ⟨rfl, hs⟩
    refine hkind.bind fun s _ hs => ?_
    obtain ⟨rfl, rfl⟩ := hs
    exact .pure (h.value (by simp [Field.accepts, Value.isNull, hk, FieldKind.accepts]) (.scalar _))
  unfold Codec.readScalar
  split
  next hf =>
    refine .after _ fun present => ?_
    cases present with
    | false => exact .pure (h.value hf .null)
    | true => exact hscalar
  next => exact hscalar

/-- A value is read alike, by induction on the levels that may still be entered. -/
theorem readValue (h : r.DecodesLike r' excused K V) (levels : Nat) (tag owner : String)
    (f : Field) :
    Agrees excused (V f) ((Codec.mk r l).readValue levels tag owner f)
      ((Codec.mk r' l).readValue levels tag owner f) := by
  induction levels using Nat.strongRecOn generalizing tag owner f with
  | ind levels ih =>
  have hin : ∀ n, n + 1 = levels → ∀ tag owner f,
      Agrees excused (V f) ((Codec.mk r l).readValue n tag owner f)
        ((Codec.mk r' l).readValue n tag owner f) :=
    fun n hn tag owner f => ih n (by omega) tag owner f
  have haccepts {v : Value} (hv : v.isNull = false) (hfv : f.kind.accepts v = true) :
      f.accepts v = true := by simp [Field.accepts, hv, hfv]
  unfold Codec.readValue
  cases hk : f.kind with
  | scalar k => exact h.readScalar hk
  | string =>
    refine .after _ fun n? => ?_
    cases n? with
    | none => exact h.readNull tag owner f
    | some n =>
      exact .after _ fun s => .pure (h.value (haccepts rfl (by rw [hk]; rfl)) (.string s))
  | bytes =>
    refine .after _ fun n? => ?_
    cases n? with
    | none => exact h.readNull tag owner f
    | some n =>
      exact .after _ fun b => .pure (h.value (haccepts rfl (by rw [hk]; rfl)) (.bytes b))
  | enum e =>
    refine .after _ fun start => .after _ fun n? => ?_
    cases n? with
    | none => exact h.readNull tag owner f
    | some n =>
      refine .after _ fun variant => ?_
      split
      next hmem =>
        exact .pure (h.value (haccepts rfl (by rw [hk]; exact hmem)) (.enum variant))
      next => exact .throw _
  | nested declared =>
    refine .after _ fun tag? => ?_
    cases tag? with
    | none => exact h.readNull tag owner f
    | some found =>
      refine (h.resolve found).bind fun d d' hd => ?_
      dsimp only
      rw [hd.1.1]
      rcases h.assigns d.tag declared with hsame | ⟨hfalse, hexcused⟩
      · rw [hsame]
        split
        next hto =>
          exact enter fun n hn => (h.readBody (fun f => hin n hn d.tag f.name f) hd).bind
            fun i j hij => .pure (h.value (haccepts rfl (by rw [hk]; rfl))
              (.nested ⟨d, declared, hk, hto, hij⟩))
        next => exact .throw _
      · rw [hfalse, if_neg Bool.false_ne_true]
        exact .excuse (hexcused tag owner) _
  | list element =>
    refine .after _ fun n? => ?_
    cases n? with
    | none => exact h.readNull tag owner f
    | some count =>
      refine enter fun n hn => (readItems (hin n hn tag owner element) count).bind
        fun items items' hitems => .pure (h.value (haccepts rfl (by rw [hk]; rfl)) (.list ?_))
      intro element' hk'
      rw [hk] at hk'
      cases hk'
      exact hitems
  | map key value =>
    refine .after _ fun n? => ?_
    cases n? with
    | none => exact h.readNull tag owner f
    | some count =>
      refine enter fun n hn =>
        (readEntries (hin n hn tag owner key) (hin n hn tag owner value) count).bind
          fun entries entries' hentries =>
            .pure (h.value (haccepts rfl (by rw [hk]; rfl)) (.map ?_))
      intro key' value' hk'
      rw [hk] at hk'
      cases hk'
      exact hentries

/-- A message is read alike. -/
theorem readMessage (h : r.DecodesLike r' excused K V) :
    Agrees excused (fun m m' => K m.1 m.1.fields.length m.2 m'.2) (Codec.mk r l).readMessage
      (Codec.mk r' l).readMessage :=
  .after _ fun tag => (h.resolve tag).bind fun d d' hd => by
    rw [hd.1.1]
    exact enter fun n _ => (h.readBody (fun f => h.readValue n d.tag f.name f) hd).bind
      fun i j hij => .pure hij

/-- The messages at the front of some bytes are related and take the same bytes. -/
theorem decodePrefix (h : r.DecodesLike r' excused K V) (bytes : List UInt8) :
    Except.Agrees excused (fun m m' => m'.2 = m.2 ∧ ∃ d, K d d.fields.length m.1 m'.1)
      ((Codec.mk r l).decodePrefix bytes) ((Codec.mk r' l).decodePrefix bytes) :=
  Codec.decodePrefix_of_agrees (S := fun i j => ∃ d, K d d.fields.length i j) h.readMessage
    (fun m _ hm => ⟨m.1, hm⟩) bytes

/-- Bytes are related messages. -/
theorem decode (h : r.DecodesLike r' excused K V) (bytes : List UInt8) :
    Except.Agrees excused (fun i j => ∃ d, K d d.fields.length i j)
      ((Codec.mk r l).decode bytes) ((Codec.mk r' l).decode bytes) := by
  have hrun := h.readMessage (l := l) (Reader.start bytes)
  unfold Codec.decode Codec.decodeWhole Codec.run
  generalize (Codec.mk r l).readMessage (Reader.start bytes) = x at hrun ⊢
  generalize (Codec.mk r' l).readMessage (Reader.start bytes) = y at hrun ⊢
  cases hrun with
  | @ok m m' reader hm =>
    obtain ⟨offset, rest⟩ := reader
    cases rest with
    | nil => exact .ok ⟨_, hm⟩
    | cons b rest => exact .error _
  | error e _ => exact .error e
  | excused _ he => exact .excused _ he

end DecodesLike

/-! ## The same instances -/

section
variable {r r' : Registry} {excused : CodecError → Prop}

/-- An instance has the same message, or the same error, according to registries that find the same
type for every instance. -/
theorem encode_agrees
    (hlookup : ∀ i, Except.Agrees excused Eq (r.lookupInstance i) (r'.lookupInstance i))
    (hassigns : r.AssignsLike r' excused) (l : Limits) (i : Instance) :
    Except.Agrees excused Eq ((Codec.mk r l).encode i) ((Codec.mk r' l).encode i) := by
  have hsame : r.EncodesLike r' excused Eq fun _ => Eq :=
    { layer := fun {f v w} hvw => hvw ▸ .refl f v
      lookup := fun {i j} hij => hij ▸ (hlookup i).imp fun _ _ hd => hd ▸ ⟨rfl, rfl⟩
      values := fun {i j} hij => hij ▸ List.forall₂_same.2 fun _ _ _ => rfl
      assigns := hassigns }
  exact hsame.encode rfl

/-- Registries that find the same type for every tag let bytes be decoded to the same instances. -/
theorem decodesLike_of_lookup
    (hlookup : ∀ tag, Except.Agrees excused Eq (r.lookup tag) (r'.lookup tag))
    (hassigns : r.AssignsLike r' excused) :
    r.DecodesLike r' excused (fun _ _ => Eq) fun _ => Eq where
  lookup tag := (hlookup tag).imp fun _ _ hd => hd ▸ ⟨⟨rfl, rfl⟩, rfl⟩
  assigns := hassigns
  store {_ k _ i _ v _} _ hij hvw := hij ▸ hvw ▸ .refl (i.setField k v)
  value {f v w} hfv hlayer := by
    cases hlayer with
    | null | scalar | string | bytes | enum => rfl
    | nested hij =>
      obtain ⟨_, _, _, _, rfl⟩ := hij
      rfl
    | list hitems =>
      cases hk : f.kind with
      | list element =>
        have hitems := hitems element hk
        rw [List.forall₂_eq_eq_eq] at hitems
        rw [hitems]
      | _ => simp [Field.accepts, Value.isNull, FieldKind.accepts, hk] at hfv
    | map hentries =>
      cases hk : f.kind with
      | map key value =>
        have hentries := (hentries key value hk).imp fun _ _ he => Prod.ext he.1 he.2
        rw [List.forall₂_eq_eq_eq] at hentries
        rw [hentries]
      | _ => simp [Field.accepts, Value.isNull, FieldKind.accepts, hk] at hfv

/-- The same message is found at the front of some bytes, or the same error. -/
theorem decodePrefix_agrees
    (hlookup : ∀ tag, Except.Agrees excused Eq (r.lookup tag) (r'.lookup tag))
    (hassigns : r.AssignsLike r' excused) (l : Limits) (bytes : List UInt8) :
    Except.Agrees excused Eq ((Codec.mk r l).decodePrefix bytes)
      ((Codec.mk r' l).decodePrefix bytes) :=
  ((decodesLike_of_lookup hlookup hassigns).decodePrefix bytes).imp fun _ _ hm =>
    Prod.ext hm.2.choose_spec hm.1.symm

/-- Bytes are the same message, or the same error. -/
theorem decode_agrees
    (hlookup : ∀ tag, Except.Agrees excused Eq (r.lookup tag) (r'.lookup tag))
    (hassigns : r.AssignsLike r' excused) (l : Limits) (bytes : List UInt8) :
    Except.Agrees excused Eq ((Codec.mk r l).decode bytes) ((Codec.mk r' l).decode bytes) :=
  ((decodesLike_of_lookup hlookup hassigns).decode bytes).imp fun _ _ hi => hi.choose_spec

end

end Registry

end TagWire
