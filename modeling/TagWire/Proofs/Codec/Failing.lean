import TagWire.Codec.Decoder

/-!
# What a computation fails with

`Fails P p` says that every error of a computation, wherever it starts, has the property `P`. It
holds of a sequence if it holds of its parts (`Fails.bind`), so an error of the decoder is one that
is named where it is thrown (`Codec.fails_readMessage`, by induction on the levels that may still be
entered). The errors that speak of a whole message, of bytes behind it or of its type, are not among
these.
-/

namespace TagWire

/-! ## Computations that fail -/

/-- Whether every error of a computation has a property. -/
def Fails {ε σ α : Type} (P : ε → Prop) (p : EStateM ε σ α) : Prop :=
  ∀ s e t, p s = .error e t → P e

namespace Fails

variable {ε σ α β : Type} {P : ε → Prop}

/-- Answering does not fail. -/
theorem pure (a : α) : Fails P (Pure.pure a : EStateM ε σ α) := nofun

/-- Failing with an error that has the property. -/
theorem throw {e : ε} (he : P e) : Fails P (MonadExcept.throw e : EStateM ε σ α) := by
  intro s e' t h
  cases h
  exact he

/-- One computation after the other. The second is looked at only behind an answer of the first. -/
theorem bindOf {p : EStateM ε σ α} {f : α → EStateM ε σ β} (hp : Fails P p)
    (hf : ∀ a, (∃ s t, p s = .ok a t) → Fails P (f a)) : Fails P (p >>= f) := by
  intro s e t h
  simp only [Bind.bind, EStateM.bind] at h
  cases hs : p s with
  | ok a t' =>
    rw [hs] at h
    exact hf a ⟨s, t', hs⟩ t' e t h
  | error e' t' =>
    rw [hs] at h
    cases h
    exact hp s e t hs

/-- One computation after the other. -/
theorem bind {p : EStateM ε σ α} {f : α → EStateM ε σ β} (hp : Fails P p)
    (hf : ∀ a, Fails P (f a)) : Fails P (p >>= f) :=
  hp.bindOf fun a _ => hf a

/-- Errors may have another property by the one that they have. -/
theorem mono {Q : ε → Prop} {p : EStateM ε σ α} (h : Fails P p) (hPQ : ∀ e, P e → Q e) :
    Fails Q p :=
  fun s e t hs => hPQ e (h s e t hs)

/-- One of two computations. -/
theorem ite {b : Prop} [Decidable b] {p q : EStateM ε σ α} (hp : b → Fails P p)
    (hq : ¬b → Fails P q) : Fails P (if b then p else q) := by
  split
  next hb => exact hp hb
  next hb => exact hq hb

end Fails

/-! ## Items -/

/-- The errors of reading: what is missing, out of bounds, not in order or not in place. -/
inductive CodecError.OfReading : CodecError → Prop
  | unknownType (tag : String) : OfReading (.unknownType tag)
  | truncated (offset needed remaining : Nat) : OfReading (.truncated offset needed remaining)
  | malformedLength (offset length limit : Nat) : OfReading (.malformedLength offset length limit)
  | invalidData (offset : Nat) (fault : DataFault) : OfReading (.invalidData offset fault)
  | unexpectedNull (tag field : String) : OfReading (.unexpectedNull tag field)
  | notAssignable (tag field declared found : String) :
      OfReading (.notAssignable tag field declared found)
  | depthExceeded (limit : Nat) : OfReading (.depthExceeded limit)
  | refusedField (tag field : String) (cause : FieldError) :
      OfReading (.refusedField tag field cause)

/-- The errors of reading in which no setter has a part. -/
def CodecError.OfItem (e : CodecError) : Prop :=
  e.OfReading ∧ ∀ tag field cause, e ≠ .refusedField tag field cause

open CodecError (OfItem OfReading)

/-- The errors of reading in which no setter has a part are errors of reading. -/
theorem Fails.ofItem {α : Type} {p : Read α} (h : Fails OfItem p) : Fails OfReading p :=
  h.mono fun _ => And.left

namespace Read

/-- Asking for the offset does not fail. -/
theorem fails_offset {P : CodecError → Prop} : Fails P offset := nofun

/-- Bytes may be missing. -/
theorem fails_bytes (n : Nat) : Fails OfItem (bytes n) := by
  intro r e r' h
  unfold bytes at h
  dsimp only at h
  split at h
  next => cases h
  next => cases h; exact ⟨.truncated _ _ _, nofun⟩

/-- A word may be cut short. -/
theorem fails_word (width : Nat) : Fails OfItem (word width) :=
  (fails_bytes width).bind fun _ => .pure _

/-- A scalar may be cut short or be none of its kind. -/
theorem fails_scalar (k : ScalarKind) : Fails OfItem (scalar k) := by
  refine fails_offset.bind fun start => (fails_word _).bind fun n => ?_
  split
  next => exact .pure _
  next => exact .throw ⟨.invalidData _ _, nofun⟩

/-- A length may be cut short or out of bounds. -/
theorem fails_length (limit : UInt32) : Fails OfItem (length limit) := by
  refine fails_offset.bind fun start => (fails_word 4).bind fun n => .ite (fun _ => .pure _) ?_
  exact fun _ => .ite (fun _ => .throw ⟨.malformedLength _ _ _, nofun⟩) fun _ => .pure _

/-- A text may be cut short or be no text. -/
theorem fails_text (n : Nat) : Fails OfItem (text n) := by
  refine fails_offset.bind fun start => (fails_bytes n).bind fun bs => ?_
  split
  next => exact .pure _
  next => exact .throw ⟨.invalidData _ _, nofun⟩

end Read

/-! ## The decoder -/

/-- Whether what is of a kind has no values below it. -/
def FieldKind.IsFlat : FieldKind → Prop
  | .nested _ | .list _ | .map _ _ => False
  | _ => True

namespace Codec

variable (c : Codec)

/-- A tag is a text. -/
theorem fails_readTag : Fails OfItem c.readTag := by
  refine (Read.fails_length _).bind fun n? => ?_
  cases n? with
  | none => exact .pure _
  | some n => exact (Read.fails_text n).bind fun _ => .pure _

/-- The tag of a message may be null besides. -/
theorem fails_readRootTag : Fails OfItem c.readRootTag := by
  refine Read.fails_offset.bind fun start => c.fails_readTag.bind fun tag? => ?_
  cases tag? with
  | none => exact .throw ⟨.invalidData _ _, nofun⟩
  | some tag => exact .pure _

/-- A tag may not be registered. -/
theorem fails_resolve (tag : String) : Fails OfItem (c.resolve tag) := by
  unfold resolve Registry.lookup
  cases c.registry.get? tag with
  | none => exact .throw ⟨.unknownType tag, nofun⟩
  | some d => exact .pure d

variable {c}

/-- A field may be cut short, or refused by its setter. -/
theorem fails_readFields {read : Field → Read Value} (h : ∀ f, Fails OfReading (read f))
    (tag : String) (fs : List Field) (index : Nat) (i : Instance) :
    Fails OfReading (readFields read tag index fs i) := by
  induction fs generalizing index i with
  | nil => exact .pure i
  | cons f fs ih =>
    refine (h f).bind fun v => ?_
    cases i.setField index v with
    | ok i' => exact ih (index + 1) i'
    | error cause => exact .throw (.refusedField _ _ _)

/-- Items fail like one of them. -/
theorem fails_readItems {read : Read Value} (h : Fails OfReading read) (n : Nat) :
    Fails OfReading (readItems read n) := by
  induction n with
  | zero => exact .pure []
  | succ n ih => exact h.bind fun _ => ih.bind fun _ => .pure _

/-- Entries fail like a key or a value of them. -/
theorem fails_readEntries {readKey readValue : Read Value} (hk : Fails OfReading readKey)
    (hv : Fails OfReading readValue) (n : Nat) :
    Fails OfReading (readEntries readKey readValue n) := by
  induction n with
  | zero => exact .pure []
  | succ n ih => exact hk.bind fun _ => hv.bind fun _ => ih.bind fun _ => .pure _

/-- Null may not be allowed. -/
theorem fails_readNull (tag owner : String) (f : Field) : Fails OfItem (readNull tag owner f) :=
  .ite (fun _ => .pure _) fun _ => .throw ⟨.unexpectedNull _ _, nofun⟩

/-- A presence byte may be cut short or be none. -/
theorem fails_readPresence : Fails OfItem readPresence := by
  refine Read.fails_offset.bind fun start => (Read.fails_word 1).bind fun n => ?_
  refine .ite (fun _ => .pure _) fun _ => .ite (fun _ => .pure _) fun _ => .throw ?_
  exact ⟨.invalidData _ _, nofun⟩

/-- A scalar fails like its presence byte or itself. -/
theorem fails_readScalar (f : Field) (k : ScalarKind) : Fails OfItem (readScalar f k) := by
  have hk : Fails OfItem (do return Value.scalar (← Read.scalar k)) :=
    (Read.fails_scalar k).bind fun _ => .pure _
  refine .ite (fun _ => fails_readPresence.bind fun present => ?_) fun _ => hk
  cases present with
  | false => exact .pure _
  | true => exact hk

/-- A variant may be cut short, be no text, or be none of its enumeration. -/
theorem fails_readVariant (e : Enumeration) (start n : Nat) :
    Fails OfItem (readVariant e start n) :=
  (Read.fails_text n).bind fun _ =>
    .ite (fun _ => .pure _) fun _ => .throw ⟨.invalidData _ _, nofun⟩

/-- A level too many may be entered. -/
theorem fails_enter {σ α : Type} {P : CodecError → Prop} {p : Nat → EStateM CodecError σ α}
    {levels : Nat} (hdeep : P c.tooDeep) (h : ∀ n, n + 1 = levels → Fails P (p n)) :
    Fails P (match levels with | 0 => throw c.tooDeep | n + 1 => p n) := by
  cases levels with
  | zero => exact .throw hdeep
  | succ n => exact h n rfl

/-- A value without values below it fails where its length or its content does, or as null. -/
theorem fails_readFlat {levels : Nat} {tag owner : String} {f : Field} (hf : f.kind.IsFlat) :
    Fails OfItem (c.readValue levels tag owner f) := by
  have hnull := fails_readNull tag owner f
  unfold readValue
  cases hkind : f.kind with
  | scalar k => exact fails_readScalar f k
  | string =>
    refine (Read.fails_length _).bind fun n? => ?_
    cases n? with
    | none => exact hnull
    | some n => exact (Read.fails_text n).bind fun _ => .pure _
  | bytes =>
    refine (Read.fails_length _).bind fun n? => ?_
    cases n? with
    | none => exact hnull
    | some n => exact (Read.fails_bytes n).bind fun _ => .pure _
  | enum e =>
    refine Read.fails_offset.bind fun start => (Read.fails_length _).bind fun n? => ?_
    cases n? with
    | none => exact hnull
    | some n => exact fails_readVariant e start n
  | nested | list | map =>
    rw [hkind] at hf
    exact hf.elim

/-- A value fails with an error of reading, by induction on the levels that may still be entered. -/
theorem fails_readValue (levels : Nat) (tag owner : String) (f : Field) :
    Fails OfReading (c.readValue levels tag owner f) := by
  induction levels using Nat.strongRecOn generalizing tag owner f with
  | ind levels ih =>
  have hin (n : Nat) (hn : n + 1 = levels) (tag owner : String) (f : Field) :
      Fails OfReading (c.readValue n tag owner f) :=
    ih n (by omega) tag owner f
  have hnull := (fails_readNull tag owner f).ofItem
  cases hkind : f.kind with
  | scalar | string | bytes | enum => exact (fails_readFlat (hkind ▸ trivial)).ofItem
  | nested declared =>
    unfold readValue
    rw [hkind]
    refine c.fails_readTag.ofItem.bind fun tag? => ?_
    cases tag? with
    | none => exact hnull
    | some found =>
      refine (c.fails_resolve found).ofItem.bind fun d => .ite (fun _ => ?_) fun _ =>
        .throw (.notAssignable _ _ _ _)
      refine fails_enter (.depthExceeded _) fun n hn => ?_
      exact (fails_readFields (fun f => hin n hn d.tag f.name f) _ _ _ _).bind fun _ => .pure _
  | list element =>
    unfold readValue
    rw [hkind]
    refine (Read.fails_length _).ofItem.bind fun n? => ?_
    cases n? with
    | none => exact hnull
    | some count =>
      refine fails_enter (.depthExceeded _) fun n hn => ?_
      exact (fails_readItems (hin n hn tag owner element) count).bind fun _ => .pure _
  | map key value =>
    unfold readValue
    rw [hkind]
    refine (Read.fails_length _).ofItem.bind fun n? => ?_
    cases n? with
    | none => exact hnull
    | some count =>
      refine fails_enter (.depthExceeded _) fun n hn => ?_
      exact (fails_readEntries (hin n hn tag owner key) (hin n hn tag owner value) count).bind
        fun _ => .pure _

variable (c)

/-- A message fails with an error of reading. -/
theorem fails_readMessage : Fails OfReading c.readMessage := by
  refine c.fails_readRootTag.ofItem.bind fun tag => (c.fails_resolve tag).ofItem.bind fun d => ?_
  refine fails_enter (.depthExceeded _) fun levels _ => ?_
  exact (fails_readFields (fun f => fails_readValue levels d.tag f.name f) _ _ _ _).bind
    fun _ => .pure _

end Codec

end TagWire
