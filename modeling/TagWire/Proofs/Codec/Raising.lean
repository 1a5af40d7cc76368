import TagWire.Proofs.Codec.Simulation

/-!
# Limits that are raised

Two codecs over one registry, the second of which has a limit on depth and a limit on lengths that
are no lower. A limit is only ever compared with what is there, and a comparison that fails is
reported as such; so the second codec goes as the first one does until that reports a limit
(`Codec.writeValue_raised`, `Codec.readValue_raised`, by induction on the levels that the first one
may still enter). Whatever is encoded or decoded under the lower limits is so under the higher ones,
and so is every error that is not about a limit (`Codec.limits_raised`).
-/

namespace TagWire

/-- The errors of an encoder that comes to a limit. -/
inductive CodecError.LimitsEncoding : CodecError → Prop
  | lengthOverflow (tag field : String) (length limit : Nat) :
      LimitsEncoding (.encoding (.lengthOverflow tag field length limit))
  | depthExceeded (limit : Nat) : LimitsEncoding (.depthExceeded limit)

/-- The errors of a decoder that comes to a limit. -/
inductive CodecError.LimitsDecoding : CodecError → Prop
  | malformedLength (offset length limit : Nat) :
      LimitsDecoding (.malformedLength offset length limit)
  | depthExceeded (limit : Nat) : LimitsDecoding (.depthExceeded limit)

namespace Codec

/-- Where a level is left to enter, one is left under a higher limit too. -/
theorem enter_raised {excused : CodecError → Prop} {c c' : Codec} {σ α β : Type} {R : α → β → Prop}
    {levels levels' : Nat} {p : Nat → EStateM CodecError σ α} {q : Nat → EStateM CodecError σ β}
    (hexcused : ∀ limit, excused (.depthExceeded limit)) :
    levels ≤ levels' → (∀ n n', n + 1 = levels → n ≤ n' → Agrees excused R (p n) (q n')) →
      Agrees excused R (match levels with | 0 => throw c.tooDeep | n + 1 => p n)
        (match levels' with | 0 => throw c'.tooDeep | n + 1 => q n) := by
  intro hlevels h
  cases levels with
  | zero => exact .excuse (hexcused _) _
  | succ n =>
    obtain ⟨n', rfl⟩ : ∃ k, levels' = k + 1 := ⟨levels' - 1, by omega⟩
    exact h n n' rfl (by omega)

section
variable {r : Registry} {l l' : Limits} (hlength : l.maxLength ≤ l'.maxLength)
include hlength

/-- A length beyond the higher limit is beyond the lower one. -/
theorem lt_of_raised {n : Nat} (h : l'.maxLength.toNat < n) : l.maxLength.toNat < n :=
  Nat.lt_of_le_of_lt (UInt32.le_iff_toNat_le.1 hlength) h

/-! ## Encoding -/

/-- A length within the limit is within the higher one. -/
theorem checkLength_raised (tag field : String) (length : Nat) :
    Agrees CodecError.LimitsEncoding Eq ((Codec.mk r l).checkLength tag field length)
      ((Codec.mk r l').checkLength tag field length) := by
  unfold checkLength
  split
  next => exact .excuse (.lengthOverflow tag field length _) _
  next hle =>
    rw [if_neg fun h => hle (lt_of_raised hlength h)]
    exact .refl _

/-- A block is written as before. -/
theorem writeBlock_raised (tag field : String) (bytes : List UInt8) :
    Agrees CodecError.LimitsEncoding Eq ((Codec.mk r l).writeBlock tag field bytes)
      ((Codec.mk r l').writeBlock tag field bytes) :=
  (checkLength_raised hlength tag field bytes.length).bind fun _ _ _ => .refl _

/-- A body is written as before if each value is. -/
theorem writeBody_raised {write write' : Field → Value → Write Unit}
    (h : ∀ f v, Agrees CodecError.LimitsEncoding Eq (write f v) (write' f v)) (d : Descriptor)
    (i : Instance) :
    Agrees CodecError.LimitsEncoding Eq ((Codec.mk r l).writeBody write d i)
      ((Codec.mk r l').writeBody write' d i) :=
  (writeBlock_raised hlength d.tag "<tag>" _).bind fun _ _ _ =>
    Registry.EncodesLike.writeFields (V := fun _ => Eq) (fun f v _ hv => hv ▸ h f v)
      (List.forall₂_same.2 fun _ _ _ => rfl) d.tag 0 d.fields

/-- A value is written as before. -/
theorem writeValue_raised {levels levels' : Nat} (hlevels : levels ≤ levels') (tag owner : String)
    (f : Field) (v : Value) :
    Agrees CodecError.LimitsEncoding Eq ((Codec.mk r l).writeValue levels tag owner f v)
      ((Codec.mk r l').writeValue levels' tag owner f v) := by
  induction levels using Nat.strongRecOn generalizing levels' tag owner f v with
  | ind levels ih =>
  have hin : ∀ n n', n + 1 = levels → n ≤ n' → ∀ tag owner f v w, v = w →
      Agrees CodecError.LimitsEncoding Eq ((Codec.mk r l).writeValue n tag owner f v)
        ((Codec.mk r l').writeValue n' tag owner f w) :=
    fun n n' hn hn' tag owner f v w hv => hv ▸ ih n (by omega) hn' tag owner f v
  unfold writeValue
  split
  next => exact .refl _
  next hv =>
  split
  next => exact .refl _
  next s _ => exact writeBlock_raised hlength tag owner _
  next b _ => exact writeBlock_raised hlength tag owner b
  next e variant _ =>
    split
    next => exact writeBlock_raised hlength tag owner _
    next => exact .throw _
  next declared i _ =>
    refine .after _ fun d => ?_
    dsimp only
    split
    next =>
      exact enter_raised .depthExceeded hlevels fun n n' hn hn' =>
        writeBody_raised hlength (fun f v => hin n n' hn hn' d.tag f.name f v v rfl) d i
    next => exact .throw _
  next element items _ =>
    exact enter_raised .depthExceeded hlevels fun n n' hn hn' =>
      (checkLength_raised hlength tag owner items.length).bind fun _ _ _ => .after _ fun _ =>
        Registry.EncodesLike.writeItems (hin n n' hn hn' tag owner element)
          (List.forall₂_same.2 fun _ _ => rfl)
  next key value entries _ =>
    exact enter_raised .depthExceeded hlevels fun n n' hn hn' =>
      (checkLength_raised hlength tag owner entries.length).bind fun _ _ _ => .after _ fun _ =>
        Registry.EncodesLike.writeEntries (hin n n' hn hn' tag owner key)
          (hin n n' hn hn' tag owner value) (List.forall₂_same.2 fun _ _ => ⟨rfl, rfl⟩)
  next => exact .throw _

/-! ## Decoding -/

/-- A length within the limit is read as before, and so is what stands behind it. -/
theorem behindLength_raised {α : Type} {p q : Option Nat → Read α}
    (h : ∀ n?, Agrees CodecError.LimitsDecoding Eq (p n?) (q n?)) :
    Agrees CodecError.LimitsDecoding Eq (Read.length l.maxLength >>= p)
      (Read.length l'.maxLength >>= q) := by
  have hread : Agrees CodecError.LimitsDecoding Eq (Read.length l.maxLength)
      (Read.length l'.maxLength) := by
    unfold Read.length
    refine .after _ fun start => .after _ fun n => ?_
    split
    next => exact .refl _
    next =>
      split
      next => exact .excuse (.malformedLength start n _) _
      next hle =>
        rw [if_neg fun h => hle (lt_of_raised hlength h)]
        exact .refl _
  exact hread.bind fun n? _ hn => hn ▸ h n?

/-- A tag is read as before, and so is what stands behind it. -/
theorem behindTag_raised {α : Type} {p q : Option String → Read α}
    (h : ∀ tag?, Agrees CodecError.LimitsDecoding Eq (p tag?) (q tag?)) :
    Agrees CodecError.LimitsDecoding Eq ((Codec.mk r l).readTag >>= p)
      ((Codec.mk r l').readTag >>= q) :=
  Agrees.bind (behindLength_raised hlength fun _ => .refl _) fun tag? _ htag => htag ▸ h tag?

omit hlength in
/-- A body is read as before if each field is. -/
theorem readBody_raised {read read' : Field → Read Value}
    (h : ∀ f, Agrees CodecError.LimitsDecoding Eq (read f) (read' f)) (d : Descriptor) :
    Agrees CodecError.LimitsDecoding Eq (readBody read d) (readBody read' d) :=
  have hsame : Registry.DecodesLike ∅ ∅ CodecError.LimitsDecoding (fun _ _ => Eq) fun _ => Eq :=
    Registry.decodesLike_of_lookup (fun _ => .refl _) fun _ _ => .inl rfl
  hsame.readBody h ⟨⟨rfl, rfl⟩, rfl⟩

/-- A value is read as before. -/
theorem readValue_raised {levels levels' : Nat} (hlevels : levels ≤ levels') (tag owner : String)
    (f : Field) :
    Agrees CodecError.LimitsDecoding Eq ((Codec.mk r l).readValue levels tag owner f)
      ((Codec.mk r l').readValue levels' tag owner f) := by
  induction levels using Nat.strongRecOn generalizing levels' tag owner f with
  | ind levels ih =>
  have hin : ∀ n n', n + 1 = levels → n ≤ n' → ∀ tag owner f,
      Agrees CodecError.LimitsDecoding Eq ((Codec.mk r l).readValue n tag owner f)
        ((Codec.mk r l').readValue n' tag owner f) :=
    fun n n' hn hn' tag owner f => ih n (by omega) hn' tag owner f
  unfold readValue
  split
  next => exact .refl _
  next => exact behindLength_raised hlength fun _ => .refl _
  next => exact behindLength_raised hlength fun _ => .refl _
  next => exact .after _ fun start => behindLength_raised hlength fun _ => .refl _
  next declared _ =>
    refine behindTag_raised hlength fun tag? => ?_
    cases tag? with
    | none => exact .refl _
    | some found =>
      refine .after _ fun d => ?_
      dsimp only
      split
      next =>
        exact enter_raised .depthExceeded hlevels fun n n' hn hn' =>
          (readBody_raised (fun f => hin n n' hn hn' d.tag f.name f) d).bind
            fun i j hij => .pure (congrArg Value.nested hij)
      next => exact .throw _
  next element _ =>
    refine behindLength_raised hlength fun n? => ?_
    cases n? with
    | none => exact .refl _
    | some count =>
      refine enter_raised .depthExceeded hlevels fun n n' hn hn' =>
        (Registry.DecodesLike.readItems (hin n n' hn hn' tag owner element) count).bind
          fun items items' hitems => ?_
      rw [List.forall₂_eq_eq_eq] at hitems
      exact .pure (congrArg Value.list hitems)
  next key value _ =>
    refine behindLength_raised hlength fun n? => ?_
    cases n? with
    | none => exact .refl _
    | some count =>
      refine enter_raised .depthExceeded hlevels fun n n' hn hn' =>
        (Registry.DecodesLike.readEntries (hin n n' hn hn' tag owner key)
          (hin n n' hn hn' tag owner value) count).bind fun entries entries' hentries => ?_
      have hentries := hentries.imp fun _ _ he => Prod.ext he.1 he.2
      rw [List.forall₂_eq_eq_eq] at hentries
      exact .pure (congrArg Value.map hentries)

end

/-! ## Messages -/

section
variable {r : Registry} {l l' : Limits} (hdepth : l.maxDepth ≤ l'.maxDepth)
  (hlength : l.maxLength ≤ l'.maxLength)
include hdepth hlength

/-- A message is written as before. -/
theorem writeMessage_raised (i : Instance) : Agrees CodecError.LimitsEncoding Eq
    ((Codec.mk r l).writeMessage i) ((Codec.mk r l').writeMessage i) :=
  .after _ fun d => enter_raised .depthExceeded (UInt64.le_iff_toNat_le.1 hdepth) fun _ _ _ hn =>
    writeBody_raised hlength (fun f => writeValue_raised hlength hn d.tag f.name f) d i

/-- A message is read as before. -/
theorem readMessage_raised : Agrees CodecError.LimitsDecoding Eq (Codec.mk r l).readMessage
    (Codec.mk r l').readMessage := by
  have hroot : Agrees CodecError.LimitsDecoding Eq (Codec.mk r l).readRootTag
      (Codec.mk r l').readRootTag := .after _ fun _ => behindTag_raised hlength fun _ => .refl _
  refine hroot.bind fun tag _ htag => htag ▸ .after _ fun d => ?_
  exact enter_raised .depthExceeded (UInt64.le_iff_toNat_le.1 hdepth) fun _ _ _ hn =>
    (readBody_raised (fun f => readValue_raised hlength hn d.tag f.name f) d).bind
      fun i j hij => .pure (congrArg (d, ·) hij)

/-- Raising the limits keeps each message that is encoded, each instance that is decoded, and each
error that is not about a limit. -/
theorem limits_raised (r : Registry) :
    (∀ i bytes, (Codec.mk r l).encode i = .ok bytes → (Codec.mk r l').encode i = .ok bytes) ∧
    (∀ i e, (Codec.mk r l).encode i = .error e → ¬e.LimitsEncoding →
      (Codec.mk r l').encode i = .error e) ∧
    (∀ bytes m, (Codec.mk r l).decodePrefix bytes = .ok m →
      (Codec.mk r l').decodePrefix bytes = .ok m) ∧
    ∀ bytes e, (Codec.mk r l).decodePrefix bytes = .error e → ¬e.LimitsDecoding →
      (Codec.mk r l').decodePrefix bytes = .error e := by
  have hencode (i : Instance) : Except.Agrees CodecError.LimitsEncoding Eq
      ((Codec.mk r l).encode i) ((Codec.mk r l').encode i) :=
    encode_of_agrees (writeMessage_raised hdepth hlength i)
  have hdecode (bytes : List UInt8) : Except.Agrees CodecError.LimitsDecoding Eq
      ((Codec.mk r l).decodePrefix bytes) ((Codec.mk r l').decodePrefix bytes) :=
    (decodePrefix_of_agrees (readMessage_raised hdepth hlength)
      (fun _ _ hm => congrArg Prod.snd hm) bytes).imp fun _ _ hm => Prod.ext hm.2 hm.1.symm
  refine ⟨?_, fun i e he hlimit => (hencode i).of_error he hlimit, ?_,
    fun bytes e he hlimit => (hdecode bytes).of_error he hlimit⟩
  · intro i bytes hi
    obtain ⟨_, hi', rfl⟩ := (hencode i).of_ok hi
    exact hi'
  · intro bytes m hm
    obtain ⟨_, hm', rfl⟩ := (hdecode bytes).of_ok hm
    exact hm'

end

open TagWire.Localization (EntityType) in
/-- A user is found under the lowest limits that its tag allows, and so under the default ones; a
tag that is not registered is reported under both. -/
theorem limits_raised_user :
    let r : Registry := ⟨[EntityType.user.descriptor]⟩
    (Codec.mk r {}).decodePrefix [4, 0, 0, 0, 0x55, 0x73, 0x65, 0x72, 1, 0, 0, 0, 0x61, 7] =
      .ok (.entity (.user ⟨some "a"⟩), 13) ∧
    (Codec.mk r {}).decodePrefix [1, 0, 0, 0, 0x58] = .error (.unknownType "X") := by
  intro r
  have hdepth : (Limits.mk 1 4).maxDepth ≤ ({} : Limits).maxDepth := by decide
  have hlength : (Limits.mk 1 4).maxLength ≤ ({} : Limits).maxLength := by decide
  have hraised := limits_raised hdepth hlength r
  exact ⟨hraised.2.2.1 _ _ rfl, hraised.2.2.2 _ _ rfl nofun⟩

end Codec

end TagWire
