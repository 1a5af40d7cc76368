import TagWire.Proofs.Codec.Acceptance
import TagWire.Proofs.Codec.Failing
import TagWire.Proofs.Registry.Consistency

/-!
# Ways to decode

A message can be decoded as all of some bytes, as their front, or as an instance of a certain type,
and its tag can be looked at alone. All of these run the same reading computations, so they agree
(`Codec.decoders_agree`): which of them succeed on the same bytes, with what, and which error they
report if not. A type of the registry makes what it is looked up under, and reading its fields
changes neither the type nor the tag of the instance (`Codec.readFields_keeps`); so the tag in front
is the tag of the instance that is found.
-/

namespace TagWire

open TagWire.Localization (Entity EntityType)

/-! ## Setters keep what an instance is -/

/-- An entity stays of its type. -/
theorem Localization.Entity.type_of_setField {e e' : Entity} {index : Nat} {v : Value}
    (h : e.setField index v = .ok e') : e'.type = e.type := by
  cases e <;> (obtain ⟨_, -, rfl⟩ := Except.map_eq_ok.1 h; rfl)

/-- An instance stays of its type and keeps its tag. -/
theorem Instance.keeps_of_setField {i i' : Instance} {index : Nat} {v : Value}
    (h : i.setField index v = .ok i') : i'.type = i.type ∧ i'.ownTag? = i.ownTag? := by
  cases i with
  | record shape values =>
    obtain ⟨_, -, rfl⟩ := Except.map_eq_ok.1 h
    exact ⟨rfl, rfl⟩
  | entity e =>
    obtain ⟨_, he, rfl⟩ := Except.map_eq_ok.1 h
    exact ⟨congrArg InstanceType.entity (Entity.type_of_setField he), rfl⟩

namespace Codec

/-- An instance stays of its type and keeps its tag while its fields are read, by induction on the
fields. -/
theorem readFields_keeps {read : Field → Read Value} {tag : String} {fs : List Field} {index : Nat}
    {i j : Instance} {r r' : Reader} (h : readFields read tag index fs i r = .ok j r') :
    j.type = i.type ∧ j.ownTag? = i.ownTag? := by
  induction fs generalizing index i r with
  | nil => cases h; exact ⟨rfl, rfl⟩
  | cons f fs ih =>
    obtain ⟨v, r₁, -, h⟩ := Read.bind_eq_ok.1 h
    cases hset : i.setField index v with
    | error cause => rw [hset] at h; cases h
    | ok i' =>
      rw [hset] at h
      obtain ⟨htype, htag⟩ := ih h
      obtain ⟨htype', htag'⟩ := Instance.keeps_of_setField hset
      exact ⟨htype.trans htype', htag.trans htag'⟩

variable (c : Codec) (b : List UInt8)

/-! ## Tags -/

variable {c b} in
/-- The tag in front is the one that a message is read with. -/
theorem peekTag_eq_ok {tag : String} :
    c.peekTag b = .ok tag ↔ ∃ r, c.readRootTag (Reader.start b) = .ok tag r := by
  unfold peekTag run
  cases c.readRootTag (Reader.start b) <;> simp [Bind.bind, Except.bind, pure, Except.pure]

variable {c b} in
/-- No tag is found in front where reading a message fails at its tag. -/
theorem peekTag_eq_error {e : CodecError} :
    c.peekTag b = .error e ↔ ∃ r, c.readRootTag (Reader.start b) = .error e r := by
  unfold peekTag run
  cases c.readRootTag (Reader.start b) <;> simp [Bind.bind, Except.bind, pure, Except.pure]

variable {c b} in
/-- Reading a message fails where reading its tag does. -/
theorem decodePrefix_of_peekTag_error {e : CodecError} (h : c.peekTag b = .error e) :
    c.decodePrefix b = .error e := by
  obtain ⟨r, hr⟩ := peekTag_eq_error.1 h
  exact c.decodePrefix_eq_error.2 ⟨r, Read.bind_of_error hr⟩

variable {c b} in
/-- Reading a message fails at a tag that is not registered. -/
theorem decodePrefix_of_unknown {tag : String} (h : c.peekTag b = .ok tag)
    (htag : c.registry.contains tag = false) :
    c.decodePrefix b = .error (.unknownType tag) := by
  obtain ⟨r, hr⟩ := peekTag_eq_ok.1 h
  have hget : c.registry.get? tag = none := by simpa [Registry.contains] using htag
  have hresolve : c.resolve tag r = .error (.unknownType tag) r := by
    unfold resolve Registry.lookup
    rw [hget]
    rfl
  refine c.decodePrefix_eq_error.2 ⟨r, ?_⟩
  unfold readMessage
  rw [Read.bind_of_ok hr, Read.bind_of_error hresolve]

variable {c b} in
/-- A tag is found by its own bytes, whatever follows them. -/
theorem peekTag_append {tag : String} (h : c.peekTag b = .ok tag) :
    ∃ rest, b = Wire.text tag ++ rest ∧ ∀ more, c.peekTag (Wire.text tag ++ more) = .ok tag := by
  have hspells := spells_readRootTag c.maxLength_capped_le
  rw [readRootTag_capped] at hspells
  obtain ⟨r, hr⟩ := peekTag_eq_ok.1 h
  obtain ⟨_, ⟨hlength, rfl⟩, hb, -⟩ := (hspells _ _ _ _).1 hr
  refine ⟨r.rest, hb, fun more => peekTag_eq_ok.2 ⟨⟨(Wire.text tag).length, more⟩, ?_⟩⟩
  exact (hspells _ _ _ _).2 ⟨_, ⟨hlength, rfl⟩, rfl, (Nat.zero_add _).symm⟩

variable {c b} in
/-- The type that a message is read with is registered under the tag in front, and makes instances
like the one that is read. -/
theorem readMessage_eq_ok {d : Descriptor} {i : Instance} {r : Reader}
    (h : c.readMessage (Reader.start b) = .ok (d, i) r) :
    c.peekTag b = .ok d.tag ∧ d ∈ c.registry.types ∧
      i.type = d.prototype.type ∧ i.ownTag? = d.prototype.ownTag? := by
  unfold readMessage at h
  obtain ⟨tag, r₁, htag, hresolve⟩ := Read.bind_eq_ok.1 h
  obtain ⟨d', r₂, hd, henter⟩ := Read.bind_eq_ok.1 hresolve
  unfold resolve Registry.lookup at hd
  cases hget : c.registry.get? tag with
  | none => rw [hget] at hd; cases hd
  | some d'' =>
    rw [hget] at hd
    cases hd
    obtain ⟨hmem, rfl⟩ := Registry.mem_of_get? hget
    cases hlevels : c.limits.maxDepth.toNat with
    | zero => rw [hlevels] at henter; cases henter
    | succ levels =>
      rw [hlevels] at henter
      obtain ⟨j, r₃, hbody, hanswer⟩ := Read.bind_eq_ok.1 henter
      cases hanswer
      exact ⟨peekTag_eq_ok.2 ⟨r₁, htag⟩, hmem, readFields_keeps hbody⟩

/-! ## Whole messages -/

section
variable {c b}

/-- A message in front of some bytes is not found for a reason that reading has. -/
theorem ofReading_of_decodePrefix {e : CodecError} (h : c.decodePrefix b = .error e) :
    e.OfReading := by
  obtain ⟨r, hr⟩ := c.decodePrefix_eq_error.1 h
  exact c.fails_readMessage _ _ _ hr

/-- Bytes are a message if there is one in front of them and it ends where they end. -/
theorem decode_of_decodePrefix {i : Instance} {n : Nat} (h : c.decodePrefix b = .ok (i, n)) :
    c.decode b = if n = b.length then .ok i else .error (.trailingBytes (b.length - n)) := by
  obtain ⟨d, ⟨n, rest⟩, hr, rfl⟩ := c.decodePrefix_eq_ok.1 h
  obtain ⟨taken, rfl, hoffset, -⟩ := c.streams_readMessage.ok hr
  obtain rfl : n = taken.length := by simpa using hoffset
  unfold decode decodeWhole run
  rw [hr]
  cases rest with
  | nil => simp [Reader.isAtEnd, Bind.bind, Except.bind, pure, Except.pure]
  | cons x rest =>
    simp [Reader.isAtEnd, Reader.remaining, Bind.bind, Except.bind, throw, throwThe,
      MonadExceptOf.throw]

/-- Bytes are a message exactly if the message in front of them takes all of them. -/
theorem decode_eq_ok_iff {i : Instance} :
    c.decode b = .ok i ↔ c.decodePrefix b = .ok (i, b.length) := by
  cases hp : c.decodePrefix b with
  | error e => simp [c.decode_of_decodePrefix_error hp]
  | ok m =>
    rw [decode_of_decodePrefix hp]
    by_cases hn : m.2 = b.length
    · simp [hn, Prod.ext_iff]
    · simp [hn, Prod.ext_iff]

/-- Bytes behind the message are reported exactly if the message in front leaves them. -/
theorem decode_eq_trailing_iff {remaining : Nat} :
    c.decode b = .error (.trailingBytes remaining) ↔
      ∃ i n, c.decodePrefix b = .ok (i, n) ∧ n < b.length ∧ remaining = b.length - n := by
  cases hp : c.decodePrefix b with
  | error e =>
    rw [c.decode_of_decodePrefix_error hp]
    refine ⟨fun h => ?_, fun h => ?_⟩
    · cases h
      cases ofReading_of_decodePrefix hp
    · obtain ⟨_, _, h, -⟩ := h
      cases h
  | ok m =>
    obtain ⟨i, n⟩ := m
    have hle := (decodePrefix_append hp).1
    rw [decode_of_decodePrefix hp]
    by_cases hn : n = b.length
    · simp [hn]
    · simp [hn, Nat.lt_of_le_of_ne hle hn, eq_comm]

/-- Any other error is that of the message in front. -/
theorem decodePrefix_eq_error_iff {e : CodecError} : c.decodePrefix b = .error e ↔
    c.decode b = .error e ∧ ∀ remaining, e ≠ .trailingBytes remaining := by
  refine ⟨fun hp => ⟨c.decode_of_decodePrefix_error hp, ?_⟩, ?_⟩
  · rintro _ rfl
    cases ofReading_of_decodePrefix hp
  · intro h
    obtain ⟨hdecode, htrailing⟩ := h
    cases hp : c.decodePrefix b with
    | error e' =>
      rw [c.decode_of_decodePrefix_error hp] at hdecode
      cases hdecode
      rfl
    | ok m =>
      rw [decode_of_decodePrefix hp] at hdecode
      split at hdecode
      · cases hdecode
      · cases hdecode
        exact absurd rfl (htrailing _)

/-- Bytes are no message for a reason that reading has, or because some are left. -/
theorem ne_unexpectedType_of_decode {e : CodecError} (h : c.decode b = .error e)
    (expected found : String) : e ≠ .unexpectedType expected found := by
  rintro rfl
  cases ofReading_of_decodePrefix (decodePrefix_eq_error_iff.2 ⟨h, nofun⟩)

end

/-! ## Messages of a type -/

/-- An instance is decoded as one of a type if it is decoded and is of that type. -/
theorem decodeAs_eq (t : InstanceType) : c.decodeAs t b =
    (do
      let i ← c.decode b
      let tag ← c.peekTag b
      if i.type = t then return i else throw (.unexpectedType t.fullName tag)) := by
  unfold decodeAs decode
  cases hw : c.decodeWhole b with
  | error e => rfl
  | ok m =>
    obtain ⟨d, i⟩ := m
    have hpeek : c.peekTag b = .ok d.tag := by
      unfold decodeWhole run at hw
      cases hr : c.readMessage (Reader.start b) with
      | error e r => rw [hr] at hw; cases hw
      | ok m r =>
        obtain rfl : m = (d, i) := by
          rw [hr] at hw
          simp only [Bind.bind, Except.bind] at hw
          split at hw
          · cases hw; rfl
          · cases hw
        exact (readMessage_eq_ok hr).1
    rw [hpeek]
    rfl

section
variable {c b}

/-- A message has a tag in front. -/
theorem exists_peekTag_of_decode {i : Instance} (h : c.decode b = .ok i) :
    ∃ tag, c.peekTag b = .ok tag := by
  obtain ⟨_, _, hr, -⟩ := c.decode_eq_ok.1 h
  exact ⟨_, (readMessage_eq_ok hr).1⟩

/-- An instance is decoded as one of a type exactly if it is decoded and of the type. -/
theorem decodeAs_eq_ok_iff {t : InstanceType} {i : Instance} :
    c.decodeAs t b = .ok i ↔ c.decode b = .ok i ∧ i.type = t := by
  rw [decodeAs_eq]
  cases hd : c.decode b with
  | error e => simp [Bind.bind, Except.bind]
  | ok j =>
    obtain ⟨tag, htag⟩ := exists_peekTag_of_decode hd
    rw [htag]
    by_cases ht : j.type = t
    · simp only [Bind.bind, Except.bind, if_pos ht, pure, Except.pure, Except.ok.injEq]
      exact ⟨fun h => ⟨h, h ▸ ht⟩, And.left⟩
    · simp only [Bind.bind, Except.bind, if_neg ht, throw, throwThe, MonadExceptOf.throw,
        reduceCtorEq, Except.ok.injEq, false_iff]
      rintro ⟨rfl, h⟩
      exact ht h

/-- The tag in front is reported exactly if the instance is decoded and of another type. -/
theorem decodeAs_eq_unexpectedType_iff {t : InstanceType} {expected found : String} :
    c.decodeAs t b = .error (.unexpectedType expected found) ↔
      expected = t.fullName ∧ c.peekTag b = .ok found ∧
        ∃ i, c.decode b = .ok i ∧ i.type ≠ t := by
  rw [decodeAs_eq]
  cases hd : c.decode b with
  | error e =>
    have := ne_unexpectedType_of_decode hd expected found
    simpa [Bind.bind, Except.bind] using this
  | ok j =>
    obtain ⟨tag, htag⟩ := exists_peekTag_of_decode hd
    rw [htag]
    by_cases ht : j.type = t
    · simp [Bind.bind, Except.bind, ht, pure, Except.pure]
    · simp [Bind.bind, Except.bind, ht, throw, throwThe, MonadExceptOf.throw,
        eq_comm (a := t.fullName), eq_comm (a := tag)]

/-- Any other error is that of decoding. -/
theorem decode_eq_error_iff {t : InstanceType} {e : CodecError} : c.decode b = .error e ↔
    c.decodeAs t b = .error e ∧ ∀ expected found, e ≠ .unexpectedType expected found := by
  refine ⟨fun hd => ⟨?_, ne_unexpectedType_of_decode hd⟩, ?_⟩
  · rw [decodeAs_eq, hd]
    rfl
  · intro h
    obtain ⟨has, hother⟩ := h
    rw [decodeAs_eq] at has
    cases hd : c.decode b with
    | error e' => rwa [hd] at has
    | ok j =>
      obtain ⟨tag, htag⟩ := exists_peekTag_of_decode hd
      rw [hd, htag] at has
      simp only [Bind.bind, Except.bind] at has
      split at has
      · cases has
      · cases has
        exact absurd rfl (hother _ _)

end

/-! ## All of them -/

/-- The ways to decode agree, whatever has been registered, under any limits. Bytes are a message
exactly if a message in front of them takes all of them; if it takes less, the rest is reported; any
other error is that of the message in front. An instance is decoded as one of a type exactly if it
is decoded and is of the type; if it is of another, the tag in front is reported; any other error is
that of decoding it. Where the tag in front cannot be read or is not registered, that is what
decoding reports, in the second case whatever follows the tag. The tag in front of a message is that
of the type under which its instance is looked up. -/
theorem decoders_agree {r : Registry} {tables : Registry.Tables} (h : r.Reachable tables)
    (l : Limits) (b : List UInt8) :
    let c : Codec := ⟨r, l⟩
    (∀ i, c.decode b = .ok i ↔ c.decodePrefix b = .ok (i, b.length)) ∧
    (∀ remaining, c.decode b = .error (.trailingBytes remaining) ↔
      ∃ i n, c.decodePrefix b = .ok (i, n) ∧ n < b.length ∧ remaining = b.length - n) ∧
    (∀ e, c.decodePrefix b = .error e ↔
      c.decode b = .error e ∧ ∀ remaining, e ≠ .trailingBytes remaining) ∧
    (∀ t i, c.decodeAs t b = .ok i ↔ c.decode b = .ok i ∧ i.type = t) ∧
    (∀ t expected found, c.decodeAs t b = .error (.unexpectedType expected found) ↔
      expected = t.fullName ∧ c.peekTag b = .ok found ∧ ∃ i, c.decode b = .ok i ∧ i.type ≠ t) ∧
    (∀ t e, c.decode b = .error e ↔
      c.decodeAs t b = .error e ∧ ∀ expected found, e ≠ .unexpectedType expected found) ∧
    (∀ e, c.peekTag b = .error e → c.decode b = .error e) ∧
    (∀ tag, c.peekTag b = .ok tag → r.contains tag = false →
      ∃ rest, b = Wire.text tag ++ rest ∧
        ∀ more, c.decode (Wire.text tag ++ more) = .error (.unknownType tag)) ∧
    ∀ i n, c.decodePrefix b = .ok (i, n) →
      ∃ d, r.lookupInstance i = .ok d ∧ c.peekTag b = .ok d.tag := by
  intro c
  refine ⟨fun _ => decode_eq_ok_iff, fun _ => decode_eq_trailing_iff,
    fun _ => decodePrefix_eq_error_iff, fun _ _ => decodeAs_eq_ok_iff,
    fun _ _ _ => decodeAs_eq_unexpectedType_iff, fun _ _ => decode_eq_error_iff, ?_, ?_, ?_⟩
  · intro e hpeek
    exact c.decode_of_decodePrefix_error (decodePrefix_of_peekTag_error hpeek)
  · intro tag hpeek htag
    obtain ⟨rest, hb, hmore⟩ := peekTag_append hpeek
    exact ⟨rest, hb, fun more =>
      c.decode_of_decodePrefix_error (decodePrefix_of_unknown (hmore more) htag)⟩
  · intro i n hp
    obtain ⟨d, _, hr, -⟩ := c.decodePrefix_eq_ok.1 hp
    obtain ⟨hpeek, hmem, htype, htag⟩ := readMessage_eq_ok hr
    exact ⟨d, h.sound.1.lookupInstance_of_prototype hmem htype htag, hpeek⟩

/-- The message of a fresh user is no message of a context, which its tag tells. With a byte behind
it, it is no message at all. -/
theorem decoders_agree_user :
    let c : Codec := ⟨(Registry.registerAll ∅ [EntityType.user.descriptor]).1, {}⟩
    c.decodeAs (.entity .context)
      [4, 0, 0, 0, 0x55, 0x73, 0x65, 0x72, 0xFF, 0xFF, 0xFF, 0xFF] =
        .error (.unexpectedType "dynserial::localization::LocalizationContext" "User") ∧
    c.decode [4, 0, 0, 0, 0x55, 0x73, 0x65, 0x72, 0xFF, 0xFF, 0xFF, 0xFF, 7] =
      .error (.trailingBytes 1) := by
  have hreach := Registry.Reachable.empty.call EntityType.user.descriptor
  have hmessage := decoders_agree hreach {}
    [4, 0, 0, 0, 0x55, 0x73, 0x65, 0x72, 0xFF, 0xFF, 0xFF, 0xFF]
  have htrailing := decoders_agree hreach {}
    [4, 0, 0, 0, 0x55, 0x73, 0x65, 0x72, 0xFF, 0xFF, 0xFF, 0xFF, 7]
  refine ⟨(hmessage.2.2.2.2.1 _ _ _).2 ⟨rfl, rfl, .entity (.user {}), rfl, nofun⟩, ?_⟩
  exact (htrailing.2.1 _).2 ⟨.entity (.user {}), 12, rfl, by decide, rfl⟩

end Codec

end TagWire
