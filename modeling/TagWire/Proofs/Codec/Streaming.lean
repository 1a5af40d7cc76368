import TagWire.Codec.Decoder

/-!
# Decoding as streaming

A decoder never looks past the bytes it takes. `Read.Streams` says so of a reading computation: a
success is decided by the bytes taken alone, an error other than truncation by the bytes given, and
a truncation accounts for every byte given. Each primitive of `Read` streams, sequencing keeps the
property (`Read.Streams.bind`), and so the decoder streams, by induction on the levels it may enter
(`Codec.streams_readValue`). The main result says what this means for whole messages
(`Codec.decodePrefix_streams`).
-/

namespace TagWire

namespace Read

variable {α β : Type}

/-- A computation that succeeds hands its answer and its reader on. -/
theorem bind_of_ok {p : Read α} {f : α → Read β} {r r' : Reader} {a : α} (h : p r = .ok a r') :
    (p >>= f) r = f a r' := by
  simp only [bind, EStateM.bind, h]

/-- A computation that fails ends the whole. -/
theorem bind_of_error {p : Read α} {f : α → Read β} {r r' : Reader} {e : CodecError}
    (h : p r = .error e r') : (p >>= f) r = .error e r' := by
  simp only [bind, EStateM.bind, h]

/-- A success of two computations in a row is a success of each. -/
theorem bind_eq_ok {p : Read α} {f : α → Read β} {r r'' : Reader} {b : β} :
    (p >>= f) r = .ok b r'' ↔ ∃ a r', p r = .ok a r' ∧ f a r' = .ok b r'' := by
  refine ⟨?_, ?_⟩
  · intro h
    cases hp : p r with
    | ok a r' => exact ⟨a, r', rfl, by rwa [bind_of_ok hp] at h⟩
    | error e r' => rw [bind_of_error hp] at h; cases h
  · intro h
    obtain ⟨a, r', hp, hf⟩ := h
    rw [bind_of_ok hp, hf]

/-- A failure of two computations in a row is a failure of the first, or of the second behind a
success of the first. -/
theorem bind_eq_error {p : Read α} {f : α → Read β} {r r'' : Reader} {e : CodecError} :
    (p >>= f) r = .error e r'' ↔
      p r = .error e r'' ∨ ∃ a r', p r = .ok a r' ∧ f a r' = .error e r'' := by
  refine ⟨?_, ?_⟩
  · intro h
    cases hp : p r with
    | ok a r' => exact .inr ⟨a, r', rfl, by rwa [bind_of_ok hp] at h⟩
    | error e' r' => rw [bind_of_error hp] at h; cases h; exact .inl rfl
  · intro h
    rcases h with hp | ⟨a, r', hp, hf⟩
    · rw [bind_of_error hp]
    · rw [bind_of_ok hp, hf]

/-- A computation is decided by the bytes that it takes from the front. -/
structure Streams (p : Read α) : Prop where
  /-- A success takes some bytes, whatever follows them. -/
  ok {o : Nat} {bs : List UInt8} {a : α} {r : Reader} : p ⟨o, bs⟩ = .ok a r →
    ∃ taken, bs = taken ++ r.rest ∧ r.offset = o + taken.length ∧
      ∀ more, p ⟨o, taken ++ more⟩ = .ok a ⟨r.offset, more⟩
  /-- A truncation says where the bytes end and that more of them are needed. -/
  truncated {o : Nat} {bs : List UInt8} {e : CodecError} {r : Reader} : p ⟨o, bs⟩ = .error e r →
    e.isTruncation = true → ∃ offset needed remaining, e = .truncated offset needed remaining ∧
      offset + remaining = o + bs.length ∧ remaining < needed
  /-- Any other error stays, whatever follows. -/
  error {o : Nat} {bs : List UInt8} {e : CodecError} {r : Reader} : p ⟨o, bs⟩ = .error e r →
    e.isTruncation = false → ∀ more, ∃ r', p ⟨o, bs ++ more⟩ = .error e r'

namespace Streams

/-- Answering takes nothing. -/
theorem pure (a : α) : Streams (Pure.pure a : Read α) where
  ok h := by cases h; exact ⟨[], rfl, rfl, fun _ => rfl⟩
  truncated h := by cases h
  error h := by cases h

/-- Failing for another reason than missing bytes takes nothing. -/
theorem throw {e : CodecError} (he : e.isTruncation = false) :
    Streams (MonadExcept.throw e : Read α) where
  ok h := by cases h
  truncated h ht := by
    cases h
    rw [he] at ht
    cases ht
  error h _ more := by
    cases h
    exact ⟨_, rfl⟩

/-- One computation after the other. -/
theorem bind {p : Read α} {f : α → Read β} (hp : Streams p) (hf : ∀ a, Streams (f a)) :
    Streams (p >>= f) where
  ok h := by
    obtain ⟨a, ⟨o', bs'⟩, h₁, h₂⟩ := bind_eq_ok.1 h
    obtain ⟨taken₁, rfl, rfl, hmore₁⟩ := hp.ok h₁
    obtain ⟨taken₂, rfl, hoff, hmore₂⟩ := (hf a).ok h₂
    refine ⟨taken₁ ++ taken₂, by simp, by simp only [List.length_append]; omega, fun more => ?_⟩
    rw [List.append_assoc, bind_of_ok (hmore₁ _)]
    exact hmore₂ more
  truncated h ht := by
    rcases bind_eq_error.1 h with h₁ | ⟨a, ⟨o', bs'⟩, h₁, h₂⟩
    · exact hp.truncated h₁ ht
    · obtain ⟨taken, rfl, rfl, -⟩ := hp.ok h₁
      obtain ⟨offset, needed, remaining, he, hsum, hlt⟩ := (hf a).truncated h₂ ht
      exact ⟨offset, needed, remaining, he, by simp only [List.length_append] at hsum ⊢; omega, hlt⟩
  error h ht more := by
    rcases bind_eq_error.1 h with h₁ | ⟨a, ⟨o', bs'⟩, h₁, h₂⟩
    · obtain ⟨r', h'⟩ := hp.error h₁ ht more
      exact ⟨r', bind_of_error h'⟩
    · obtain ⟨taken, rfl, rfl, hmore⟩ := hp.ok h₁
      obtain ⟨r', h'⟩ := (hf a).error h₂ ht more
      refine ⟨r', ?_⟩
      rw [List.append_assoc, bind_of_ok (hmore _)]
      exact h'

end Streams

/-! ## Primitives -/

/-- Asking for the offset takes nothing. -/
theorem streams_offset : Streams offset where
  ok h := by cases h; exact ⟨[], rfl, rfl, fun _ => rfl⟩
  truncated h := by cases h
  error h := by cases h

/-- Enough bytes are taken. -/
theorem bytes_of_length_eq {o n : Nat} {taken : List UInt8} (h : taken.length = n)
    (more : List UInt8) : bytes n ⟨o, taken ++ more⟩ = .ok taken ⟨o + n, more⟩ := by
  subst h
  simp [bytes]

/-- Too few bytes are a truncation. -/
theorem bytes_of_length_lt {o n : Nat} {bs : List UInt8} (h : bs.length < n) :
    bytes n ⟨o, bs⟩ = .error (.truncated o n bs.length) ⟨o, bs⟩ := by
  have htake : bs.take n = bs := List.take_of_length_le (by omega)
  have hne : bs.length ≠ n := by omega
  simp only [bytes, htake, hne, if_false]

/-- Taking bytes, as a case distinction on how many there are. -/
theorem bytes_cases (n : Nat) (bs : List UInt8) :
    (∃ taken more, bs = taken ++ more ∧ taken.length = n) ∨ bs.length < n := by
  rcases Nat.lt_or_ge bs.length n with h | h
  · exact .inr h
  · exact .inl ⟨bs.take n, bs.drop n, (List.take_append_drop n bs).symm, List.length_take_of_le h⟩

/-- Taking bytes streams. -/
theorem streams_bytes (n : Nat) : Streams (bytes n) where
  ok {o bs a r} h := by
    rcases bytes_cases n bs with ⟨taken, more, rfl, hlen⟩ | hlt
    · rw [bytes_of_length_eq hlen] at h
      cases h
      exact ⟨_, rfl, by rw [hlen], bytes_of_length_eq hlen⟩
    · rw [bytes_of_length_lt hlt] at h
      cases h
  truncated {o bs e r} h _ := by
    rcases bytes_cases n bs with ⟨taken, more, rfl, hlen⟩ | hlt
    · rw [bytes_of_length_eq hlen] at h
      cases h
    · rw [bytes_of_length_lt hlt] at h
      cases h
      exact ⟨o, n, bs.length, rfl, rfl, hlt⟩
  error {o bs e r} h ht := by
    rcases bytes_cases n bs with ⟨taken, more, rfl, hlen⟩ | hlt
    · rw [bytes_of_length_eq hlen] at h
      cases h
    · rw [bytes_of_length_lt hlt] at h
      cases h
      cases ht

/-- Reading a word streams. -/
theorem streams_word (width : Nat) : Streams (word width) :=
  (streams_bytes width).bind fun _ => .pure _

/-- Reading a scalar streams. -/
theorem streams_scalar (k : ScalarKind) : Streams (scalar k) := by
  refine streams_offset.bind fun start => (streams_word _).bind fun n => ?_
  split
  · exact .pure _
  · exact .throw rfl

/-- Reading a length streams. -/
theorem streams_length (limit : UInt32) : Streams (length limit) := by
  refine streams_offset.bind fun start => (streams_word 4).bind fun n => ?_
  split
  · exact .pure _
  split
  · exact .throw rfl
  · exact .pure _

/-- Reading a text streams. -/
theorem streams_text (n : Nat) : Streams (text n) := by
  refine streams_offset.bind fun start => (streams_bytes n).bind fun bs => ?_
  split
  · exact .pure _
  · exact .throw rfl

end Read

namespace Codec

open Read (Streams)

/-! ## The decoder -/

variable (c : Codec)

/-- Reading a tag streams. -/
theorem streams_readTag : Streams c.readTag := by
  refine (Read.streams_length _).bind fun n? => ?_
  cases n? with
  | none => exact .pure _
  | some n => exact (Read.streams_text n).bind fun _ => .pure _

/-- Reading the tag of a message streams. -/
theorem streams_readRootTag : Streams c.readRootTag := by
  refine Read.streams_offset.bind fun start => c.streams_readTag.bind fun tag? => ?_
  cases tag? with
  | none => exact .throw rfl
  | some tag => exact .pure _

/-- Looking a tag up streams. -/
theorem streams_resolve (tag : String) : Streams (c.resolve tag) := by
  unfold resolve Registry.lookup
  cases c.registry.get? tag with
  | none => exact .throw rfl
  | some d => exact .pure d

variable {c}

/-- Reading fields streams if reading each of them does. -/
theorem streams_readFields {read : Field → Read Value} (h : ∀ f, Streams (read f)) (tag : String)
    (fs : List Field) (index : Nat) (i : Instance) : Streams (readFields read tag index fs i) := by
  induction fs generalizing index i with
  | nil => exact .pure i
  | cons f fs ih =>
    refine (h f).bind fun v => ?_
    cases i.setField index v with
    | ok i' => exact ih (index + 1) i'
    | error cause => exact .throw rfl

/-- Reading items streams if reading one of them does. -/
theorem streams_readItems {read : Read Value} (h : Streams read) (n : Nat) :
    Streams (readItems read n) := by
  induction n with
  | zero => exact .pure []
  | succ n ih => exact h.bind fun _ => ih.bind fun _ => .pure _

/-- Reading entries streams if reading a key and reading a value do. -/
theorem streams_readEntries {readKey readValue : Read Value} (hk : Streams readKey)
    (hv : Streams readValue) (n : Nat) : Streams (readEntries readKey readValue n) := by
  induction n with
  | zero => exact .pure []
  | succ n ih => exact hk.bind fun _ => hv.bind fun _ => ih.bind fun _ => .pure _

/-- Null streams. -/
theorem streams_readNull (tag owner : String) (f : Field) : Streams (readNull tag owner f) := by
  unfold readNull
  split
  · exact .pure _
  · exact .throw rfl

/-- Reading whether a scalar is present streams. -/
theorem streams_readPresence : Streams readPresence := by
  refine Read.streams_offset.bind fun start => (Read.streams_word 1).bind fun n => ?_
  split
  · exact .pure _
  split
  · exact .pure _
  · exact .throw rfl

/-- Reading the scalar of a field streams. -/
theorem streams_readScalar (f : Field) (k : ScalarKind) : Streams (readScalar f k) := by
  have hk : Streams (do return Value.scalar (← Read.scalar k)) :=
    (Read.streams_scalar k).bind fun _ => .pure _
  unfold readScalar
  split
  · refine streams_readPresence.bind fun present => ?_
    cases present with
    | false => exact .pure _
    | true => exact hk
  · exact hk

/-- Reading a variant streams. -/
theorem streams_readVariant (e : Enumeration) (start n : Nat) :
    Streams (readVariant e start n) := by
  refine (Read.streams_text n).bind fun variant => ?_
  split
  · exact .pure _
  · exact .throw rfl

/-- What is read only if a level is left streams if it does so with that level entered. -/
theorem streams_enter {α : Type} {levels : Nat} {p : Nat → Read α}
    (h : ∀ n < levels, Streams (p n)) :
    Streams (match levels with | 0 => throw c.tooDeep | n + 1 => p n) := by
  cases levels with
  | zero => exact .throw rfl
  | succ n => exact h n (Nat.lt_succ_self n)

/-- Reading a value streams, by induction on the levels that may still be entered. -/
theorem streams_readValue (levels : Nat) (tag owner : String) (f : Field) :
    Streams (c.readValue levels tag owner f) := by
  induction levels using Nat.strongRecOn generalizing tag owner f with
  | ind levels ih =>
  unfold readValue
  cases f.kind with
  | scalar k => exact streams_readScalar f k
  | string =>
    refine (Read.streams_length _).bind fun n? => ?_
    cases n? with
    | none => exact streams_readNull tag owner f
    | some n => exact (Read.streams_text n).bind fun _ => .pure _
  | bytes =>
    refine (Read.streams_length _).bind fun n? => ?_
    cases n? with
    | none => exact streams_readNull tag owner f
    | some n => exact (Read.streams_bytes n).bind fun _ => .pure _
  | enum e =>
    refine Read.streams_offset.bind fun start => (Read.streams_length _).bind fun n? => ?_
    cases n? with
    | none => exact streams_readNull tag owner f
    | some n => exact streams_readVariant e start n
  | nested declared =>
    refine c.streams_readTag.bind fun tag? => ?_
    cases tag? with
    | none => exact streams_readNull tag owner f
    | some found =>
      refine (c.streams_resolve found).bind fun d => ?_
      split
      · refine streams_enter fun n hn => ?_
        exact (streams_readFields (fun f => ih n hn d.tag f.name f) _ _ _ _).bind fun _ => .pure _
      · exact .throw rfl
  | list element =>
    refine (Read.streams_length _).bind fun n? => ?_
    cases n? with
    | none => exact streams_readNull tag owner f
    | some count =>
      refine streams_enter fun n hn => ?_
      exact (streams_readItems (ih n hn tag owner element) count).bind fun _ => .pure _
  | map key value =>
    refine (Read.streams_length _).bind fun n? => ?_
    cases n? with
    | none => exact streams_readNull tag owner f
    | some count =>
      refine streams_enter fun n hn => ?_
      exact (streams_readEntries (ih n hn tag owner key) (ih n hn tag owner value) count).bind
        fun _ => .pure _

variable (c)

/-- Reading a whole message streams. -/
theorem streams_readMessage : Streams c.readMessage := by
  refine c.streams_readRootTag.bind fun tag => (c.streams_resolve tag).bind fun d => ?_
  refine streams_enter fun levels _ => ?_
  exact (streams_readFields (fun f => streams_readValue levels d.tag f.name f) _ _ _ _).bind
    fun _ => .pure _

/-! ## Messages -/

/-- A message is found at the front of some bytes by a run that ends where it ends. -/
theorem decodePrefix_eq_ok {b : List UInt8} {i : Instance} {n : Nat} :
    c.decodePrefix b = .ok (i, n) ↔
      ∃ d r, c.readMessage (Reader.start b) = .ok (d, i) r ∧ r.offset = n := by
  unfold decodePrefix run
  cases c.readMessage (Reader.start b) with
  | ok m r =>
    refine ⟨?_, ?_⟩
    · intro h
      cases h
      exact ⟨m.1, r, rfl, rfl⟩
    · intro h
      obtain ⟨d, r', h, rfl⟩ := h
      cases h
      rfl
  | error e r =>
    refine ⟨?_, ?_⟩
    · intro h
      cases h
    · intro h
      obtain ⟨d, r', h, -⟩ := h
      cases h

/-- Bytes are a message if the run ends where they end. -/
theorem decode_eq_ok {b : List UInt8} {i : Instance} :
    c.decode b = .ok i ↔ ∃ d r, c.readMessage (Reader.start b) = .ok (d, i) r ∧ r.rest = [] := by
  unfold decode decodeWhole run
  cases c.readMessage (Reader.start b) with
  | ok m r =>
    obtain ⟨offset, rest⟩ := r
    cases rest with
    | nil =>
      refine ⟨?_, ?_⟩
      · intro h
        cases h
        exact ⟨m.1, _, rfl, rfl⟩
      · intro h
        obtain ⟨d, r', h, -⟩ := h
        cases h
        rfl
    | cons x rest =>
      refine ⟨?_, ?_⟩
      · intro h
        cases h
      · intro h
        obtain ⟨d, r', h, hrest⟩ := h
        cases h
        cases hrest
  | error e r =>
    refine ⟨?_, ?_⟩
    · intro h
      cases h
    · intro h
      obtain ⟨d, r', h, -⟩ := h
      cases h

/-- No message is found where the run fails. -/
theorem decodePrefix_eq_error {b : List UInt8} {e : CodecError} :
    c.decodePrefix b = .error e ↔ ∃ r, c.readMessage (Reader.start b) = .error e r := by
  unfold decodePrefix run
  cases c.readMessage (Reader.start b) with
  | ok m r =>
    refine ⟨?_, ?_⟩
    · intro h
      cases h
    · intro h
      obtain ⟨r', h⟩ := h
      cases h
  | error e' r =>
    refine ⟨?_, ?_⟩
    · intro h
      cases h
      exact ⟨r, rfl⟩
    · intro h
      obtain ⟨r', h⟩ := h
      cases h
      rfl

/-- Bytes without a message in front are no message, for the same reason. -/
theorem decode_of_decodePrefix_error {b : List UInt8} {e : CodecError}
    (h : c.decodePrefix b = .error e) : c.decode b = .error e := by
  obtain ⟨r, hr⟩ := c.decodePrefix_eq_error.1 h
  unfold decode decodeWhole run
  rw [hr]
  rfl

variable {c}

/-- A message is found by the bytes it takes, whatever follows them. -/
theorem decodePrefix_append {b : List UInt8} {i : Instance} {n : Nat}
    (h : c.decodePrefix b = .ok (i, n)) :
    n ≤ b.length ∧ ∀ s, c.decodePrefix (b.take n ++ s) = .ok (i, n) := by
  obtain ⟨d, r, hr, rfl⟩ := c.decodePrefix_eq_ok.1 h
  obtain ⟨taken, hb, hoff, hmore⟩ := c.streams_readMessage.ok hr
  rw [Nat.zero_add] at hoff
  subst hb
  have hle : r.offset ≤ (taken ++ r.rest).length := by simp [hoff]
  refine ⟨hle, ?_⟩
  intro s
  rw [hoff, List.take_left]
  exact c.decodePrefix_eq_ok.2 ⟨d, _, hmore s, hoff⟩

/-- An error other than truncation stays, whatever follows. -/
theorem decodePrefix_error_append {b : List UInt8} {e : CodecError}
    (h : c.decodePrefix b = .error e) (he : e.isTruncation = false) (s : List UInt8) :
    c.decodePrefix (b ++ s) = .error e := by
  obtain ⟨r, hr⟩ := c.decodePrefix_eq_error.1 h
  exact c.decodePrefix_eq_error.2 (c.streams_readMessage.error hr he s)

/-- A message that is cut short is reported as truncated. -/
theorem decodePrefix_take {b : List UInt8} {i : Instance} {n cut : Nat}
    (h : c.decodePrefix b = .ok (i, n)) (hcut : cut < n) :
    ∃ offset needed remaining,
      c.decodePrefix (b.take cut) = .error (.truncated offset needed remaining) ∧
      offset + remaining = cut ∧ remaining < needed := by
  have hle := (decodePrefix_append h).1
  have hlen : (b.take cut).length = cut := List.length_take_of_le (by omega)
  cases hp : c.decodePrefix (b.take cut) with
  | ok m =>
    -- The shorter bytes would hold a message that ends too early to be the one that is found.
    obtain ⟨j, m⟩ := m
    have ⟨hm, hmore⟩ := decodePrefix_append hp
    have hb : (b.take cut).take m ++ b.drop m = b := by
      rw [List.take_take, Nat.min_eq_left (by omega), List.take_append_drop]
    have := hmore (b.drop m)
    rw [hb, h] at this
    cases this
    omega
  | error e =>
    cases he : e.isTruncation with
    | false =>
      have := decodePrefix_error_append hp he (b.drop cut)
      rw [List.take_append_drop, h] at this
      cases this
    | true =>
      obtain ⟨r, hr⟩ := c.decodePrefix_eq_error.1 hp
      obtain ⟨offset, needed, remaining, rfl, hsum, hlt⟩ := c.streams_readMessage.truncated hr he
      exact ⟨offset, needed, remaining, rfl, by omega, hlt⟩

/-- Decoding depends on the bytes that a message takes, and on nothing behind them. A message found
in front of some bytes is found in front of any that start with the same message; cut short
anywhere, it is reported as truncated, with an account of every byte that is left. Any other failure
is decided by the bytes seen so far. -/
theorem decodePrefix_streams (c : Codec) (b : List UInt8) :
    (∀ i n, c.decodePrefix b = .ok (i, n) →
      n ≤ b.length ∧
      (∀ s, c.decodePrefix (b.take n ++ s) = .ok (i, n)) ∧
      ∀ cut < n, ∃ offset needed remaining,
        c.decode (b.take cut) = .error (.truncated offset needed remaining) ∧
        c.decodePrefix (b.take cut) = .error (.truncated offset needed remaining) ∧
        offset + remaining = cut ∧ remaining < needed) ∧
    ∀ e, c.decodePrefix b = .error e → e.isTruncation = false →
      ∀ s, c.decodePrefix (b ++ s) = .error e := by
  refine ⟨?_, ?_⟩
  · intro i n h
    obtain ⟨hle, hmore⟩ := decodePrefix_append h
    refine ⟨hle, hmore, ?_⟩
    intro cut hcut
    obtain ⟨offset, needed, remaining, hp, hsum, hlt⟩ := decodePrefix_take h hcut
    have hdecode := c.decode_of_decodePrefix_error hp
    exact ⟨offset, needed, remaining, hdecode, hp, hsum, hlt⟩
  · intro e h he s
    exact decodePrefix_error_append h he s

/-- The message of a fresh user is truncated when its last two bytes are missing. -/
theorem decodePrefix_streams_fresh_user : ∃ offset needed remaining,
    (Codec.mk (Registry.registerLocalization ∅).1 {}).decode
      [4, 0, 0, 0, 0x55, 0x73, 0x65, 0x72, 0xFF, 0xFF] =
        .error (.truncated offset needed remaining) ∧
      offset + remaining = 10 ∧ remaining < needed := by
  have h : (Codec.mk (Registry.registerLocalization ∅).1 {}).decodePrefix
      [4, 0, 0, 0, 0x55, 0x73, 0x65, 0x72, 0xFF, 0xFF, 0xFF, 0xFF, 7] =
        .ok (.entity (.user {}), 12) := rfl
  obtain ⟨offset, needed, remaining, hdecode, -, hsum, hlt⟩ :=
    ((decodePrefix_streams _ _).1 _ _ h).2.2 10 (by decide)
  exact ⟨offset, needed, remaining, hdecode, hsum, hlt⟩

end Codec

end TagWire
