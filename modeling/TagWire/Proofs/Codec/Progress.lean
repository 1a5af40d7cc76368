import TagWire.Proofs.Codec.Counting
import TagWire.Proofs.Codec.Position
import TagWire.Proofs.Codec.Sequence
import TagWire.Proofs.Json.Viewing

/-!
# Progress of decoding

Neither the counts in a message nor the nesting of its types bounds what a decoder does: a count may
be anything up to four thousand million, and a type may be nested in itself. The bytes do. Every
value takes at least one byte of its own before anything inside it is read: a scalar its bytes, all
else the length or the tag in front. So no more values are begun (`Codec.valuesBegun`) than there
are bytes, whether decoding succeeds or fails (`Codec.decoding_progresses`).

A computation is `Read.Paced` by a count if a success takes a byte for each value begun, and a
failure begins at most one value more than there are bytes. This is kept by sequencing, and a header
that takes a byte pays for one more value (`Read.Paced.behind`).
-/

namespace TagWire

namespace Read

variable {α β : Type}

/-! ## Moving on -/

/-- Whether a success moves the reader on. -/
def Advances (p : Read α) : Prop := ∀ r a r', p r = .ok a r' → r.offset < r'.offset

/-- A computation moves the reader on if the first part of it does. -/
theorem Advances.bind {p : Read α} {f : α → Read β} (hp : Advances p) (hf : ∀ a, Streams (f a)) :
    Advances (p >>= f) := by
  intro r b r'' h
  obtain ⟨a, r', h₁, h₂⟩ := bind_eq_ok.1 h
  obtain ⟨taken, -, hoff, -⟩ := (hf a).ok h₂
  have hlt := hp _ _ _ h₁
  omega

/-- A computation moves the reader on if the second part of it does. -/
theorem Advances.bind_right {p : Read α} {f : α → Read β} (hp : Streams p)
    (hf : ∀ a, Advances (f a)) : Advances (p >>= f) := by
  intro r b r'' h
  obtain ⟨a, r', h₁, h₂⟩ := bind_eq_ok.1 h
  obtain ⟨taken, -, hoff, -⟩ := hp.ok h₁
  have hlt := hf _ _ _ _ h₂
  omega

/-- Bytes that are taken are the next ones, and move the reader on by as many as there are. -/
theorem of_bytes_eq_ok {n : Nat} {bs : List UInt8} {r r' : Reader} (h : bytes n r = .ok bs r') :
    bs = r.rest.take n ∧ bs.length = n ∧ r'.offset = r.offset + n := by
  unfold bytes at h
  dsimp only at h
  split at h
  next hlength =>
    cases h
    exact ⟨rfl, hlength, rfl⟩
  next => cases h

/-- A word is that of the next bytes, and moves the reader on by its width. -/
theorem of_word_eq_ok {width n : Nat} {r r' : Reader} (h : word width r = .ok n r') :
    n = Word.ofBytes (r.rest.take width) ∧ r'.offset = r.offset + width := by
  obtain ⟨bs, r', hbs, h⟩ := bind_eq_ok.1 h
  cases h
  obtain ⟨rfl, -, hoff⟩ := of_bytes_eq_ok hbs
  exact ⟨rfl, hoff⟩

/-- A text that is not empty moves the reader on. -/
theorem offset_of_text {n : Nat} {s : String} {r r' : Reader} (h : text n r = .ok s r')
    (hs : s ≠ "") : r.offset < r'.offset := by
  obtain ⟨_, _, ⟨⟩, h⟩ := bind_eq_ok.1 h
  obtain ⟨bs, r₁, hbs, h⟩ := bind_eq_ok.1 h
  obtain ⟨-, hlength, hoff⟩ := of_bytes_eq_ok hbs
  cases hdecoded : Text.Utf8.toString? bs with
  | error fault =>
    rw [hdecoded] at h
    cases h
  | ok s' =>
    rw [hdecoded] at h
    cases h
    have hn : n ≠ 0 := by
      intro hn
      obtain rfl := List.eq_nil_of_length_eq_zero (hlength.trans hn)
      cases hdecoded
      exact hs rfl
    omega

/-- What takes some bytes moves the reader on. -/
theorem Takes.advances {p : Read α} {n : Nat} (hp : Takes p n) (hn : 0 < n) : Advances p := by
  intro r a r' h
  have hoff := hp.offset_of_ok h
  omega

/-- A word of some width moves the reader on. -/
theorem advances_word {width : Nat} (h : 0 < width) : Advances (word width) :=
  (takes_word width).advances h

/-- A length moves the reader on. -/
theorem advances_length (limit : UInt32) : Advances (length limit) :=
  (takes_length limit).advances (by decide)

/-- A scalar moves the reader on, as every kind has a width. -/
theorem advances_scalar (k : ScalarKind) : Advances (scalar k) :=
  (takes_scalar k).advances (by cases k <;> decide)

/-! ## Paying for values -/

/-- Whether the values that a computation begins are paid for by the bytes it takes. -/
structure Paced (p : Read α) (begun : Reader → Nat) : Prop extends Streams p where
  /-- A success takes at least a byte for each value. -/
  le_of_ok {r r' : Reader} {a : α} : p r = .ok a r' → begun r + r.offset ≤ r'.offset
  /-- A failure begins at most one value for which no byte is left. -/
  le_of_error {r r' : Reader} {e : CodecError} : p r = .error e r' → begun r ≤ r.remaining + 1

/-- A success accounts for every byte. -/
theorem Streams.offset_add_remaining {p : Read α} (hp : Streams p) {r r' : Reader} {a : α}
    (h : p r = .ok a r') : r'.offset + r'.remaining = r.offset + r.remaining := by
  obtain ⟨taken, hrest, hoff, -⟩ := hp.ok h
  simp only [Reader.remaining, hrest, hoff, List.length_append, Nat.add_assoc]

namespace Paced

/-- What begins no value is paced. -/
theorem none {p : Read α} (hp : Streams p) : Paced p fun _ => 0 where
  toStreams := hp
  le_of_ok h := by
    obtain ⟨taken, -, hoff, -⟩ := hp.ok h
    omega
  le_of_error _ := Nat.zero_le _

/-- One computation after the other. -/
theorem bind {p : Read α} {f : α → Read β} {begun : Reader → Nat} {begunF : α → Reader → Nat}
    (hp : Paced p begun) (hf : ∀ a, Paced (f a) (begunF a)) :
    Paced (p >>= f) fun r => begun r + begunAfter p begunF r where
  toStreams := hp.toStreams.bind fun a => (hf a).toStreams
  le_of_ok h := by
    obtain ⟨a, r', h₁, h₂⟩ := bind_eq_ok.1 h
    have hle₁ := hp.le_of_ok h₁
    have hle₂ := (hf a).le_of_ok h₂
    simp only [begunAfter, h₁]
    omega
  le_of_error h := by
    rcases bind_eq_error.1 h with h₁ | ⟨a, r', h₁, h₂⟩
    · simpa only [begunAfter, h₁, Nat.add_zero] using hp.le_of_error h₁
    · have hle₁ := hp.le_of_ok h₁
      have hle₂ := (hf a).le_of_error h₂
      have hsum := hp.offset_add_remaining h₁
      simp only [begunAfter, h₁]
      omega

/-- What begins no value before or behind something else does not count. -/
theorem bind_none {p : Read α} {f : α → Read β} {begun : Reader → Nat} (hp : Paced p begun)
    (hf : ∀ a, Streams (f a)) : Paced (p >>= f) begun := by
  have h := hp.bind fun a => none (hf a)
  have hbegun : (fun r => begun r + begunAfter p (fun _ _ => 0) r) = begun := by
    funext r
    unfold begunAfter
    cases p r <;> rfl
  rwa [hbegun] at h

/-- What begins no value in front does not count. -/
theorem none_bind {p : Read α} {f : α → Read β} {begun : α → Reader → Nat} (hp : Streams p)
    (hf : ∀ a, Paced (f a) (begun a)) : Paced (p >>= f) (begunAfter p begun) := by
  simpa only [Nat.zero_add] using (none hp).bind hf

/-- A value begins with a header that takes a byte. What is behind it begins values of its own. -/
theorem behind {p : Read α} {f : α → Read β} {begun : α → Reader → Nat} (hp : Streams p)
    (hadvances : Advances p) (hf : ∀ a, Paced (f a) (begun a)) :
    Paced (p >>= f) fun r => 1 + begunAfter p begun r where
  toStreams := hp.bind fun a => (hf a).toStreams
  le_of_ok h := by
    obtain ⟨a, r', h₁, h₂⟩ := bind_eq_ok.1 h
    have hlt := hadvances _ _ _ h₁
    have hle := (hf a).le_of_ok h₂
    simp only [begunAfter, h₁]
    omega
  le_of_error h := by
    rcases bind_eq_error.1 h with h₁ | ⟨a, r', h₁, h₂⟩
    · simp only [begunAfter, h₁]
      omega
    · have hlt := hadvances _ _ _ h₁
      have hle := (hf a).le_of_error h₂
      have hsum := hp.offset_add_remaining h₁
      simp only [begunAfter, h₁]
      omega

/-- A value that takes a byte and has none inside it. -/
theorem one {p : Read α} (hp : Streams p) (hadvances : Advances p) : Paced p fun _ => 1 where
  toStreams := hp
  le_of_ok h := by
    have hlt := hadvances _ _ _ h
    omega
  le_of_error _ := Nat.le_add_left ..

/-- A value with a header that takes a byte, and with none inside it. -/
theorem header {p : Read α} {f : α → Read β} (hp : Streams p) (hadvances : Advances p)
    (hf : ∀ a, Streams (f a)) : Paced (p >>= f) fun _ => 1 :=
  one (hp.bind hf) (hadvances.bind hf)

/-- One of two computations. -/
theorem ite {b : Prop} [Decidable b] {p q : Read α} {begunP begunQ : Reader → Nat}
    (hp : b → Paced p begunP) (hq : ¬b → Paced q begunQ) :
    Paced (if b then p else q) fun r => if b then begunP r else begunQ r := by
  split
  next hb => exact hp hb
  next hb => exact hq hb

/-- Whichever way it ends, a computation begins at most one value more than there are bytes. -/
theorem le_remaining {p : Read α} {begun : Reader → Nat} (hp : Paced p begun) (r : Reader) :
    begun r ≤ r.remaining + 1 := by
  cases h : p r with
  | error e r' => exact hp.le_of_error h
  | ok a r' =>
    have hle := hp.le_of_ok h
    have hsum := hp.offset_add_remaining h
    omega

end Paced

end Read

namespace Codec

open Read (Advances Paced Streams begunAfter)

/-! ## Values are paid for -/

variable {c : Codec}

/-- Fields are paid for if each of them is. -/
theorem paced_readFields {read : Field → Read Value} {begun : Field → Reader → Nat}
    (h : ∀ f, Paced (read f) (begun f)) (tag : String) (fs : List Field) (index : Nat)
    (i : Instance) :
    Paced (readFields read tag index fs i) (begunFields read begun index fs i) := by
  induction fs generalizing index i with
  | nil => exact .none (.pure i)
  | cons f fs ih =>
    refine (h f).bind fun v => ?_
    cases i.setField index v with
    | ok i' => exact ih (index + 1) i'
    | error cause => exact .none (.throw rfl)

/-- Items are paid for if one of them is. -/
theorem paced_readItems {read : Read Value} {begun : Reader → Nat} (h : Paced read begun)
    (n : Nat) : Paced (readItems read n) (begunItems read begun n) := by
  induction n with
  | zero => exact .none (.pure [])
  | succ n ih => exact h.bind fun v => ih.bind_none fun vs => .pure _

/-- Entries are paid for if a key and a value are. -/
theorem paced_readEntries {readKey readValue : Read Value} {begunKey begunValue : Reader → Nat}
    (hk : Paced readKey begunKey) (hv : Paced readValue begunValue) (n : Nat) :
    Paced (readEntries readKey readValue n)
      (begunEntries readKey readValue begunKey begunValue n) := by
  induction n with
  | zero => exact .none (.pure [])
  | succ n ih => exact hk.bind fun k => hv.bind fun v => ih.bind_none fun kvs => .pure _

variable (c)

/-- A tag moves the reader on, as its length does. -/
theorem advances_readTag : Advances c.readTag := by
  refine (Read.advances_length _).bind fun n? => ?_
  cases n? with
  | none => exact .pure _
  | some n => exact (Read.streams_text n).bind fun _ => .pure _

/-- A scalar moves the reader on, as its presence byte does if it has one. -/
theorem advances_readScalar (f : Field) (k : ScalarKind) : Advances (readScalar f k) := by
  have hpresence : Advances readPresence := by
    refine .bind_right Read.streams_offset fun start =>
      (Read.advances_word Nat.one_pos).bind fun n => ?_
    split
    · exact .pure _
    split
    · exact .pure _
    · exact .throw rfl
  have hk : Streams (do return Value.scalar (← Read.scalar k)) :=
    (Read.streams_scalar k).bind fun _ => .pure _
  unfold readScalar
  split
  · refine hpresence.bind fun present => ?_
    cases present with
    | false => exact .pure _
    | true => exact hk
  · exact (Read.advances_scalar k).bind fun _ => .pure _

variable {c}

/-- What is entered if a level is left is paid for if it is with that level entered. -/
theorem paced_enter {α : Type} {levels : Nat} {p : Nat → Read α} {begun : Nat → Reader → Nat} :
    (∀ n < levels, Paced (p n) (begun n)) →
      Paced (match levels with | 0 => throw c.tooDeep | n + 1 => p n)
        fun r => match levels with | 0 => 0 | n + 1 => begun n r := by
  intro h
  cases levels with
  | zero => exact .none (.throw rfl)
  | succ n => exact h n (Nat.lt_succ_self n)

/-- Every value is paid for with those inside it, by induction on the levels that may still be
entered: its header pays for itself, what is behind the header for what is inside. -/
theorem paced_readValue (levels : Nat) (tag owner : String) (f : Field) :
    Paced (c.readValue levels tag owner f) (c.begunValue levels tag owner f) := by
  induction levels using Nat.strongRecOn generalizing tag owner f with
  | ind levels ih =>
  unfold readValue begunValue
  cases f.kind with
  | scalar k => exact .one (streams_readScalar f k) (advances_readScalar f k)
  | string =>
    refine .header (Read.streams_length _) (Read.advances_length _) fun n? => ?_
    cases n? with
    | none => exact streams_readNull tag owner f
    | some n => exact (Read.streams_text n).bind fun _ => .pure _
  | bytes =>
    refine .header (Read.streams_length _) (Read.advances_length _) fun n? => ?_
    cases n? with
    | none => exact streams_readNull tag owner f
    | some n => exact (Read.streams_bytes n).bind fun _ => .pure _
  | enum e =>
    show Paced _ (begunAfter Read.offset fun _ _ => 1)
    refine .none_bind Read.streams_offset fun start =>
      .header (Read.streams_length _) (Read.advances_length _) fun n? => ?_
    cases n? with
    | none => exact streams_readNull tag owner f
    | some n => exact streams_readVariant e start n
  | nested declared =>
    refine .behind c.streams_readTag c.advances_readTag fun tag? => ?_
    cases tag? with
    | none => exact .none (streams_readNull tag owner f)
    | some found =>
      refine .none_bind (c.streams_resolve found) fun d => .ite (fun _ => ?_) fun _ =>
        .none (.throw rfl)
      refine paced_enter fun n hn => ?_
      exact (paced_readFields (fun f => ih n hn d.tag f.name f) _ _ _ _).bind_none fun _ => .pure _
  | list element =>
    refine .behind (Read.streams_length _) (Read.advances_length _) fun n? => ?_
    cases n? with
    | none => exact .none (streams_readNull tag owner f)
    | some count =>
      refine paced_enter fun n hn => ?_
      exact (paced_readItems (ih n hn tag owner element) count).bind_none fun _ => .pure _
  | map key value =>
    refine .behind (Read.streams_length _) (Read.advances_length _) fun n? => ?_
    cases n? with
    | none => exact .none (streams_readNull tag owner f)
    | some count =>
      refine paced_enter fun n hn => ?_
      exact (paced_readEntries (ih n hn tag owner key) (ih n hn tag owner value) count).bind_none
        fun _ => .pure _

/-! ## Messages -/

/-- A tag that is not empty takes five bytes. -/
theorem offset_of_readRootTag {tag : String} {r r' : Reader} (h : c.readRootTag r = .ok tag r')
    (htag : tag ≠ "") : r.offset + 5 ≤ r'.offset := by
  obtain ⟨_, _, ⟨⟩, h⟩ := Read.bind_eq_ok.1 h
  obtain ⟨tag?, r₁, h, hroot⟩ := Read.bind_eq_ok.1 h
  obtain ⟨n?, r₂, hlength, h⟩ := Read.bind_eq_ok.1 h
  have hoff := (Read.takes_length _).offset_of_ok hlength
  cases n? with
  | none =>
    cases h
    cases hroot
  | some n =>
    obtain ⟨s, r₃, htext, h⟩ := Read.bind_eq_ok.1 h
    cases h
    cases hroot
    have hlt := Read.offset_of_text htext htag
    omega

/-- What is read behind the tag of a message. -/
def readTagged (c : Codec) (tag : String) : Read (Descriptor × Instance) := do
  let d ← c.resolve tag
  match c.limits.maxDepth.toNat with
  | 0 => throw c.tooDeep
  | levels + 1 => return (d, ← readBody (fun f => c.readValue levels d.tag f.name f) d)

/-- A message is a tag and what is read behind it. -/
theorem readMessage_eq : c.readMessage = c.readRootTag >>= c.readTagged := rfl

/-- What is read behind a tag is paid for. -/
theorem paced_readTagged (c : Codec) (tag : String) :
    Paced (c.readTagged tag) (begunAfter (c.resolve tag) c.begunBody) := by
  refine .none_bind (c.streams_resolve tag) fun d => paced_enter fun levels _ => ?_
  exact (paced_readFields (fun f => paced_readValue levels d.tag f.name f) _ _ _ _).bind_none
    fun _ => .pure _

section
variable (h : c.registry.Built) {b : List UInt8}
include h

/-- The tag of a registered type takes five bytes in front of a message. -/
theorem offset_of_registered {tag : String} {d : Descriptor} {r : Reader}
    (hroot : c.readRootTag (Reader.start b) = .ok tag r) (hd : c.registry.get? tag = some d) :
    5 ≤ r.offset ∧ r.offset + r.remaining = b.length := by
  obtain ⟨hmem, rfl⟩ := Registry.mem_of_get? hd
  have hoff := offset_of_readRootTag hroot (h.tag_ne_empty hmem)
  have hsum := c.streams_readRootTag.offset_add_remaining hroot
  simp only [Reader.start, Reader.remaining, Nat.zero_add] at hoff hsum
  exact ⟨hoff, hsum⟩

/-- A message takes five bytes for its tag, and one for each value in it. -/
theorem valuesBegun_of_decodePrefix {i : Instance} {n : Nat} (hp : c.decodePrefix b = .ok (i, n)) :
    c.valuesBegun b + 5 ≤ n := by
  obtain ⟨d, r, hr, rfl⟩ := c.decodePrefix_eq_ok.1 hp
  obtain ⟨tag, r₁, hroot, hr⟩ := Read.bind_eq_ok.1 (readMessage_eq ▸ hr)
  obtain ⟨e, r₂, he, -⟩ := Read.bind_eq_ok.1 hr
  have hoff := (offset_of_registered h hroot (resolve_eq_ok.1 he).1).1
  have hle := (c.paced_readTagged tag).le_of_ok hr
  simp only [valuesBegun, begunAfter, hroot] at hle ⊢
  omega

/-- However decoding ends, no more values are begun than there are bytes. -/
theorem valuesBegun_le : c.valuesBegun b ≤ b.length := by
  rw [valuesBegun, begunAfter]
  cases hroot : c.readRootTag (Reader.start b) with
  | error e r => exact Nat.zero_le _
  | ok tag r =>
    have hle := (c.paced_readTagged tag).le_remaining r
    cases he : c.resolve tag r with
    | error e r' =>
      simp only [begunAfter, he]
      exact Nat.zero_le _
    | ok d r' =>
      obtain ⟨hoff, hsum⟩ := offset_of_registered h hroot (resolve_eq_ok.1 he).1
      dsimp only
      omega

/-- Messages one after the other take five bytes each. -/
theorem length_decodeAll {ms : List (Instance × Nat)} (hms : c.decodeAll b = .ok ms) :
    5 * ms.length ≤ b.length := by
  induction ms generalizing b with
  | nil => exact Nat.zero_le _
  | cons m ms ih =>
    rw [decodeAll] at hms
    split at hms
    next => cases hms
    split at hms
    next => cases hms
    next i n hp =>
      obtain ⟨ms', hrest, hms⟩ := Except.map_eq_ok.1 hms
      cases hms
      have hpay := valuesBegun_of_decodePrefix h hp
      have hle := (decodePrefix_append hp).1
      have hlength := ih hrest
      simp only [List.length_drop, List.length_cons] at hlength ⊢
      omega

end

/-- A decoder makes progress, whatever counts it meets and however its types are nested, in
themselves or in each other, and however far the limits let it go. A value that is read takes at
least a byte, and none that is not there. A message in front of some bytes takes at least five of
them, and at least as many as values have been begun for it, which are those in the instance that is
answered, at any depth. However decoding ends, no more values are begun than there are bytes, so it
ends; and so does decoding one message after the other, each of which takes five bytes more. -/
theorem decoding_progresses {r : Registry} (h : r.Built) (l : Limits) (b : List UInt8) :
    let c : Codec := ⟨r, l⟩
    (∀ levels tag owner f s v s', c.readValue levels tag owner f s = .ok v s' →
      s.offset < s'.offset ∧ s'.offset + s'.remaining = s.offset + s.remaining) ∧
    (∀ i n, c.decodePrefix b = .ok (i, n) → 5 ≤ n ∧ n ≤ b.length ∧ c.valuesBegun b ≤ n ∧
      (r.Native → c.valuesBegun b = i.valueCount)) ∧
    c.valuesBegun b ≤ b.length ∧
    (WellFounded fun rest bytes => ∃ i n, c.decodePrefix bytes = .ok (i, n) ∧
      rest = bytes.drop n) ∧
    ∀ ms, c.decodeAll b = .ok ms → 5 * ms.length ≤ b.length := by
  intro c
  refine ⟨?_, ?_, valuesBegun_le h, ?_, fun ms => length_decodeAll h⟩
  · intro levels tag owner f s v s' hread
    refine ⟨?_, (c.streams_readValue levels tag owner f).offset_add_remaining hread⟩
    have hone := c.begunValue_pos levels tag owner f s
    have hle := (paced_readValue levels tag owner f).le_of_ok hread
    omega
  · intro i n hp
    have hpay := valuesBegun_of_decodePrefix h hp
    have hle := (decodePrefix_append hp).1
    refine ⟨by omega, hle, by omega, fun hnative => ?_⟩
    exact valuesBegun_eq (c := c) (fun _ => hnative.length_prototype) hp
  · refine Subrelation.wf ?_ (measure List.length).wf
    intro rest bytes hrest
    obtain ⟨i, n, hp, rfl⟩ := hrest
    have hn := decodePrefix_pos hp
    have hle := (decodePrefix_append hp).1
    show (bytes.drop n).length < bytes.length
    rw [List.length_drop]
    omega

/-- A type of records that is nested in itself. -/
def link : Descriptor :=
  let fields : List Field := [⟨"next", .nested "Link", true⟩]
  ⟨"Link", none, fields, (Record.fresh ⟨"Link", fields⟩).toInstance⟩

/-- A link to a last link takes two tags and a null. In as many bytes there are no more than four
messages, whatever they are. -/
theorem decoding_progresses_link :
    let c : Codec := ⟨⟨[link]⟩, ⟨64, maxWireLength⟩⟩
    let bytes : List UInt8 := [4, 0, 0, 0, 0x4C, 0x69, 0x6E, 0x6B,
      4, 0, 0, 0, 0x4C, 0x69, 0x6E, 0x6B, 0xFF, 0xFF, 0xFF, 0xFF]
    (∃ i, c.decodePrefix bytes = .ok (i, 20) ∧ c.valuesBegun bytes = i.valueCount) ∧
      c.valuesBegun bytes ≤ 20 ∧ ∀ ms, c.decodeAll bytes = .ok ms → ms.length ≤ 4 := by
  intro c bytes
  have hbuilt : Registry.Built ⟨[link]⟩ := by
    simp only [Registry.Built, List.forall_mem_singleton]
    exact ⟨{ tag := "Link", fields := link.fields, source? := some .ownRecord }, rfl⟩
  have hnative : Registry.Native ⟨[link]⟩ := .records .empty (rfl : link.OfRecords) rfl
  obtain ⟨-, hprefix, -, -, hall⟩ := decoding_progresses hbuilt ⟨64, maxWireLength⟩ bytes
  have htaken : (c.decodePrefix bytes).map Prod.snd = .ok 20 := by decide +kernel
  obtain ⟨⟨i, _⟩, hdecoded, rfl⟩ := Except.map_eq_ok.1 htaken
  obtain ⟨-, -, hbegun, hcount⟩ := hprefix _ _ hdecoded
  refine ⟨⟨i, hdecoded, hcount hnative⟩, hbegun, fun ms hms => ?_⟩
  have hlength : 5 * ms.length ≤ 20 := hall ms hms
  omega

end Codec

end TagWire
