import TagWire.Proofs.Codec.EntryPoints
import TagWire.Proofs.Codec.Position
import TagWire.Proofs.Codec.Progress
import TagWire.Proofs.Registry.Validity

/-!
# What errors say is true

An error of decoding names places, lengths, types and fields. `CodecError.TrueOf` says what each of
them claims about the bytes and the registry, and `Codec.errors_are_true` that it is so. The offsets
are taken at different moments, in front of a length, behind it or in front of a whole item, and the
names are handed down to elements of lists and maps; so a computation is followed from a reader that
stands in the bytes (`Reader.In`), and a value is read for a field that its owner contains
(`Codec.Owns`).
-/

namespace TagWire

/-! ## Errors -/

/-- Whether a field is another one, or describes the elements, keys or values of it, at any depth.
-/
inductive Field.Contains (g : Field) : Field → Prop
  | self : Contains g g
  | element {f element : Field} : Contains g f → f.kind = .list element → Contains g element
  | key {f key value : Field} : Contains g f → f.kind = .map key value → Contains g key
  | value {f key value : Field} : Contains g f → f.kind = .map key value → Contains g value

/-- What stands in a field that is contained stands in the whole. -/
theorem Field.Contains.mentions {f g : Field} (h : g.Contains f) {tag : String}
    (htag : f.kind.Mentions tag) : g.kind.Mentions tag := by
  induction h with
  | self => exact htag
  | element _ hkind ih => exact ih (hkind ▸ .list htag)
  | key _ hkind ih => exact ih (hkind ▸ .key htag)
  | value _ hkind ih => exact ih (hkind ▸ .value htag)

namespace Codec

/-- Whether a field is contained in one of a name that a registered type has. -/
def Owns (c : Codec) (tag owner : String) (f : Field) : Prop :=
  ∃ d g, c.registry.get? tag = some d ∧ g ∈ d.fields ∧ g.name = owner ∧ g.Contains f

/-- Whether an error is reported for some bytes, by one of the ways to decode them. -/
def Refuses (c : Codec) (b : List UInt8) (e : CodecError) : Prop :=
  c.decode b = .error e ∨ c.decodePrefix b = .error e ∨ (∃ t, c.decodeAs t b = .error e) ∨
    c.peekTag b = .error e

end Codec

/-- Whether what an error says is true of some bytes and the codec that they are decoded with. -/
def CodecError.TrueOf (c : Codec) (b : List UInt8) : CodecError → Prop
  | .truncated offset needed remaining => offset + remaining = b.length ∧ remaining < needed
  | .malformedLength offset length limit =>
    offset + 4 ≤ b.length ∧ Word.ofBytes ((b.drop offset).take 4) = length ∧
      length ≠ nullLength.toNat ∧ limit = c.limits.maxLength.toNat ∧ limit < length
  | .invalidData offset _ => offset < b.length
  | .unknownType tag => c.registry.contains tag = false ∧ Wire.text tag <:+: b
  | .depthExceeded limit => limit = c.limits.maxDepth.toNat
  | .notAssignable tag field declared found =>
    c.registry.contains found = true ∧ c.registry.isAssignable found declared = false ∧
      ∃ d g, c.registry.get? tag = some d ∧ g ∈ d.fields ∧ g.name = field ∧
        g.kind.Mentions declared
  | .unexpectedNull tag field => ∃ f, c.Owns tag field f ∧ f.nullable = false
  | .refusedField tag field _ => ∃ f, c.Owns tag field f
  | .trailingBytes remaining =>
    0 < remaining ∧ ∃ i n, c.decodePrefix b = .ok (i, n) ∧ n + remaining = b.length
  | .unexpectedType expected found =>
    ∃ t i, expected = InstanceType.fullName t ∧ c.peekTag b = .ok found ∧ c.decode b = .ok i ∧
      i.type ≠ t
  | .unregisteredInstance _ | .encoding _ => False

/-- An error that says something true of bytes lets a caller carry on. -/
theorem CodecError.TrueOf.isRecoverable {c : Codec} {b : List UInt8} {e : CodecError}
    (h : e.TrueOf c b) : e.isRecoverable = true := by
  cases e with
  | unregisteredInstance | encoding => cases h
  | _ => rfl

/-! ## Readers in some bytes -/

namespace Read

variable {α β : Type} {b : List UInt8} {S T : Reader → Prop} {P : CodecError → Reader → Prop}

/-- A computation that streams leaves its reader in the bytes that it has been in. -/
theorem Streams.in {p : Read α} (hp : Streams p) {r r' : Reader} {a : α} (hr : r.In b)
    (h : p r = .ok a r') : r'.In b := by
  obtain ⟨taken, rfl, hoff⟩ := hr
  obtain ⟨more, hrest, hoff', -⟩ := hp.ok h
  refine ⟨taken ++ more, by rw [hrest, List.append_assoc], ?_⟩
  rw [hoff', hoff, List.length_append]

/-- Whether every error of a computation that starts at one of some readers has a property, together
with the reader that it leaves behind. -/
def Reports (S : Reader → Prop) (P : CodecError → Reader → Prop) (p : Read α) : Prop :=
  ∀ r, S r → ∀ e r', p r = .error e r' → P e r'

namespace Reports

/-- Answering reports nothing. -/
theorem pure (a : α) : Reports S P (Pure.pure a : Read α) := nofun

/-- Failing reports the error. -/
theorem throw {e : CodecError} (he : ∀ r, S r → P e r) :
    Reports S P (MonadExcept.throw e : Read α) := by
  intro r hr e' r' h
  cases h
  exact he r hr

/-- Fewer readers to start at. -/
theorem mono {p : Read α} (h : Reports S P p) (hTS : ∀ r, T r → S r) : Reports T P p :=
  fun r hr => h r (hTS r hr)

/-- One computation after the other, which starts where the first has answered. -/
theorem bind {p : Read α} {f : α → Read β} (hp : Reports S P p)
    (hf : ∀ a, Reports (fun r' => ∃ r, S r ∧ p r = .ok a r') P (f a)) :
    Reports S P (p >>= f) := by
  intro r hr e r'' h
  rcases bind_eq_error.1 h with h₁ | ⟨a, r', h₁, h₂⟩
  · exact hp r hr e r'' h₁
  · exact hf a r' ⟨r, hr, h₁⟩ e r'' h₂

/-- One computation after the other, anywhere in some bytes. The second is looked at only behind an
answer of the first. -/
theorem bindOf {p : Read α} {f : α → Read β} (hs : Streams p) (hp : Reports (·.In b) P p)
    (hf : ∀ a, (∃ r r', r.In b ∧ p r = .ok a r') → Reports (·.In b) P (f a)) :
    Reports (·.In b) P (p >>= f) := by
  refine hp.bind fun a r' h => ?_
  obtain ⟨r, hr, h⟩ := h
  exact hf a ⟨r, r', hr, h⟩ r' (hs.in hr h)

/-- One computation after the other, anywhere in some bytes. -/
theorem bindIn {p : Read α} {f : α → Read β} (hs : Streams p) (hp : Reports (·.In b) P p)
    (hf : ∀ a, Reports (·.In b) P (f a)) : Reports (·.In b) P (p >>= f) :=
  bindOf hs hp fun a _ => hf a

/-- What is behind the offset knows where it starts. -/
theorem afterOffset {f : Nat → Read α} (h : ∀ r, S r → Reports (· = r) P (f r.offset)) :
    Reports S P (offset >>= f) := by
  intro r hr e r' hf
  exact h r hr r rfl e r' hf

/-- One of two computations. -/
theorem ite {q : Prop} [Decidable q] {p p' : Read α} (hp : q → Reports S P p)
    (hp' : ¬q → Reports S P p') : Reports S P (if q then p else p') := by
  split
  next hq => exact hp hq
  next hq => exact hp' hq

/-- What is behind an item that takes bytes knows that it has started in front of the end. -/
theorem behindStart {p : Read α} {f : Nat → α → Read β} (hs : Streams p) (hadvances : Advances p)
    (hp : Reports (·.In b) P p) (hf : ∀ start < b.length, ∀ a, Reports (·.In b) P (f start a)) :
    Reports (·.In b) P (do f (← offset) (← p)) := by
  refine .afterOffset fun r hr => .bind (hp.mono fun r' hr' => hr' ▸ hr) fun a r' h => ?_
  obtain ⟨_, rfl, h⟩ := h
  have hr' := hs.in hr h
  exact hf _ (hr'.lt_length (hadvances _ _ _ h)) a r' hr'

end Reports

/-! ## Items -/

/-- Whether every error of a computation that starts in some bytes is true of them. -/
abbrev Truthful (c : Codec) (b : List UInt8) (p : Read α) : Prop :=
  Reports (·.In b) (fun e _ => e.TrueOf c b) p

variable {c : Codec}

/-- Missing bytes are counted. -/
theorem truthful_bytes (n : Nat) : Truthful c b (bytes n) := by
  intro r hr e r' h
  rcases bytes_cases n r.rest with ⟨taken, more, hrest, hlen⟩ | hlt
  · rw [show r = ⟨r.offset, taken ++ more⟩ from hrest ▸ rfl, bytes_of_length_eq hlen] at h
    cases h
  · rw [show r = ⟨r.offset, r.rest⟩ from rfl, bytes_of_length_lt hlt] at h
    cases h
    exact ⟨hr.offset_add_remaining, hlt⟩

/-- A word is missing bytes or none. -/
theorem truthful_word (width : Nat) : Truthful c b (word width) :=
  .bindIn (streams_bytes width) (truthful_bytes width) fun _ => .pure _

/-- A length that is out of bounds is the one that stands there. -/
theorem truthful_length :
    Truthful c b (length c.limits.maxLength) := by
  refine .afterOffset fun r hr => .bind ((truthful_word 4).mono fun r' hr' => hr' ▸ hr) fun n => ?_
  refine .ite (fun _ => .pure _) fun hnull => .ite (fun hlong => .throw fun r' h => ?_) fun _ =>
    .pure _
  obtain ⟨_, rfl, h⟩ := h
  obtain ⟨rfl, hoff⟩ := of_word_eq_ok h
  have hsum := ((streams_word 4).in hr h).offset_add_remaining
  refine ⟨by omega, ?_, hnull, rfl, hlong⟩
  rw [hr.drop_offset]

/-- A scalar that is none of its kind has been found in the bytes. -/
theorem truthful_scalar (k : ScalarKind) : Truthful c b (scalar k) := by
  refine .behindStart (streams_word _) (advances_word (by cases k <;> decide)) (truthful_word _)
    fun start hstart n => ?_
  cases k.ofWord n with
  | ok s => exact .pure _
  | error fault => exact .throw fun _ _ => hstart

/-- A text that is none has been found in the bytes: no bytes are a text. -/
theorem truthful_text (n : Nat) : Truthful c b (text n) := by
  refine .afterOffset fun r hr =>
    .bind ((truthful_bytes n).mono fun r' hr' => hr' ▸ hr) fun bs => ?_
  cases htext : Text.Utf8.toString? bs with
  | ok s => exact .pure _
  | error fault =>
    refine .throw fun r' h => ?_
    obtain ⟨_, rfl, h⟩ := h
    obtain ⟨-, hlength, hoff⟩ := of_bytes_eq_ok h
    have hbs : bs ≠ [] := by
      rintro rfl
      cases htext
    have hpos := List.length_pos_iff.2 hbs
    exact ((streams_bytes n).in hr h).lt_length (by omega)

end Read

namespace Codec

open Read (Reports Streams Truthful)

variable {c : Codec} {b : List UInt8}

/-- A tag is a length and a text. -/
theorem truthful_readTag : Truthful c b c.readTag := by
  refine .bindIn (Read.streams_length _) Read.truthful_length fun n? => ?_
  cases n? with
  | none => exact .pure _
  | some n => exact .bindIn (Read.streams_text n) (Read.truthful_text n) fun _ => .pure _

/-- Null in the place of the tag of a message has been found in the bytes. -/
theorem truthful_readRootTag : Truthful c b c.readRootTag := by
  refine .behindStart c.streams_readTag c.advances_readTag truthful_readTag
    fun start hstart tag? => ?_
  cases tag? with
  | none => exact .throw fun _ _ => hstart
  | some tag => exact .pure _

/-- A tag that has been read is spelled in the bytes. -/
theorem infix_of_readTag {tag : String} {r r' : Reader} (hr : r.In b)
    (h : c.readTag r = .ok (some tag) r') : Wire.text tag <:+: b := by
  have hspells := spells_readTag c.maxLength_capped_le
  rw [readTag_capped] at hspells
  obtain ⟨taken, ⟨-, rfl⟩, hrest, -⟩ := (hspells _ _ _ _).1 h
  obtain ⟨before, rfl, -⟩ := hr
  exact ⟨before, r'.rest, by rw [hrest, List.append_assoc]⟩

/-- The tag of a message is spelled in the bytes. -/
theorem infix_of_readRootTag {tag : String} {r r' : Reader} (hr : r.In b)
    (h : c.readRootTag r = .ok tag r') : Wire.text tag <:+: b := by
  obtain ⟨_, _, ⟨⟩, h⟩ := Read.bind_eq_ok.1 h
  obtain ⟨tag?, r₁, h, hroot⟩ := Read.bind_eq_ok.1 h
  cases tag? with
  | none => cases hroot
  | some tag =>
    cases hroot
    exact infix_of_readTag hr h

/-- A tag that is not registered is one that is spelled in the bytes. -/
theorem truthful_resolve {tag : String} (htag : Wire.text tag <:+: b) :
    Truthful c b (c.resolve tag) := by
  unfold resolve Registry.lookup
  cases hget : c.registry.get? tag with
  | none => exact .throw fun _ _ => ⟨by rw [Registry.contains, hget]; rfl, htag⟩
  | some d => exact .pure d

/-- A presence byte that is none has been found in the bytes. -/
theorem truthful_readPresence : Truthful c b readPresence := by
  refine .behindStart (Read.streams_word 1) (Read.advances_word Nat.one_pos) (Read.truthful_word 1)
    fun start hstart n => ?_
  exact .ite (fun _ => .pure _) fun _ => .ite (fun _ => .pure _) fun _ => .throw fun _ _ => hstart

/-- A scalar is a presence byte, if it has one, and its bytes. -/
theorem truthful_readScalar (f : Field) (k : ScalarKind) :
    Truthful c b (readScalar f k) := by
  have hk : Truthful c b (do return Value.scalar (← Read.scalar k)) :=
    .bindIn (Read.streams_scalar k) (Read.truthful_scalar k) fun _ => .pure _
  refine .ite (fun _ => .bindIn streams_readPresence truthful_readPresence fun present => ?_)
    fun _ => hk
  cases present with
  | false => exact .pure _
  | true => exact hk

/-- A variant that is none has been found in the bytes, behind where it starts. -/
theorem truthful_readVariant (e : Enumeration) {start : Nat} (hstart : start < b.length) (n : Nat) :
    Truthful c b (readVariant e start n) :=
  .bindIn (Read.streams_text n) (Read.truthful_text n) fun _ =>
    .ite (fun _ => .pure _) fun _ => .throw fun _ _ => hstart

/-- Items report what one of them does. -/
theorem reports_readItems {P : CodecError → Reader → Prop} {read : Read Value} (hs : Streams read)
    (h : Reports (·.In b) P read) (n : Nat) : Reports (·.In b) P (readItems read n) := by
  induction n with
  | zero => exact .pure []
  | succ n ih => exact .bindIn hs h fun _ => .bindIn (streams_readItems hs n) ih fun _ => .pure _

/-- Entries report what a key or a value of them does. -/
theorem reports_readEntries {P : CodecError → Reader → Prop} {readKey readValue : Read Value}
    (hsk : Streams readKey) (hsv : Streams readValue) (hk : Reports (·.In b) P readKey)
    (hv : Reports (·.In b) P readValue) (n : Nat) :
    Reports (·.In b) P (readEntries readKey readValue n) := by
  induction n with
  | zero => exact .pure []
  | succ n ih =>
    exact .bindIn hsk hk fun _ => .bindIn hsv hv fun _ =>
      .bindIn (streams_readEntries hsk hsv n) ih fun _ => .pure _

/-- A level too many may be entered. -/
theorem reports_enter {α : Type} {S : Reader → Prop} {P : CodecError → Reader → Prop}
    {p : Nat → Read α} {levels : Nat} (hdeep : ∀ r, P c.tooDeep r)
    (h : ∀ n, n + 1 = levels → Reports S P (p n)) :
    Reports S P (match levels with | 0 => throw c.tooDeep | n + 1 => p n) := by
  cases levels with
  | zero => exact .throw fun r _ => hdeep r
  | succ n => exact h n rfl

/-! ## Fields -/

namespace Owns

variable {tag owner : String} {f : Field}

/-- A registered type owns its fields. -/
theorem of_mem {d : Descriptor} (hd : c.registry.get? d.tag = some d) (hf : f ∈ d.fields) :
    c.Owns d.tag f.name f :=
  ⟨d, f, hd, hf, rfl, .self⟩

/-- The elements of a list belong to its owner. -/
theorem element (h : c.Owns tag owner f) {element : Field} (hkind : f.kind = .list element) :
    c.Owns tag owner element := by
  obtain ⟨d, g, hd, hg, hname, hcontains⟩ := h
  exact ⟨d, g, hd, hg, hname, hcontains.element hkind⟩

/-- The keys of a map belong to its owner. -/
theorem key (h : c.Owns tag owner f) {key value : Field} (hkind : f.kind = .map key value) :
    c.Owns tag owner key := by
  obtain ⟨d, g, hd, hg, hname, hcontains⟩ := h
  exact ⟨d, g, hd, hg, hname, hcontains.key hkind⟩

/-- The values of a map belong to its owner. -/
theorem value (h : c.Owns tag owner f) {key value : Field} (hkind : f.kind = .map key value) :
    c.Owns tag owner value := by
  obtain ⟨d, g, hd, hg, hname, hcontains⟩ := h
  exact ⟨d, g, hd, hg, hname, hcontains.value hkind⟩

end Owns

/-- Null is reported for a field that does not allow it. -/
theorem truthful_readNull {tag owner : String} {f : Field} (h : c.Owns tag owner f) :
    Truthful c b (readNull tag owner f) :=
  .ite (fun _ => .pure _) fun hnull => .throw fun _ _ => ⟨f, h, eq_false_of_ne_true hnull⟩

/-- Fields report what reading one of them does, or that an instance has refused what has been read
for a field, by induction on the fields that are left. What is known of the instance is kept by each
value that it takes. -/
theorem reports_readFields {P : CodecError → Reader → Prop} {I : Instance → Prop}
    {read : Field → Read Value} {d : Descriptor} (hs : ∀ f, Streams (read f))
    (h : ∀ f ∈ d.fields, Reports (·.In b) P (read f))
    (hkeep : ∀ i k v i', I i → i.setField k v = .ok i' → I i')
    (hrefuse : ∀ i k f v cause r r', I i → d.fields[k]? = some f → r.In b → read f r = .ok v r' →
      i.setField k v = .error cause → P (.refusedField d.tag f.name cause) r')
    {done fs : List Field} (hfields : d.fields = done ++ fs) {i : Instance} (hi : I i) :
    Reports (·.In b) P (readFields read d.tag done.length fs i) := by
  induction fs generalizing done i with
  | nil => exact .pure i
  | cons f fs ih =>
    have hf : d.fields[done.length]? = some f := by
      rw [hfields, List.getElem?_append_right (Nat.le_refl _), Nat.sub_self]
      rfl
    refine .bind (h f (List.mem_of_getElem? hf)) fun v => ?_
    cases hset : i.setField done.length v with
    | ok i' =>
      have hfields' : d.fields = (done ++ [f]) ++ fs := by rw [hfields, List.append_cons]
      have hnext := ih hfields' (hkeep i _ v i' hi hset)
      rw [List.length_append] at hnext
      refine hnext.mono fun r' hr' => ?_
      obtain ⟨r, hr, hread⟩ := hr'
      exact (hs f).in hr hread
    | error cause =>
      refine .throw fun r' hr' => ?_
      obtain ⟨r, hr, hread⟩ := hr'
      exact hrefuse i _ f v cause r r' hi hf hr hread hset

/-- A body reports what reading one of its fields does, or that the instance has refused what has
been read for a field. -/
theorem reports_readBody {P : CodecError → Reader → Prop} {I : Instance → Prop}
    {read : Field → Read Value} {d : Descriptor} (hs : ∀ f, Streams (read f))
    (h : ∀ f ∈ d.fields, Reports (·.In b) P (read f))
    (hkeep : ∀ i k v i', I i → i.setField k v = .ok i' → I i')
    (hrefuse : ∀ i k f v cause r r', I i → d.fields[k]? = some f → r.In b → read f r = .ok v r' →
      i.setField k v = .error cause → P (.refusedField d.tag f.name cause) r')
    (hi : I d.prototype) : Reports (·.In b) P (readBody read d) :=
  reports_readFields hs h hkeep hrefuse (List.nil_append d.fields).symm hi

/-- What is reported of a body is true: a refusal names a field of the type. -/
theorem truthful_readBody {read : Field → Read Value} {d : Descriptor}
    (hd : c.registry.get? d.tag = some d) (hs : ∀ f, Streams (read f))
    (h : ∀ f ∈ d.fields, Truthful c b (read f)) : Truthful c b (readBody read d) := by
  refine reports_readBody (I := fun _ => True) hs h (fun _ _ _ _ _ _ => trivial) ?_ trivial
  intro i k f v cause r r' _ hf _ _ _
  exact ⟨f, .of_mem hd (List.mem_of_getElem? hf)⟩

/-- What is reported of a value is true, by induction on the levels that may still be entered. -/
theorem truthful_readValue {levels : Nat} {tag owner : String} {f : Field}
    (howns : c.Owns tag owner f) :
    Truthful c b (c.readValue levels tag owner f) := by
  induction levels using Nat.strongRecOn generalizing tag owner f with
  | ind levels ih =>
  have hnull := truthful_readNull (b := b) howns
  have hlength := Read.streams_length c.limits.maxLength
  unfold readValue
  cases hkind : f.kind with
  | scalar k => exact truthful_readScalar f k
  | string =>
    refine .bindIn hlength Read.truthful_length fun n? => ?_
    cases n? with
    | none => exact hnull
    | some n => exact .bindIn (Read.streams_text n) (Read.truthful_text n) fun _ => .pure _
  | bytes =>
    refine .bindIn hlength Read.truthful_length fun n? => ?_
    cases n? with
    | none => exact hnull
    | some n => exact .bindIn (Read.streams_bytes n) (Read.truthful_bytes n) fun _ => .pure _
  | enum e =>
    refine .behindStart hlength (Read.advances_length _) Read.truthful_length
      fun start hstart n? => ?_
    cases n? with
    | none => exact hnull
    | some n => exact truthful_readVariant e hstart n
  | nested declared =>
    refine .bindOf c.streams_readTag truthful_readTag fun tag? htag => ?_
    cases tag? with
    | none => exact hnull
    | some found =>
      obtain ⟨r, r', hr, htag⟩ := htag
      refine .bindOf (c.streams_resolve found) (truthful_resolve (infix_of_readTag hr htag))
        fun d hd => ?_
      obtain ⟨_, _, -, hd⟩ := hd
      have hd := Registry.get?_tag_of_get? (resolve_eq_ok.1 hd).1
      refine .ite (fun _ => reports_enter (fun _ => rfl) fun n hn => ?_) fun hassign =>
        .throw fun _ _ => ?_
      · have hs (f : Field) := c.streams_readValue n d.tag f.name f
        exact .bindIn (streams_readFields hs _ _ _ _)
          (truthful_readBody hd hs fun f hf => ih n (by omega) (.of_mem hd hf)) fun _ => .pure _
      · obtain ⟨e, g, he, hg, hname, hcontains⟩ := howns
        refine ⟨by rw [Registry.contains, hd]; rfl, eq_false_of_ne_true hassign, e, g, he, hg,
          hname, hcontains.mentions ?_⟩
        rw [hkind]
        exact .nested declared
  | list element =>
    refine .bindIn hlength Read.truthful_length fun n? => ?_
    cases n? with
    | none => exact hnull
    | some count =>
      refine reports_enter (fun _ => rfl) fun n hn => ?_
      have hs := c.streams_readValue n tag owner element
      exact .bindIn (streams_readItems hs count)
        (reports_readItems hs (ih n (by omega) (howns.element hkind)) count) fun _ => .pure _
  | map key value =>
    refine .bindIn hlength Read.truthful_length fun n? => ?_
    cases n? with
    | none => exact hnull
    | some count =>
      refine reports_enter (fun _ => rfl) fun n hn => ?_
      have hsk := c.streams_readValue n tag owner key
      have hsv := c.streams_readValue n tag owner value
      exact .bindIn (streams_readEntries hsk hsv count)
        (reports_readEntries hsk hsv (ih n (by omega) (howns.key hkind))
          (ih n (by omega) (howns.value hkind)) count) fun _ => .pure _

/-! ## Messages -/

/-- What is reported of a message is true. -/
theorem truthful_readMessage : Truthful c b c.readMessage := by
  refine .bindOf c.streams_readRootTag truthful_readRootTag fun tag htag => ?_
  obtain ⟨r, r', hr, htag⟩ := htag
  refine .bindOf (c.streams_resolve tag) (truthful_resolve (infix_of_readRootTag hr htag))
    fun d hd => ?_
  obtain ⟨_, _, -, hd⟩ := hd
  have hd := Registry.get?_tag_of_get? (resolve_eq_ok.1 hd).1
  refine reports_enter (fun _ => rfl) fun n _ => ?_
  have hs (f : Field) := c.streams_readValue n d.tag f.name f
  exact .bindIn (streams_readFields hs _ _ _ _)
    (truthful_readBody hd hs fun f hf => truthful_readValue (.of_mem hd hf)) fun _ => .pure _

/-- Bytes are refused as a message for the reason that reading one fails with, or because bytes are
left behind it. -/
theorem of_decode_eq_error {e : CodecError} (h : c.decode b = .error e) :
    (∃ r, c.readMessage (Reader.start b) = .error e r) ∨
      ∃ remaining, e = .trailingBytes remaining ∧ c.decode b = .error e := by
  by_cases htrailing : ∃ remaining, e = .trailingBytes remaining
  · obtain ⟨remaining, he⟩ := htrailing
    exact .inr ⟨remaining, he, h⟩
  · exact .inl (c.decodePrefix_eq_error.1
      (decodePrefix_eq_error_iff.2 ⟨h, not_exists.1 htrailing⟩))

/-- Bytes are refused for the reason that reading a message fails with, or because bytes are left
behind the message, or because it is of another type. -/
theorem Refuses.cases {e : CodecError} (h : c.Refuses b e) :
    (∃ r, c.readMessage (Reader.start b) = .error e r) ∨
      (∃ remaining, e = .trailingBytes remaining ∧ c.decode b = .error e) ∨
      ∃ t expected found, e = .unexpectedType expected found ∧ c.decodeAs t b = .error e := by
  rcases h with h | h | ⟨t, h⟩ | h
  · exact (of_decode_eq_error h).imp_right .inl
  · exact .inl (c.decodePrefix_eq_error.1 h)
  · by_cases htype : ∃ expected found, e = .unexpectedType expected found
    · obtain ⟨expected, found, he⟩ := htype
      exact .inr (.inr ⟨t, expected, found, he, h⟩)
    · have hother (expected found : String) : e ≠ .unexpectedType expected found :=
        fun he => htype ⟨expected, found, he⟩
      exact (of_decode_eq_error (decode_eq_error_iff.2 ⟨h, hother⟩)).imp_right .inl
  · exact .inl (c.decodePrefix_eq_error.1 (decodePrefix_of_peekTag_error h))

/-- What an error of decoding says is true, whatever has been registered and under any limits, and a
caller can carry on. Bytes that are missing are missing at the end of those that there are. A length
out of bounds is the one that stands at the offset, no null, and above the limit. Wrong data starts
in front of the end. A tag that is not known is not registered and is spelled in the bytes. Types
that do not fit, and nulls where there must be none, are named with a field of a registered type
that declares them, itself or in elements, keys or values. -/
theorem errors_are_true {c : Codec} {b : List UInt8} {e : CodecError} (h : c.Refuses b e) :
    e.isRecoverable = true ∧ e.TrueOf c b := by
  have htrue : e.TrueOf c b := by
    rcases h.cases with ⟨r, hr⟩ | ⟨remaining, rfl, htrailing⟩ | ⟨t, expected, found, rfl, htype⟩
    · exact truthful_readMessage _ (.start b) e r hr
    · obtain ⟨i, n, hp, hlt, rfl⟩ := decode_eq_trailing_iff.1 htrailing
      exact ⟨by omega, i, n, hp, by omega⟩
    · obtain ⟨rfl, hpeek, i, hi, hne⟩ := decodeAs_eq_unexpectedType_iff.1 htype
      exact ⟨t, i, rfl, hpeek, hi, hne⟩
  exact ⟨htrue.isRecoverable, htrue⟩

/-- A tag of four bytes is too long where three are the limit, and stands where that is said. -/
theorem errors_are_true_user :
    let c : Codec := ⟨⟨[Localization.EntityType.user.descriptor]⟩, { maxLength := 3 }⟩
    let b : List UInt8 := [4, 0, 0, 0, 0x55, 0x73, 0x65, 0x72, 0xFF, 0xFF, 0xFF, 0xFF]
    c.decode b = .error (.malformedLength 0 4 3) ∧ Word.ofBytes ((b.drop 0).take 4) = 4 ∧
      3 = c.limits.maxLength.toNat := by
  intro c b
  have h : c.decode b = .error (.malformedLength 0 4 3) := rfl
  obtain ⟨-, -, hword, -, hlimit, -⟩ := errors_are_true (.inl h : c.Refuses b _)
  exact ⟨h, hword, hlimit⟩

end Codec

end TagWire
