import TagWire.Proofs.Codec.Peers
import TagWire.Proofs.Codec.Truth
import TagWire.Proofs.Schema.Accessing

/-!
# Values that setters refuse

A value is checked twice on its way into an instance: against the descriptor of its field when it is
read, and by the setter when it is stored. A record checks the same again. A localization type
wants more, but only of a nested instance, which has to be an entity of the type declared. So an
error of a setter is met only where a stream message is sent a context or a user of another make
(`Codec.refuses_only_foreign`): a message whose type may stand there, but is registered with fresh
instances that are no contexts or users.

The errors of a computation are followed with the reader that it leaves behind (`Read.Reports`), as
that reader stands right behind the message that has been refused. That a field accepts whatever is
read for it is known from what the decoder accepts (`Codec.spells_readValue`).
-/

namespace TagWire

open TagWire.Localization (Entity EntityType StreamRequest)

/-! ## What entities refuse of what their fields accept -/

namespace Localization

variable {k : Nat} {f : Field} {i : Instance} {cause : FieldError}

/-- A request refuses an instance for not being of the type declared. -/
theorem StreamRequest.cause_of_setField {q : StreamRequest} {s : EntityType}
    (hf : EntityType.fields.requestFields[k]? = some f) (hkind : f.kind = .nested s.tag)
    (h : q.setField k (.nested i) = .error cause) :
    cause = .typeMismatch (InstanceType.entity s).fullName i.type.fullName := by
  match k with
  | 0 =>
    cases hf
    obtain rfl : EntityType.context = s := EntityType.tag_injective (FieldKind.nested.inj hkind)
    cases i with
    | record => exact (Except.error.inj h).symm
    | entity e => cases e <;> cases h <;> rfl
  | 1 | 2 =>
    cases hf
    cases hkind
  | 3 =>
    cases hf
    obtain rfl : EntityType.user = s := EntityType.tag_injective (FieldKind.nested.inj hkind)
    cases i with
    | record => exact (Except.error.inj h).symm
    | entity e => cases e <;> cases h <;> rfl
  | k + 4 => cases hf

/-- An entity refuses an instance for not being of the type declared. -/
theorem Entity.cause_of_setField {e : Entity} {s : EntityType} (hf : e.type.fields[k]? = some f)
    (hkind : f.kind = .nested s.tag) (h : e.setField k (.nested i) = .error cause) :
    cause = .typeMismatch (InstanceType.entity s).fullName i.type.fullName := by
  obtain ⟨htype, hk, hf⟩ := EntityType.request_of_nested hf hkind
  obtain ⟨q, hq⟩ : ∃ q, e.request? = some q := by
    cases e with
    | user | context => simp [type] at htype
    | streamRequest | getRequest | putRequest => exact ⟨_, rfl⟩
  rw [setField_of_request hq hk] at h
  exact StreamRequest.cause_of_setField hf hkind (Except.map_eq_error.1 h)

/-- Of what its fields accept, an entity refuses only instances that are not of the type declared,
so that it is a stream message and the field is that of its context or its user. -/
theorem Entity.nested_of_setField {e : Entity} {v : Value} (hf : e.type.fields[k]? = some f)
    (hv : f.accepts v = true) (h : e.setField k v = .error cause) :
    ∃ s i, v = .nested i ∧ i.type ≠ .entity s ∧ f.kind = .nested s.tag ∧
      e.type ∈ [.streamRequest, .getRequest, .putRequest] ∧
      (f.name = "context" ∧ s = .context ∨ f.name = "user" ∧ s = .user) ∧
      cause = .typeMismatch (InstanceType.entity s).fullName i.type.fullName := by
  have hnot : ¬f.Takes v := by
    intro htakes
    obtain ⟨_, he, -⟩ := e.setField_of_takes hf htakes
    cases he.symm.trans h
  obtain ⟨i, rfl, hi⟩ : ∃ i, v = .nested i ∧
      ∀ e', i = .entity e' → f.kind ≠ .nested e'.type.tag := by
    simpa [Field.Takes, hv] using hnot
  obtain ⟨tag, hkind⟩ : ∃ tag, f.kind = .nested tag := by
    cases hk : f.kind <;> simp [Field.accepts, Value.isNull, FieldKind.accepts, hk] at hv ⊢
  obtain ⟨htype, hname⟩ := EntityType.field_nested (List.mem_of_getElem? hf) hkind
  have hother {s : EntityType} (htag : tag = s.tag) : i.type ≠ .entity s := by
    intro hs
    cases i with
    | record => cases hs
    | entity e' => exact hi e' rfl (by rw [hkind, htag, InstanceType.entity.inj hs])
  rcases hname with ⟨hname, rfl⟩ | ⟨hname, rfl⟩
  · exact ⟨.context, i, rfl, hother rfl, hkind, htype, .inl ⟨hname, rfl⟩,
      e.cause_of_setField hf hkind h⟩
  · exact ⟨.user, i, rfl, hother rfl, hkind, htype, .inr ⟨hname, rfl⟩,
      e.cause_of_setField hf hkind h⟩

end Localization

namespace Codec

open Read (Reports Spells Streams)

variable {c : Codec} {b : List UInt8}

/-! ## Foreign messages -/

/-- Whether bytes are a message whose type may stand for a localization type, but is registered with
fresh instances that are of another type. -/
def Foreign (c : Codec) (s : EntityType) (message : List UInt8) (found : InstanceType) : Prop :=
  ∃ d i, c.registry.get? d.tag = some d ∧ c.registry.isAssignable d.tag s.tag = true ∧
    d.prototype.type = found ∧ found ≠ .entity s ∧
    c.peekTag message = .ok d.tag ∧ c.decode message = .ok i ∧ i.type = found

/-- Whether a field of a type refuses a foreign message: the type is a registered stream message,
the field is the one of its context or its user, and reading has come to the end of the message. -/
def RefusesForeign (c : Codec) (b : List UInt8) (tag field : String) (cause : FieldError)
    (r : Reader) : Prop :=
  ∃ t ∈ [EntityType.streamRequest, .getRequest, .putRequest], ∃ s before message found,
    tag = t.tag ∧ c.registry.get? tag = some t.descriptor ∧
    (field = "context" ∧ s = .context ∨ field = "user" ∧ s = .user) ∧
    c.Foreign s message found ∧
    cause = .typeMismatch (InstanceType.entity s).fullName found.fullName ∧
    b = before ++ message ++ r.rest ∧ r.offset = (before ++ message).length

/-- Whether an error is one of a setter only if a foreign message has been refused. -/
def OnlyForeign (c : Codec) (b : List UInt8) (e : CodecError) (r : Reader) : Prop :=
  ∀ tag field cause, e = .refusedField tag field cause → c.RefusesForeign b tag field cause r

/-- Where no setter has a part, none refuses anything. -/
theorem onlyForeign_of_fails {α : Type} {S : Reader → Prop} {p : Read α}
    (h : Fails CodecError.OfItem p) : Reports S (c.OnlyForeign b) p :=
  fun _ _ _ _ he tag field cause heq => absurd heq ((h _ _ _ he).2 tag field cause)

/-- A level too many is no refusal. -/
theorem onlyForeign_tooDeep (r : Reader) : c.OnlyForeign b c.tooDeep r := by
  rintro _ _ _ ⟨⟩

section
variable {f : Field} {depth : Nat}

/-- An instance that arrives in the place of a field arrives as a message of its own. -/
theorem Arrives.message (hc : c.registry.Native) (hlength : c.limits.maxLength ≤ maxWireLength)
    {declared : String} {i : Instance} {bs : List UInt8} (h : c.Arrives f depth (.nested i) bs)
    (hkind : f.kind = .nested declared) :
    ∃ d, c.registry.isAssignable d.tag declared = true ∧
      c.readMessage (Reader.start bs) = .ok (d, i) ⟨bs.length, []⟩ := by
  rcases arrives_iff.1 h with ⟨-, hnull, -⟩ | h
  · cases hnull
  · obtain ⟨raw, d, hlookup, hto, hi, hnative, hreceived, rfl⟩ := (arrivesPresent_nested hkind).1 h
    cases hreceived
    -- A message stands at depth one, which is no deeper than where the instance stands.
    have hi := hi.shallower (Nat.succ_le_succ (Nat.zero_le depth))
    exact ⟨d, hto, (spells_readMessage hc hlength _ _ _ _).2
      ⟨_, ⟨raw, hlookup, hnative, hi, rfl, rfl⟩, (List.append_nil _).symm, (Nat.zero_add _).symm⟩⟩

/-- An instance that arrives in the place of a field of a localization type, without being of it, is
a foreign message. -/
theorem Arrives.foreign (hc : c.registry.Native) (hlength : c.limits.maxLength ≤ maxWireLength)
    {s : EntityType} {i : Instance} {bs : List UInt8} (h : c.Arrives f depth (.nested i) bs)
    (hkind : f.kind = .nested s.tag) (hi : i.type ≠ .entity s) : c.Foreign s bs i.type := by
  obtain ⟨d, hto, hread⟩ := h.message hc hlength hkind
  obtain ⟨hpeek, hmem, htype, -⟩ := readMessage_eq_ok hread
  exact ⟨d, i, hc.sound.get?_eq_some_iff.2 ⟨hmem, rfl⟩, hto, htype.symm, hi, hpeek,
    c.decode_eq_ok.2 ⟨d, _, hread, rfl⟩, rfl⟩

end

/-! ## The decoder -/

section
variable (hc : c.registry.Native) (hlength : c.limits.maxLength ≤ maxWireLength)
include hc hlength

/-- A record takes every value that is read for it, and an entity all but foreign messages. -/
theorem onlyForeign_readBody {read : Field → Read Value} {depth : Nat} {d : Descriptor}
    (hd : c.registry.get? d.tag = some d) (hspells : ∀ f, Spells (read f) (c.Arrives f depth))
    (hs : ∀ f, Streams (read f)) (h : ∀ f ∈ d.fields, Reports (·.In b) (c.OnlyForeign b) (read f)) :
    Reports (·.In b) (c.OnlyForeign b) (readBody read d) := by
  rcases hc.ofRecords_or_entity d (Registry.mem_of_get? hd).1 with hrec | ⟨t, rfl⟩
  · refine reports_readBody (I := fun i => ∃ vs, i = .record ⟨d.tag, d.fields⟩ vs) hs h ?_ ?_
      ⟨_, hrec⟩
    · rintro _ k v i' ⟨vs, rfl⟩ hset
      obtain ⟨vs', -, rfl⟩ := Except.map_eq_ok.1 hset
      exact ⟨vs', rfl⟩
    · rintro _ k f v cause r r' ⟨vs, rfl⟩ hf - hread hset
      obtain ⟨_, harrives, -⟩ := (hspells f _ _ _ _).1 hread
      cases (Instance.setField_of_accepts hf harrives.accepts vs).symm.trans hset
  · refine reports_readBody (I := fun i => ∃ e : Entity, i = .entity e ∧ e.type = t) hs h ?_ ?_
      ⟨t.fresh, rfl, t.type_fresh⟩
    · rintro _ k v i' ⟨e, rfl, rfl⟩ hset
      obtain ⟨e', he', rfl⟩ := Except.map_eq_ok.1 hset
      exact ⟨e', rfl, Entity.type_of_setField he'⟩
    · rintro _ k f v cause r r' ⟨e, rfl, rfl⟩ hf hr hread hset tag field cause' heq
      cases heq
      obtain ⟨message, harrives, hrest, hoff⟩ := (hspells f _ _ _ _).1 hread
      obtain ⟨s, i, rfl, hi, hkind, htype, hname, hcause⟩ :=
        e.nested_of_setField hf harrives.accepts (Except.map_eq_error.1 hset)
      obtain ⟨before, rfl, hbefore⟩ := hr
      refine ⟨e.type, htype, s, before, message, i.type, rfl, hd, hname,
        harrives.foreign hc hlength hkind hi, hcause, ?_, ?_⟩
      · rw [hrest, List.append_assoc]
      · rw [hoff, hbefore, List.length_append]

/-- A value is refused only where a foreign message is read, by induction on the levels that may
still be entered. -/
theorem onlyForeign_readValue {levels depth : Nat}
    (hlevels : levels + depth = c.limits.maxDepth.toNat) (tag owner : String) (f : Field) :
    Reports (·.In b) (c.OnlyForeign b) (c.readValue levels tag owner f) := by
  induction levels using Nat.strongRecOn generalizing depth tag owner f with
  | ind levels ih =>
  have hdeeper {n : Nat} (hn : n + 1 = levels) : n + (depth + 1) = c.limits.maxDepth.toNat := by
    omega
  have hin (n : Nat) (hn : n + 1 = levels) (tag owner : String) (f : Field) :
      Reports (·.In b) (c.OnlyForeign b) (c.readValue n tag owner f) :=
    ih n (by omega) (hdeeper hn) tag owner f
  have hnull {tag owner : String} {f : Field} :
      Reports (·.In b) (c.OnlyForeign b) (readNull tag owner f) :=
    onlyForeign_of_fails (fails_readNull tag owner f)
  have hlen : Reports (·.In b) (c.OnlyForeign b) (Read.length c.limits.maxLength) :=
    onlyForeign_of_fails (Read.fails_length _)
  have hslen := Read.streams_length c.limits.maxLength
  cases hkind : f.kind with
  | scalar | string | bytes | enum => exact onlyForeign_of_fails (fails_readFlat (hkind ▸ trivial))
  | nested declared =>
    unfold readValue
    rw [hkind]
    refine .bindIn c.streams_readTag (onlyForeign_of_fails c.fails_readTag) fun tag? => ?_
    cases tag? with
    | none => exact hnull
    | some found =>
      refine .bindOf (c.streams_resolve found) (onlyForeign_of_fails (c.fails_resolve found))
        fun d hd => ?_
      obtain ⟨_, _, -, hd⟩ := hd
      have hd := Registry.get?_tag_of_get? (resolve_eq_ok.1 hd).1
      refine .ite (fun _ => reports_enter onlyForeign_tooDeep fun n hn => ?_) fun _ =>
        .throw fun _ _ => by rintro _ _ _ ⟨⟩
      have hs (f : Field) := c.streams_readValue n d.tag f.name f
      have hspells (f : Field) := spells_readValue hc hlength (hdeeper hn) d.tag f.name f
      exact .bindIn (streams_readFields hs _ _ _ _)
        (onlyForeign_readBody hc hlength hd hspells hs fun f _ => hin n hn d.tag f.name f)
        fun _ => .pure _
  | list element =>
    unfold readValue
    rw [hkind]
    refine .bindIn hslen hlen fun n? => ?_
    cases n? with
    | none => exact hnull
    | some count =>
      refine reports_enter onlyForeign_tooDeep fun n hn => ?_
      have hs := c.streams_readValue n tag owner element
      exact .bindIn (streams_readItems hs count)
        (reports_readItems hs (hin n hn tag owner element) count) fun _ => .pure _
  | map key value =>
    unfold readValue
    rw [hkind]
    refine .bindIn hslen hlen fun n? => ?_
    cases n? with
    | none => exact hnull
    | some count =>
      refine reports_enter onlyForeign_tooDeep fun n hn => ?_
      have hsk := c.streams_readValue n tag owner key
      have hsv := c.streams_readValue n tag owner value
      exact .bindIn (streams_readEntries hsk hsv count)
        (reports_readEntries hsk hsv (hin n hn tag owner key) (hin n hn tag owner value) count)
        fun _ => .pure _

/-- A message is refused only where a foreign message is read in it. -/
theorem onlyForeign_readMessage : Reports (·.In b) (c.OnlyForeign b) c.readMessage := by
  refine .bindIn c.streams_readRootTag (onlyForeign_of_fails c.fails_readRootTag) fun tag => ?_
  refine .bindOf (c.streams_resolve tag) (onlyForeign_of_fails (c.fails_resolve tag))
    fun d hd => ?_
  obtain ⟨_, _, -, hd⟩ := hd
  have hd := Registry.get?_tag_of_get? (resolve_eq_ok.1 hd).1
  refine reports_enter onlyForeign_tooDeep fun n hn => ?_
  have hs (f : Field) := c.streams_readValue n d.tag f.name f
  have hspells (f : Field) := spells_readValue hc hlength hn d.tag f.name f
  exact .bindIn (streams_readFields hs _ _ _ _)
    (onlyForeign_readBody hc hlength hd hspells hs
      fun f _ => onlyForeign_readValue hc hlength hn d.tag f.name f) fun _ => .pure _

end

/-! ## Registries -/

/-- Whether a limit on lengths leaves room for null makes no difference. -/
theorem onlyForeign_capped {e : CodecError} {r : Reader} (h : c.capped.OnlyForeign b e r) :
    c.OnlyForeign b e r := by
  simp only [OnlyForeign, RefusesForeign, Foreign, peekTag_capped, decode_capped] at h
  exact h

/-- Over a native registry, whatever the limits are, a setter refuses only foreign messages. -/
theorem refusesForeign_of_refuses (hc : c.registry.Native) {tag field : String} {cause : FieldError}
    (h : c.Refuses b (.refusedField tag field cause)) :
    ∃ r, c.readMessage (Reader.start b) = .error (.refusedField tag field cause) r ∧
      c.RefusesForeign b tag field cause r := by
  rcases h.cases with ⟨r, hr⟩ | ⟨_, h, -⟩ | ⟨_, _, _, h, -⟩
  · have hread : c.capped.readMessage (Reader.start b) = .error _ r :=
      c.readMessage_capped ▸ hr
    have hin : Reports (·.In b) (c.capped.OnlyForeign b) c.capped.readMessage :=
      onlyForeign_readMessage hc c.maxLength_capped_le
    exact ⟨r, hr, onlyForeign_capped (hin _ (.start b) _ r hread) tag field cause rfl⟩
  · cases h
  · cases h

/-- There are no foreign messages where only types of records are registered. -/
theorem RefusesForeign.not_ofRecords {tag field : String} {cause : FieldError} {r : Reader}
    (h : c.RefusesForeign b tag field cause r) : ¬c.registry.OfRecords := by
  obtain ⟨t, -, _, _, _, _, -, hget, -⟩ := h
  exact fun hrec => t.not_ofRecords (hrec _ (Registry.mem_of_get? hget).1)

/-- The registry of localization types is native. -/
theorem native_entities : Registry.entities.Native :=
  .entities (t := .putRequest) (.entities (t := .getRequest) (.entities (t := .streamRequest)
    (.entities (t := .context) (.entities (t := .user) .empty rfl) rfl) rfl) rfl) rfl

/-- There are no foreign messages where only the localization types are registered. -/
theorem RefusesForeign.ne_entities {tag field : String} {cause : FieldError} {r : Reader}
    (h : c.RefusesForeign b tag field cause r) : c.registry ≠ Registry.entities := by
  obtain ⟨_, -, s, _, message, found, -, -, hs, ⟨d, i, hget, hto, rfl, hne, -⟩, -⟩ := h
  intro hc
  rw [hc] at hget hto
  have hmem : d ∈ EntityType.all.map EntityType.descriptor := (Registry.mem_of_get? hget).1
  obtain ⟨t, -, rfl⟩ := List.mem_map.1 hmem
  have hleaf : (FieldKind.nested s.tag).isLeaf = true := by
    rcases hs with ⟨-, rfl⟩ | ⟨-, rfl⟩ <;> decide
  have hto : Registry.entities.isAssignable t.fresh.type.tag s.tag = true := by
    rwa [t.type_fresh]
  have htag : s = t.fresh.type :=
    EntityType.tag_injective (Registry.eq_tag_of_isAssignable hleaf hto).1
  exact hne (congrArg InstanceType.entity htag.symm)

/-- Setters refuse nothing that the decoder has checked but foreign messages, over every registry of
types of records and localization types, under any limits. An error of a setter names a registered
stream message and the field of its context or its user. Reading has come to the end of a message in
this field, whose type may stand there, but is registered with fresh instances that are no contexts
or no users. Over a registry of types of records alone, or of the localization types, no setter
refuses anything. -/
theorem refuses_only_foreign {r : Registry} (hr : r.Native) (l : Limits) (b : List UInt8) :
    let c : Codec := ⟨r, l⟩
    (∀ tag field cause, c.Refuses b (.refusedField tag field cause) →
      ∃ r', c.readMessage (Reader.start b) = .error (.refusedField tag field cause) r' ∧
        c.RefusesForeign b tag field cause r') ∧
    (r.OfRecords → ∀ tag field cause, ¬c.Refuses b (.refusedField tag field cause)) ∧
    ∀ tag field cause, ¬(Codec.mk (Registry.registerLocalization ∅).1 l).Refuses b
      (.refusedField tag field cause) := by
  intro c
  refine ⟨fun _ _ _ => refusesForeign_of_refuses hr, ?_, ?_⟩
  · intro hrec tag field cause h
    obtain ⟨_, -, hforeign⟩ := refusesForeign_of_refuses hr h
    exact hforeign.not_ofRecords hrec
  · intro tag field cause h
    rw [Registry.registerLocalization_empty] at h
    obtain ⟨_, -, hforeign⟩ := refusesForeign_of_refuses native_entities h
    exact hforeign.ne_entities rfl

/-- A type of records with the fields of a context and an identifier. -/
def siteDescriptor (parent? : Option String) : Descriptor :=
  let fields := EntityType.context.fields ++ [⟨"siteId", .string, true⟩]
  ⟨"Site", parent?, fields, (Record.fresh ⟨"Site", fields⟩).toInstance⟩

/-- A stream request refuses a site for its context, also if sites extend contexts. Where sites are
all that is registered, nothing is refused. -/
theorem refuses_only_foreign_site :
    let c : Codec :=
      ⟨⟨Registry.entities.types ++ [siteDescriptor (some "LocalizationContext")]⟩, {}⟩
    let b := Wire.text "LocalizationStreamRequest" ++ Wire.text "Site" ++ Wire.text "UNKNOWN" ++
      Wire.text "BASE" ++ Wire.null ++ Wire.null
    let cause := .typeMismatch "dynserial::localization::LocalizationContext"
      "dynserial::schema::record::DynamicRecord"
    c.decode b = .error (.refusedField "LocalizationStreamRequest" "context" cause) ∧
    (∃ r, c.RefusesForeign b "LocalizationStreamRequest" "context" cause r) ∧
    ∀ tag field cause,
      ¬(Codec.mk ⟨[siteDescriptor none]⟩ {}).Refuses b (.refusedField tag field cause) := by
  intro c b cause
  have hrec (parent? : Option String) : (siteDescriptor parent?).OfRecords := rfl
  have hc : c.registry.Native := .records native_entities (hrec (some "LocalizationContext")) rfl
  have herror : (c.decode b).map (fun _ => ()) =
      .error (.refusedField "LocalizationStreamRequest" "context" cause) := by
    decide +kernel
  have hdecode := Except.map_eq_error.1 herror
  obtain ⟨r, -, hforeign⟩ := (refuses_only_foreign hc {} b).1 _ _ _ (.inl hdecode)
  have hsite : (Registry.mk [siteDescriptor none]).Native := .records .empty (hrec none) rfl
  exact ⟨hdecode, ⟨r, hforeign⟩,
    (refuses_only_foreign hsite {} b).2.1 (List.forall_mem_singleton.2 (hrec none))⟩

end Codec

end TagWire
