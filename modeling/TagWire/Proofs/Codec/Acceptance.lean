import TagWire.Proofs.Codec.Arrival
import TagWire.Proofs.Codec.Spelling

/-!
# What the decoder accepts

Over a native registry the decoder accepts exactly the wire forms of native instances that conform,
and answers what is received of them. This is shown field by field, by induction on the levels that
may still be entered (`Codec.spells_readValue`), and then for whole messages
(`Codec.decodePrefix_iff`, `Codec.decode_iff`). The limit on length has to leave room for null; one
that does not bounds no more than one that does (`Codec.decodePrefix_capped`).
-/

namespace TagWire.Codec

open Read (Spells)

/-! ## Lists of answers -/

section
variable {α β : Type} {P Q : α → Prop} {form form' : α → List UInt8}

/-- Items stem from a list of what each of them stems from. -/
theorem spells_readItems {read : Read Value} {g : α → Value}
    (h : Spells read (Stems P form g)) (n : Nat) :
    Spells (readItems read n)
      (Stems (fun raws => raws.length = n ∧ ∀ raw ∈ raws, P raw) (List.flatMap form)
        (List.map g)) := by
  induction n with
  | zero =>
    refine (Spells.pure []).congr fun vs bs => ?_
    refine ⟨?_, ?_⟩
    · intro h'
      obtain ⟨rfl, rfl⟩ := h'
      exact ⟨[], ⟨rfl, List.forall_mem_nil _⟩, rfl, rfl⟩
    · intro h'
      obtain ⟨raws, ⟨hlen, -⟩, rfl, rfl⟩ := h'
      cases List.eq_nil_of_length_eq_zero hlen
      exact ⟨rfl, rfl⟩
  | succ n ih =>
    refine (h.bind fun v => ih.map (v :: ·)).congr fun vs bs => ?_
    refine ⟨?_, ?_⟩
    · intro hx
      obtain ⟨_, _, _, ⟨raw, hraw, rfl, rfl⟩, ⟨_, ⟨raws, ⟨rfl, hraws⟩, rfl, rfl⟩, rfl⟩, rfl⟩ := hx
      exact ⟨raw :: raws, ⟨rfl, List.forall_mem_cons.2 ⟨hraw, hraws⟩⟩, rfl, rfl⟩
    · intro hx
      obtain ⟨raws, ⟨hlen, hraws⟩, rfl, rfl⟩ := hx
      cases raws with
      | nil => cases hlen
      | cons raw raws =>
        obtain ⟨hraw, hraws⟩ := List.forall_mem_cons.1 hraws
        exact ⟨_, _, _, ⟨raw, hraw, rfl, rfl⟩,
          ⟨_, ⟨raws, ⟨Nat.succ.inj hlen, hraws⟩, rfl, rfl⟩, rfl⟩, rfl⟩

/-- Entries stem from a list of what their keys and values stem from. -/
theorem spells_readEntries {readKey readValue : Read Value} {g : α → Value}
    (hk : Spells readKey (Stems P form g)) (hv : Spells readValue (Stems Q form' g)) (n : Nat) :
    Spells (readEntries readKey readValue n)
      (Stems (fun raws => raws.length = n ∧ ∀ raw ∈ raws, P raw.1 ∧ Q raw.2)
        (List.flatMap fun raw : α × α => form raw.1 ++ form' raw.2)
        (List.map fun raw => (g raw.1, g raw.2))) := by
  induction n with
  | zero =>
    refine (Spells.pure []).congr fun vs bs => ?_
    refine ⟨?_, ?_⟩
    · intro h
      obtain ⟨rfl, rfl⟩ := h
      exact ⟨[], ⟨rfl, List.forall_mem_nil _⟩, rfl, rfl⟩
    · intro h
      obtain ⟨raws, ⟨hlen, -⟩, rfl, rfl⟩ := h
      cases List.eq_nil_of_length_eq_zero hlen
      exact ⟨rfl, rfl⟩
  | succ n ih =>
    refine (hk.bind fun k => hv.bind fun v => ih.map ((k, v) :: ·)).congr fun vs bs => ?_
    refine ⟨?_, ?_⟩
    · intro h'
      obtain ⟨_, _, _, ⟨rawKey, hrawKey, rfl, rfl⟩, ⟨_, _, _, ⟨raw, hraw, rfl, rfl⟩, ⟨_, ⟨raws,
        ⟨rfl, hraws⟩, rfl, rfl⟩, rfl⟩, rfl⟩, rfl⟩ := h'
      have hentries : ∀ e ∈ (rawKey, raw) :: raws, P e.1 ∧ Q e.2 :=
        List.forall_mem_cons.2 ⟨⟨hrawKey, hraw⟩, hraws⟩
      refine ⟨(rawKey, raw) :: raws, ⟨rfl, hentries⟩, ?_, rfl⟩
      rw [List.flatMap_cons, List.append_assoc]
    · intro h'
      obtain ⟨raws, ⟨hlen, hraws⟩, rfl, rfl⟩ := h'
      cases raws with
      | nil => cases hlen
      | cons raw raws =>
        obtain ⟨⟨hrawKey, hraw⟩, hraws⟩ := List.forall_mem_cons.1 hraws
        refine ⟨_, _, _, ⟨raw.1, hrawKey, rfl, rfl⟩, ⟨_, _, _, ⟨raw.2, hraw, rfl, rfl⟩,
          ⟨_, ⟨raws, ⟨Nat.succ.inj hlen, hraws⟩, rfl, rfl⟩, rfl⟩, rfl⟩, ?_⟩
        rw [List.flatMap_cons, List.append_assoc]

/-- Fields stem from values in a row, which are stored as they arrive. -/
theorem spells_readFields {r : Registry} {read : Field → Read Value} {P : Field → Value → Prop}
    {g : Value → Value} (h : ∀ f, Spells (read f) (Stems (P f) (r.form f) g)) (tag : String)
    (index : Nat) (fs : List Field) (i : Instance) :
    Spells (readFields read tag index fs i) fun j bs => ∃ raws, List.Forall₂ P fs raws ∧
      r.fieldsForm fs raws = bs ∧ i.storeAll index (raws.map g) = .ok j := by
  induction fs generalizing index i with
  | nil =>
    refine (Spells.pure i).congr fun j bs => ?_
    refine ⟨?_, ?_⟩
    · intro h'
      obtain ⟨rfl, rfl⟩ := h'
      exact ⟨[], .nil, by rw [Registry.fieldsForm]; simp, rfl⟩
    · intro h'
      obtain ⟨_, ⟨⟩, rfl, hj⟩ := h'
      cases hj
      exact ⟨rfl, by rw [Registry.fieldsForm]; simp⟩
  | cons f fs ih =>
    refine ((h f).bind (S := fun v j bs => ∃ i', i.setField index v = .ok i' ∧
      ∃ raws, List.Forall₂ P fs raws ∧ r.fieldsForm fs raws = bs ∧
        i'.storeAll (index + 1) (raws.map g) = .ok j) fun v => ?_).congr fun j bs => ?_
    · cases i.setField index v with
      | ok i' => exact (ih (index + 1) i').congr fun j bs => by simp
      | error cause => exact .throw (by simp)
    refine ⟨?_, ?_⟩
    · intro hx
      obtain ⟨_, _, _, ⟨raw, hraw, rfl, rfl⟩, ⟨i', hi', raws, hraws, rfl, hj⟩, rfl⟩ := hx
      refine ⟨raw :: raws, .cons hraw hraws, ?_, storeValues_cons.2 ⟨i', hi', hj⟩⟩
      rw [Registry.fieldsForm]
    · intro hx
      obtain ⟨_, ⟨⟩, rfl, hj⟩ := hx
      next raw raws hraw hraws =>
      obtain ⟨i', hi', hj⟩ := storeValues_cons.1 hj
      refine ⟨_, _, _, ⟨raw, hraw, rfl, rfl⟩, ⟨i', hi', raws, hraws, rfl, hj⟩, ?_⟩
      rw [Registry.fieldsForm]

end

/-! ## Values -/

variable {c : Codec} {f : Field} {depth : Nat}

/-- Null is spelled by nothing more where it is allowed. -/
theorem spells_readNull (tag owner : String) (f : Field) :
    Spells (readNull tag owner f) fun v bs => f.nullable = true ∧ v = .null ∧ bs = [] :=
  .ite fun _ => .pure Value.null

/-- A value that starts with a length or a tag, or with null in its place. -/
theorem spells_orNull {α : Type} {p : Read (Option α)} {R : α → List UInt8 → Prop}
    {g : Option α → Read Value} {S : α → Value → List UInt8 → Prop} {tag owner : String}
    (hnull : c.registry.form f .null = Wire.null)
    (hp : Spells p fun o bs => o.elim (bs = Wire.null) fun a => R a bs)
    (hnone : g none = readNull tag owner f) (hsome : ∀ a, Spells (g (some a)) (S a))
    (hS : ∀ v bs, (∃ a bs₁ bs₂, R a bs₁ ∧ S a v bs₂ ∧ bs = bs₁ ++ bs₂) ↔
      c.ArrivesPresent f depth v bs) :
    Spells (p >>= g) (c.Arrives f depth) := by
  have hnone : Spells (g none) fun v bs => f.nullable = true ∧ v = .null ∧ bs = [] :=
    hnone ▸ spells_readNull tag owner f
  refine (hp.bindOption hnone hsome).congr fun v bs => ?_
  rw [arrives_iff, ← hS, hnull]
  refine or_congr ?_ Iff.rfl
  refine ⟨?_, ?_⟩
  · intro h
    obtain ⟨_, _, rfl, ⟨hf, rfl, rfl⟩, rfl⟩ := h
    exact ⟨hf, rfl, List.append_nil _⟩
  · intro h
    obtain ⟨hf, rfl, rfl⟩ := h
    exact ⟨_, _, rfl, ⟨hf, rfl, rfl⟩, (List.append_nil _).symm⟩

/-- The byte of presence spells whether a scalar is present. -/
theorem spells_readPresence : Spells readPresence fun present bs => bs = Wire.presence present := by
  have hbyte (n start : Nat) : Spells
      (if n = 0 then Pure.pure false
        else if n = 1 then Pure.pure true
        else throw (.invalidData start (.presenceByte n.toUInt8)))
      fun present bs => n = (if present then 1 else 0) ∧ bs = [] := by
    split
    next h0 => exact (Spells.pure false).congr fun b bs => by cases b <;> simp [h0]
    next h0 =>
    split
    next h1 => exact (Spells.pure true).congr fun b bs => by cases b <;> simp [h1]
    next h1 => exact .throw fun b bs => by cases b <;> simp [h0, h1]
  refine Spells.afterOffset fun start =>
    ((Read.spells_word 1).bind fun n => hbyte n start).congr fun present bs => ?_
  refine ⟨?_, ?_⟩
  · intro h
    obtain ⟨n, _, _, ⟨-, rfl⟩, ⟨rfl, rfl⟩, rfl⟩ := h
    cases present <;> rfl
  · intro h
    subst h
    exact ⟨if present then 1 else 0, _, [], ⟨by cases present <;> decide, rfl⟩, ⟨rfl, rfl⟩,
      by cases present <;> rfl⟩

/-- Scalars arrive as they are. -/
theorem spells_readScalar {k : ScalarKind} (hk : f.kind = .scalar k) :
    Spells (readScalar f k) (c.Arrives f depth) := by
  have hscalar : Spells (do return Value.scalar (← Read.scalar k)) fun v bs =>
      ∃ s, (s.kind = k ∧ bs = s.bytes) ∧ Value.scalar s = v := (Read.spells_scalar k).map _
  have hnull : c.registry.form f .null = Wire.presence false :=
    c.registry.form_null_of_scalar hk
  unfold readScalar
  split
  next hf =>
    refine (spells_readPresence.bind (S := fun present v bs =>
      if present then ∃ s, (s.kind = k ∧ bs = s.bytes) ∧ Value.scalar s = v
      else v = .null ∧ bs = []) fun present => ?_).congr fun v bs => ?_
    · cases present with
      | false => exact (Spells.pure Value.null).congr fun v bs => by simp
      | true => exact hscalar.congr fun v bs => by simp
    · rw [arrives_iff, hnull, arrivesPresent_scalar hk, if_pos hf]
      refine ⟨?_, ?_⟩
      · intro hx
        obtain ⟨present, _, bs, rfl, h, rfl⟩ := hx
        cases present with
        | false =>
          obtain ⟨rfl, rfl⟩ : v = .null ∧ bs = [] := by simpa using h
          exact .inl ⟨hf, rfl, List.append_nil _⟩
        | true =>
          obtain ⟨s, ⟨hs, rfl⟩, rfl⟩ : ∃ s, (s.kind = k ∧ bs = s.bytes) ∧ Value.scalar s = v := by
            simpa using h
          exact .inr ⟨s, hs, rfl, rfl⟩
      · intro hx
        rcases hx with ⟨-, rfl, rfl⟩ | ⟨s, hs, rfl, rfl⟩
        · exact ⟨false, _, [], rfl, by simp, (List.append_nil _).symm⟩
        · exact ⟨true, _, _, rfl, by simp [hs], rfl⟩
  next hf =>
    refine hscalar.congr fun v bs => ?_
    rw [arrives_iff, arrivesPresent_scalar hk, if_neg hf]
    refine ⟨?_, ?_⟩
    · intro hx
      obtain ⟨s, ⟨hs, rfl⟩, rfl⟩ := hx
      exact .inr ⟨s, hs, rfl, rfl⟩
    · intro hx
      rcases hx with ⟨hnullable, -⟩ | ⟨s, hs, rfl, rfl⟩
      · exact absurd hnullable hf
      · exact ⟨s, ⟨hs, rfl⟩, rfl⟩

/-! ## The decoder -/

section
variable (hlength : c.limits.maxLength ≤ maxWireLength)
include hlength

/-- A tag is spelled by its text, and null by null. -/
theorem spells_readTag : Spells c.readTag fun tag? bs => tag?.elim (bs = Wire.null) fun tag =>
    (Text.Utf8.ofString tag).length ≤ c.limits.maxLength.toNat ∧ bs = Wire.text tag := by
  refine Spells.congr (.bindOption (Read.spells_length hlength) (by exact .pure none)
    fun n => by exact (Read.spells_text n).map some) fun tag? bs => ?_
  refine ⟨?_, ?_⟩
  · intro h
    rcases h with ⟨_, _, rfl, ⟨rfl, rfl⟩, rfl⟩ | ⟨n, _, _, ⟨hn, rfl⟩, ⟨tag, ⟨rfl, rfl⟩, rfl⟩, rfl⟩
    · exact List.append_nil _
    · exact ⟨hn, rfl⟩
  · intro h
    cases tag? with
    | none => exact .inl ⟨_, [], h, ⟨rfl, rfl⟩, (List.append_nil _).symm⟩
    | some tag => exact .inr ⟨_, _, _, ⟨h.1, rfl⟩, ⟨tag, ⟨rfl, rfl⟩, rfl⟩, h.2⟩

/-- The tag of a message is spelled by its text. -/
theorem spells_readRootTag : Spells c.readRootTag fun tag bs =>
    (Text.Utf8.ofString tag).length ≤ c.limits.maxLength.toNat ∧ bs = Wire.text tag := by
  refine Spells.congr (.afterOffset fun start => .bindOption (spells_readTag hlength)
    (.throw fun _ _ h => h) fun tag => by exact .pure tag) fun tag bs => ?_
  refine ⟨?_, ?_⟩
  · intro h
    rcases h with ⟨_, _, -, h, -⟩ | ⟨_, _, _, h, ⟨rfl, rfl⟩, rfl⟩
    · exact h.elim
    · rwa [List.append_nil]
  · intro h
    exact .inr ⟨tag, bs, [], h, ⟨rfl, rfl⟩, (List.append_nil bs).symm⟩

end

/-- A tag that is registered leads to its type. -/
theorem spells_resolve (tag : String) :
    Spells (c.resolve tag) fun d bs => c.registry.get? tag = some d ∧ bs = [] := by
  refine (Spells.ofExcept (c.registry.lookup tag) (fun d h => by rw [resolve, h])
    fun e h => ⟨e, by rw [resolve, h]⟩).congr fun d bs => and_congr_left fun _ => ?_
  unfold Registry.lookup
  cases c.registry.get? tag <;> simp

/-- What is read with a level entered is read only if a level is left. -/
theorem spells_enter {α : Type} {p : Nat → Read α} {R : α → List UInt8 → Prop} {levels : Nat} :
    levels + depth = c.limits.maxDepth.toNat → (∀ n, n + 1 = levels → Spells (p n) R) →
      Spells (match levels with | 0 => throw c.tooDeep | n + 1 => p n) fun a bs =>
        depth + 1 ≤ c.limits.maxDepth.toNat ∧ R a bs := by
  intro hlevels h
  cases levels with
  | zero => exact .throw fun a bs h => absurd h.1 (by omega)
  | succ n => exact (h n rfl).congr fun a bs => (and_iff_right (by omega)).symm

/-- The body of a registered type. -/
theorem spells_readBody {read : Field → Read Value}
    (hread : ∀ f, Spells (read f) (c.Arrives f depth))
    (hc : c.registry.Native) {d : Descriptor} (hd : c.registry.get? d.tag = some d) :
    Spells (readBody read d) fun j bs => ∃ raw, c.registry.lookupInstance raw = .ok d ∧
      raw.Native c.registry ∧ FieldsFit (fun f v => c.Fits f v depth) d.fields raw.values ∧
      c.registry.fieldsForm d.fields raw.values = bs ∧ raw.received c.registry = j :=
  (spells_readFields hread d.tag 0 d.fields d.prototype).congr fun _ _ => exists_body_iff hc hd

section
variable (hc : c.registry.Native) (hlength : c.limits.maxLength ≤ maxWireLength)
include hc hlength

/-- A value is read in the place of a field exactly if it arrives there, by induction on the levels
that may still be entered. -/
theorem spells_readValue {levels : Nat} (hlevels : levels + depth = c.limits.maxDepth.toNat)
    (tag owner : String) (f : Field) :
    Spells (c.readValue levels tag owner f) (c.Arrives f depth) := by
  induction levels using Nat.strongRecOn generalizing depth tag owner f with
  | ind levels ih =>
  have hin : ∀ n, n + 1 = levels → ∀ tag owner f,
      Spells (c.readValue n tag owner f) (c.Arrives f (depth + 1)) :=
    fun n hn tag owner f => ih n (by omega) (by omega) tag owner f
  have hlen := Read.spells_length hlength
  unfold readValue
  cases hk : f.kind with
  | scalar k => exact spells_readScalar hk
  | string =>
    have hnull : c.registry.form f .null = Wire.null :=
      c.registry.form_null (by simp [hk])
    have hread (n : Nat) := (Read.spells_text n).map Value.string
    refine spells_orNull hnull hlen rfl hread fun v bs => ?_
    rw [arrivesPresent_string hk]
    refine ⟨?_, ?_⟩
    · intro h
      obtain ⟨n, _, _, ⟨hn, rfl⟩, ⟨s, ⟨rfl, rfl⟩, rfl⟩, rfl⟩ := h
      exact ⟨s, hn, rfl, rfl⟩
    · intro h
      obtain ⟨s, hn, rfl, rfl⟩ := h
      exact ⟨_, _, _, ⟨hn, rfl⟩, ⟨s, ⟨rfl, rfl⟩, rfl⟩, rfl⟩
  | bytes =>
    have hnull : c.registry.form f .null = Wire.null :=
      c.registry.form_null (by simp [hk])
    have hread (n : Nat) := (Read.spells_bytes n).map Value.bytes
    refine spells_orNull hnull hlen rfl hread fun v bs => ?_
    rw [arrivesPresent_bytes hk]
    refine ⟨?_, ?_⟩
    · intro h
      obtain ⟨n, _, _, ⟨hn, rfl⟩, ⟨b, ⟨rfl, rfl⟩, rfl⟩, rfl⟩ := h
      exact ⟨b, hn, rfl, rfl⟩
    · intro h
      obtain ⟨b, hn, rfl, rfl⟩ := h
      exact ⟨_, _, _, ⟨hn, rfl⟩, ⟨b, ⟨rfl, rfl⟩, rfl⟩, rfl⟩
  | enum e =>
    have hnull : c.registry.form f .null = Wire.null :=
      c.registry.form_null (by simp [hk])
    refine .afterOffset fun start => spells_orNull hnull hlen rfl
      (fun n => (Read.spells_text n).bind fun variant => .ite fun _ => .pure (Value.enum variant))
      fun v bs => ?_
    rw [arrivesPresent_enum hk]
    refine ⟨?_, ?_⟩
    · intro h
      obtain ⟨n, _, _, ⟨hn, rfl⟩, ⟨variant, _, _, ⟨rfl, rfl⟩, ⟨hmem, rfl, rfl⟩, rfl⟩, rfl⟩ := h
      exact ⟨variant, hmem, hn, rfl, by rw [List.append_nil]; rfl⟩
    · intro h
      obtain ⟨variant, hmem, hn, rfl, rfl⟩ := h
      exact ⟨_, _, _, ⟨hn, rfl⟩, ⟨variant, _, [], ⟨rfl, rfl⟩, ⟨hmem, rfl, rfl⟩, rfl⟩,
        by rw [List.append_nil]; rfl⟩
  | nested declared =>
    have hnull : c.registry.form f .null = Wire.null :=
      c.registry.form_null (by simp [hk])
    -- A body is described only for a type that has been found, which `bind` alone does not tell.
    refine spells_orNull hnull (spells_readTag hlength) rfl
      (fun found => (spells_resolve found).bindOf fun d bs hd => .ite fun _ =>
        spells_enter hlevels fun n hn => .map Value.nested
          (spells_readBody (fun f => hin n hn d.tag f.name f) hc (Registry.get?_tag_of_get? hd.1)))
      fun v bs => ?_
    rw [arrivesPresent_nested hk]
    refine ⟨?_, ?_⟩
    · intro h
      obtain ⟨found, _, _, ⟨hfound, rfl⟩, ⟨d, _, _, ⟨hd, rfl⟩, ⟨hto, hdepth, _, ⟨raw, hlookup,
        hnative, hfit, rfl, rfl⟩, rfl⟩, rfl⟩, rfl⟩ := h
      obtain rfl := (Registry.mem_of_get? hd).2
      have hi := (conforms_of_lookup hlookup).2 ⟨hdepth, hfound, hfit⟩
      refine ⟨raw, d, hlookup, hto, hi, hnative, rfl, ?_⟩
      rw [c.registry.message_of_lookup hlookup, List.nil_append]
    · intro h
      obtain ⟨raw, d, hlookup, hto, hi, hnative, rfl, rfl⟩ := h
      obtain ⟨hdepth, hfound, hfit⟩ := (conforms_of_lookup hlookup).1 hi
      have hd := hc.get?_of_lookupInstance hlookup
      refine ⟨d.tag, _, _, ⟨hfound, rfl⟩, ⟨d, [], _, ⟨hd, rfl⟩, ⟨hto, hdepth, _,
        ⟨raw, hlookup, hnative, hfit, rfl, rfl⟩, rfl⟩, rfl⟩, ?_⟩
      rw [c.registry.message_of_lookup hlookup, List.nil_append]
  | list element =>
    have hnull : c.registry.form f .null = Wire.null :=
      c.registry.form_null (by simp [hk])
    refine spells_orNull hnull hlen rfl
      (fun n => spells_enter hlevels fun m hm =>
        (spells_readItems (hin m hm tag owner element) n).map Value.list) fun v bs => ?_
    rw [arrivesPresent_list hk]
    refine ⟨?_, ?_⟩
    · intro h
      obtain ⟨n, _, _, ⟨hn, rfl⟩, ⟨hdepth, _, ⟨raws, ⟨rfl, hraws⟩, rfl, rfl⟩, rfl⟩, rfl⟩ := h
      exact ⟨hdepth, raws, hn, hraws, rfl, rfl⟩
    · intro h
      obtain ⟨hdepth, raws, hn, hraws, rfl, rfl⟩ := h
      exact ⟨_, _, _, ⟨hn, rfl⟩, ⟨hdepth, _, ⟨raws, ⟨rfl, hraws⟩, rfl, rfl⟩, rfl⟩, rfl⟩
  | map key value =>
    have hnull : c.registry.form f .null = Wire.null :=
      c.registry.form_null (by simp [hk])
    refine spells_orNull hnull hlen rfl
      (fun n => spells_enter hlevels fun m hm =>
        (spells_readEntries (hin m hm tag owner key) (hin m hm tag owner value) n).map Value.map)
      fun v bs => ?_
    rw [arrivesPresent_map hk]
    refine ⟨?_, ?_⟩
    · intro h
      obtain ⟨n, _, _, ⟨hn, rfl⟩, ⟨hdepth, _, ⟨raws, ⟨rfl, hraws⟩, rfl, rfl⟩, rfl⟩, rfl⟩ := h
      exact ⟨hdepth, raws, hn, hraws, rfl, rfl⟩
    · intro h
      obtain ⟨hdepth, raws, hn, hraws, rfl, rfl⟩ := h
      exact ⟨_, _, _, ⟨hn, rfl⟩, ⟨hdepth, _, ⟨raws, ⟨rfl, hraws⟩, rfl, rfl⟩, rfl⟩, rfl⟩

/-- A message is read exactly if it is the form of a native instance that conforms at the root, and
what is received of that is answered, with its type. -/
theorem spells_readMessage : Spells c.readMessage fun m bs =>
    ∃ raw, c.registry.lookupInstance raw = .ok m.1 ∧ raw.Native c.registry ∧ c.Conforms raw 1 ∧
      c.registry.message raw = bs ∧ raw.received c.registry = m.2 := by
  refine Spells.congr ((spells_readRootTag hlength).bind fun tag =>
    (spells_resolve tag).bindOf fun d bs hd => spells_enter (Nat.add_zero _) fun n hn => .map (d, ·)
      (spells_readBody (fun f => spells_readValue hc hlength hn d.tag f.name f) hc
        (Registry.get?_tag_of_get? hd.1))) fun m bs => ?_
  refine ⟨?_, ?_⟩
  · intro h'
    obtain ⟨tag, _, _, ⟨htag, rfl⟩, ⟨d, _, _, ⟨hd, rfl⟩, ⟨hdepth, _, ⟨raw, hlookup, hnative,
      hfit, rfl, rfl⟩, rfl⟩, rfl⟩, rfl⟩ := h'
    obtain rfl := (Registry.mem_of_get? hd).2
    refine ⟨raw, hlookup, hnative, (conforms_of_lookup hlookup).2 ⟨hdepth, htag, hfit⟩, ?_, rfl⟩
    rw [c.registry.message_of_lookup hlookup, List.nil_append]
  · intro h'
    obtain ⟨raw, hlookup, hnative, hi, rfl, hj⟩ := h'
    obtain ⟨d, j⟩ := m
    subst hj
    obtain ⟨hdepth, htag, hfit⟩ := (conforms_of_lookup hlookup).1 hi
    refine ⟨d.tag, _, _, ⟨htag, rfl⟩, ⟨d, [], _, ⟨hc.get?_of_lookupInstance hlookup, rfl⟩,
      ⟨hdepth, _, ⟨raw, hlookup, hnative, hfit, rfl, rfl⟩, rfl⟩, rfl⟩, ?_⟩
    rw [c.registry.message_of_lookup hlookup, List.nil_append]

/-- The messages in front of some bytes are the forms of native instances that conform at the root.
-/
theorem decodePrefix_iff {b : List UInt8} {i : Instance} {n : Nat} :
    c.decodePrefix b = .ok (i, n) ↔ ∃ raw, raw.Native c.registry ∧ c.Conforms raw 1 ∧
      raw.received c.registry = i ∧ n ≤ b.length ∧ c.registry.message raw = b.take n := by
  rw [decodePrefix_eq_ok]
  refine ⟨?_, ?_⟩
  · intro h
    obtain ⟨d, r, hr, rfl⟩ := h
    obtain ⟨_, ⟨raw, -, hnative, hi, rfl, rfl⟩, rfl, hoff⟩ :=
      (spells_readMessage hc hlength _ _ _ _).1 hr
    rw [Nat.zero_add] at hoff
    exact ⟨raw, hnative, hi, rfl, by simp [hoff], by rw [hoff, List.take_left]⟩
  · intro h
    obtain ⟨raw, hnative, hi, rfl, hn, hb⟩ := h
    obtain ⟨-, d, hlookup, -⟩ := conforms_iff.1 hi
    refine ⟨d, ⟨n, b.drop n⟩, ?_, rfl⟩
    refine (spells_readMessage hc hlength _ _ _ _).2
      ⟨b.take n, ⟨raw, hlookup, hnative, hi, hb, rfl⟩, (List.take_append_drop n b).symm, ?_⟩
    rw [List.length_take_of_le hn, Nat.zero_add]

/-- The messages are the forms of native instances that conform at the root. -/
theorem decode_iff {b : List UInt8} {i : Instance} :
    c.decode b = .ok i ↔ ∃ raw, raw.Native c.registry ∧ c.Conforms raw 1 ∧
      raw.received c.registry = i ∧ c.registry.message raw = b := by
  rw [decode_eq_ok]
  refine ⟨?_, ?_⟩
  · intro h
    obtain ⟨d, r, hr, hrest⟩ := h
    obtain ⟨_, ⟨raw, -, hnative, hi, rfl, rfl⟩, rfl, -⟩ :=
      (spells_readMessage hc hlength _ _ _ _).1 hr
    exact ⟨raw, hnative, hi, rfl, by rw [hrest, List.append_nil]⟩
  · intro h
    obtain ⟨raw, hnative, hi, rfl, rfl⟩ := h
    obtain ⟨-, d, hlookup, -⟩ := conforms_iff.1 hi
    refine ⟨d, ⟨(c.registry.message raw).length, []⟩, ?_, rfl⟩
    exact (spells_readMessage hc hlength _ _ _ _).2
      ⟨_, ⟨raw, hlookup, hnative, hi, rfl, rfl⟩, (List.append_nil _).symm, (Nat.zero_add _).symm⟩

end

/-! ## Limits without room for null -/

/-- The codec with a limit on lengths that leaves room for null. -/
def capped (c : Codec) : Codec := { c with limits := c.limits.withMaxLength c.limits.maxLength }

variable (c : Codec)

/-- The limit leaves room for null. -/
theorem maxLength_capped_le : c.capped.limits.maxLength ≤ maxWireLength := Std.min_le_right

/-- Tags are read alike. -/
theorem readTag_capped : c.capped.readTag = c.readTag := by
  unfold readTag
  rw [capped, Read.length_withMaxLength]

/-- Values are read alike. -/
theorem readValue_capped (levels : Nat) (tag owner : String) (f : Field) :
    c.capped.readValue levels tag owner f = c.readValue levels tag owner f := by
  have hlength : Read.length c.capped.limits.maxLength = Read.length c.limits.maxLength :=
    Read.length_withMaxLength c.limits
  induction levels generalizing tag owner f with
  | zero =>
    unfold readValue
    simp only [hlength, readTag_capped]
    rfl
  | succ n ih =>
    unfold readValue
    simp only [hlength, readTag_capped, ih]
    rfl

/-- The tags of messages are read alike. -/
theorem readRootTag_capped : c.capped.readRootTag = c.readRootTag := by
  unfold readRootTag
  rw [readTag_capped]

/-- Messages are read alike. -/
theorem readMessage_capped : c.capped.readMessage = c.readMessage := by
  unfold readMessage
  simp only [readRootTag_capped, readValue_capped]
  rfl

/-- Messages are found alike in front of some bytes. -/
theorem decodePrefix_capped (bytes : List UInt8) :
    c.capped.decodePrefix bytes = c.decodePrefix bytes := by
  unfold decodePrefix
  rw [readMessage_capped]

/-- Tags are found alike in front of some bytes. -/
theorem peekTag_capped (bytes : List UInt8) : c.capped.peekTag bytes = c.peekTag bytes := by
  unfold peekTag
  rw [readRootTag_capped]

/-- Bytes are alike a message or not. -/
theorem decode_capped (bytes : List UInt8) : c.capped.decode bytes = c.decode bytes := by
  unfold decode decodeWhole
  rw [readMessage_capped]

end TagWire.Codec
