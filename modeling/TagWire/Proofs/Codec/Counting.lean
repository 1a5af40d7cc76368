import TagWire.Proofs.Codec.Streaming
import TagWire.Proofs.Registry.Native
import TagWire.Proofs.Schema.Accessing

/-!
# Counting values

The values that a decoder begins to read are counted by following it along the message, whether it
succeeds or fails (`Codec.valuesBegun`). Where it succeeds, they are all the values in the instance
that it answers, at any depth (`Codec.valuesBegun_eq`): setters change texts at most, and a fresh
instance has no more values than its type has fields.
-/

namespace TagWire

open TagWire.Localization (Entity)

/-! ## Values in a tree -/

mutual

/-- How many values a value is, with those inside it. -/
def Value.valueCount : Value → Nat
  | .list items => 1 + Value.listValueCount items
  | .map entries => 1 + Value.entriesValueCount entries
  | .nested i => 1 + i.valueCount
  | .null | .scalar _ | .string _ | .bytes _ | .enum _ => 1
termination_by v => (v.weight, 1)
decreasing_by all_goals simp only [Value.weight]; decreasing_tactic

/-- How many values are in an instance, at any depth. -/
def Instance.valueCount (i : Instance) : Nat := Value.listValueCount i.values
termination_by (i.weight, 0)
decreasing_by exact Prod.Lex.left _ _ i.weight_values

/-- How many values are in a list, at any depth. -/
def Value.listValueCount : List Value → Nat
  | [] => 0
  | v :: vs => v.valueCount + Value.listValueCount vs
termination_by vs => (Value.listWeight vs, 0)
decreasing_by all_goals simp only [Value.listWeight]; apply Prod.Lex.left; omega

/-- How many values are in the entries of a map, at any depth. -/
def Value.entriesValueCount : List (Value × Value) → Nat
  | [] => 0
  | (k, v) :: es => k.valueCount + v.valueCount + Value.entriesValueCount es
termination_by es => (Value.entriesWeight es, 0)
decreasing_by all_goals simp only [Value.entriesWeight]; apply Prod.Lex.left; omega

end

/-- The values of two lists in a row. -/
theorem Value.listValueCount_append (vs ws : List Value) :
    listValueCount (vs ++ ws) = listValueCount vs + listValueCount ws := by
  induction vs with
  | nil => simp [listValueCount]
  | cons v vs ih => simp only [List.cons_append, listValueCount, ih, Nat.add_assoc]

/-- A setter keeps a value as one with as many values in it. -/
theorem Value.KeptAs.valueCount_eq {v w : Value} (h : v.KeptAs w) :
    w.valueCount = v.valueCount := by
  cases h with
  | same => rfl
  | fileName s => simp only [Value.valueCount]

namespace Read

variable {α β : Type}

/-- The values that are begun behind a computation: none if it fails. -/
def begunAfter (p : Read α) (begun : α → Reader → Nat) (r : Reader) : Nat :=
  match p r with
  | .ok a r => begun a r
  | .error _ _ => 0

/-- Whether a count is that of what a computation answers, if it does. -/
def Counts (count : α → Nat) (p : Read α) (begun : Reader → Nat) : Prop :=
  ∀ r a r', p r = .ok a r' → begun r = count a

namespace Counts

variable {count : α → Nat}

/-- An answer that is given at once. -/
theorem pure {a : α} {n : Nat} (h : n = count a) : Counts count (Pure.pure a) fun _ => n := by
  intro r a' r' ha
  cases ha
  exact h

/-- A failure answers nothing. -/
theorem throw {e : CodecError} {begun : Reader → Nat} :
    Counts count (MonadExcept.throw e) begun := by
  intro r a r' h
  cases h

/-- What is answered behind something else, as many values as it may be. -/
theorem bind {p : Read β} {f : β → Read α} {n : Nat} (h : ∀ b, Counts count (f b) fun _ => n) :
    Counts count (p >>= f) fun _ => n := by
  intro r a r'' ha
  obtain ⟨b, r', -, ha⟩ := bind_eq_ok.1 ha
  exact h b r' a r'' ha

/-- What is answered behind something else, with some values counted in front. It is looked at only
behind an answer of the first. -/
theorem behindOf {p : Read β} {f : β → Read α} {begun : β → Reader → Nat} {n : Nat}
    (h : ∀ b, (∃ r r', p r = .ok b r') → Counts count (f b) fun r => n + begun b r) :
    Counts count (p >>= f) fun r => n + begunAfter p begun r := by
  intro r a r'' ha
  obtain ⟨b, r', hb, ha⟩ := bind_eq_ok.1 ha
  simp only [begunAfter, hb]
  exact h b ⟨r, r', hb⟩ r' a r'' ha

/-- What is answered behind something else, with some values counted in front. -/
theorem behind {p : Read β} {f : β → Read α} {begun : β → Reader → Nat} {n : Nat}
    (h : ∀ b, Counts count (f b) fun r => n + begun b r) :
    Counts count (p >>= f) fun r => n + begunAfter p begun r :=
  behindOf fun b _ => h b

/-- An answer in another form. -/
theorem map {count : β → Nat} {p : Read α} {g : α → β} {begun : Reader → Nat}
    (h : Counts (fun a => count (g a)) p begun) : Counts count (do return g (← p)) begun := by
  intro r b r'' hb
  obtain ⟨a, r', ha, hb⟩ := bind_eq_ok.1 hb
  cases hb
  exact h r a _ ha

end Counts

end Read

namespace Codec

open Read (Counts begunAfter)

/-! ## Values begun -/

/-- The values begun in fields, up to the first that fails. -/
def begunFields (read : Field → Read Value) (begun : Field → Reader → Nat) :
    Nat → List Field → Instance → Reader → Nat
  | _, [], _, _ => 0
  | index, f :: fs, i, r =>
    begun f r + begunAfter (read f) (fun v r =>
      match i.setField index v with
      | .ok i => begunFields read begun (index + 1) fs i r
      | .error _ => 0) r

/-- The values begun in items, up to the first that fails. -/
def begunItems (read : Read Value) (begun : Reader → Nat) : Nat → Reader → Nat
  | 0, _ => 0
  | n + 1, r => begun r + begunAfter read (fun _ => begunItems read begun n) r

/-- The values begun in the entries of a map, up to the first that fails. -/
def begunEntries (readKey readValue : Read Value) (begunKey begunValue : Reader → Nat) :
    Nat → Reader → Nat
  | 0, _ => 0
  | n + 1, r =>
    begunKey r + begunAfter readKey (fun _ r => begunValue r + begunAfter readValue
      (fun _ => begunEntries readKey readValue begunKey begunValue n) r) r

/-- The values begun where `Codec.readValue` reads a value: the value and those inside it. -/
def begunValue (c : Codec) : Nat → String → String → Field → Reader → Nat
  | levels, tag, owner, f =>
    match f.kind with
    | .nested declared => fun r =>
      1 + begunAfter c.readTag (fun found? r =>
        match found? with
        | none => 0
        | some found => begunAfter (c.resolve found) (fun d r =>
          if c.registry.isAssignable d.tag declared then
            match levels with
            | 0 => 0
            | levels + 1 =>
              begunFields (fun f => c.readValue levels d.tag f.name f)
                (fun f => c.begunValue levels d.tag f.name f) 0 d.fields d.prototype r
          else 0) r) r
    | .list element => fun r =>
      1 + begunAfter (Read.length c.limits.maxLength) (fun n? r =>
        match n? with
        | none => 0
        | some n =>
          match levels with
          | 0 => 0
          | levels + 1 =>
            begunItems (c.readValue levels tag owner element)
              (c.begunValue levels tag owner element) n r) r
    | .map key value => fun r =>
      1 + begunAfter (Read.length c.limits.maxLength) (fun n? r =>
        match n? with
        | none => 0
        | some n =>
          match levels with
          | 0 => 0
          | levels + 1 =>
            begunEntries (c.readValue levels tag owner key) (c.readValue levels tag owner value)
              (c.begunValue levels tag owner key) (c.begunValue levels tag owner value) n r) r
    | _ => fun _ => 1
termination_by structural levels => levels

/-- The values begun in the body of a message. -/
def begunBody (c : Codec) (d : Descriptor) (r : Reader) : Nat :=
  match c.limits.maxDepth.toNat with
  | 0 => 0
  | levels + 1 =>
    begunFields (fun f => c.readValue levels d.tag f.name f)
      (fun f => c.begunValue levels d.tag f.name f) 0 d.fields d.prototype r

/-- The values that are begun when the message at the front of some bytes is decoded: all of them if
it is read to its end, those up to the failure otherwise. -/
def valuesBegun (c : Codec) (bytes : List UInt8) : Nat :=
  begunAfter c.readRootTag (fun tag => begunAfter (c.resolve tag) c.begunBody) (Reader.start bytes)

/-- A value counts itself. -/
theorem begunValue_pos (c : Codec) (levels : Nat) (tag owner : String) (f : Field) (r : Reader) :
    0 < c.begunValue levels tag owner f r := by
  unfold begunValue
  cases f.kind with
  | scalar | string | bytes | enum => exact Nat.one_pos
  | nested | list | map => exact Nat.lt_of_lt_of_le Nat.one_pos (Nat.le_add_right ..)

/-! ## Values begun are values answered -/

variable {c : Codec}

/-- A tag is looked up without moving the reader, exactly if it is registered. -/
theorem resolve_eq_ok {tag : String} {d : Descriptor} {r r' : Reader} :
    c.resolve tag r = .ok d r' ↔ c.registry.get? tag = some d ∧ r' = r := by
  unfold resolve Registry.lookup
  cases c.registry.get? tag with
  | none => exact ⟨nofun, nofun⟩
  | some e =>
    refine ⟨?_, ?_⟩
    · intro h
      cases h
      exact ⟨rfl, rfl⟩
    · intro h
      obtain ⟨⟨⟩, rfl⟩ := h
      rfl

/-- Null is a value. -/
theorem counts_readNull (tag owner : String) (f : Field) :
    Counts Value.valueCount (readNull tag owner f) fun _ => 1 := by
  unfold readNull
  split
  · exact .pure (by rw [Value.valueCount])
  · exact .throw

/-- A scalar is a value, or null is. -/
theorem counts_readScalar (f : Field) (k : ScalarKind) :
    Counts Value.valueCount (readScalar f k) fun _ => 1 := by
  have hk : Counts Value.valueCount (do return Value.scalar (← Read.scalar k)) fun _ => 1 :=
    .bind fun _ => .pure (by rw [Value.valueCount])
  unfold readScalar
  split
  · refine .bind fun present => ?_
    cases present with
    | false => exact .pure (by rw [Value.valueCount])
    | true => exact hk
  · exact hk

/-- A variant is a value. -/
theorem counts_readVariant (e : Enumeration) (start n : Nat) :
    Counts Value.valueCount (readVariant e start n) fun _ => 1 := by
  refine .bind fun variant => ?_
  split
  · exact .pure (by rw [Value.valueCount])
  · exact .throw

/-- Items are counted one by one. -/
theorem counts_readItems {read : Read Value} {begun : Reader → Nat}
    (h : Counts Value.valueCount read begun) (n : Nat) :
    Counts Value.listValueCount (readItems read n) (begunItems read begun n) := by
  induction n with
  | zero => exact .pure (by rw [Value.listValueCount])
  | succ n ih =>
    intro r vs r' hr
    obtain ⟨v, r₁, hv, hr⟩ := Read.bind_eq_ok.1 hr
    obtain ⟨vs, r₂, hvs, hr⟩ := Read.bind_eq_ok.1 hr
    cases hr
    simp only [begunItems, begunAfter, hv, Value.listValueCount, h _ _ _ hv, ih _ _ _ hvs]

/-- Entries are counted one by one, a key and a value for each. -/
theorem counts_readEntries {readKey readValue : Read Value} {begunKey begunValue : Reader → Nat}
    (hk : Counts Value.valueCount readKey begunKey)
    (hv : Counts Value.valueCount readValue begunValue) (n : Nat) :
    Counts Value.entriesValueCount (readEntries readKey readValue n)
      (begunEntries readKey readValue begunKey begunValue n) := by
  induction n with
  | zero => exact .pure (by rw [Value.entriesValueCount])
  | succ n ih =>
    intro r es r' hr
    obtain ⟨k, r₁, hkey, hr⟩ := Read.bind_eq_ok.1 hr
    obtain ⟨v, r₂, hvalue, hr⟩ := Read.bind_eq_ok.1 hr
    obtain ⟨es, r₃, hes, hr⟩ := Read.bind_eq_ok.1 hr
    cases hr
    simp only [begunEntries, begunAfter, hkey, hvalue, Value.entriesValueCount, hk _ _ _ hkey,
      hv _ _ _ hvalue, ih _ _ _ hes, Nat.add_assoc]

/-- Fields that are read replace the values that an instance still has of its own, by induction on
the fields that are left. -/
theorem valueCount_of_readFields {read : Field → Read Value} {begun : Field → Reader → Nat}
    (h : ∀ f, Counts Value.valueCount (read f) (begun f)) {tag : String} {fs : List Field}
    {i j : Instance} {done old : List Value} (hvalues : i.values = done ++ old)
    (hold : old.length = fs.length) {r r' : Reader}
    (hr : readFields read tag done.length fs i r = .ok j r') :
    j.valueCount = Value.listValueCount done + begunFields read begun done.length fs i r := by
  induction fs generalizing i done old r with
  | nil =>
    cases List.eq_nil_of_length_eq_zero hold
    cases hr
    rw [Instance.valueCount, hvalues, List.append_nil, begunFields, Nat.add_zero]
  | cons f fs ih =>
    cases old with
    | nil => cases hold
    | cons x old =>
      obtain ⟨v, r₁, hv, hr⟩ := Read.bind_eq_ok.1 hr
      cases hset : i.setField done.length v with
      | error cause =>
        rw [hset] at hr
        cases hr
      | ok i' =>
        rw [hset] at hr
        obtain ⟨w, hw, hvalues'⟩ := Instance.values_of_setField hset
        have hvalues' : i'.values = (done ++ [w]) ++ old := by simp [hvalues', hvalues]
        have hlength : (done ++ [w]).length = done.length + 1 := List.length_append
        have hcount := ih hvalues' (Nat.succ.inj hold) (hlength ▸ hr)
        rw [hcount, hlength, Value.listValueCount_append]
        simp only [Value.listValueCount, begunFields, begunAfter, hv, hset, hw.valueCount_eq,
          h f _ _ _ hv, Nat.add_zero, Nat.add_assoc]

section
variable (hc : ∀ d ∈ c.registry.types, d.prototype.values.length = d.fields.length)
include hc

/-- The values begun in the body of a type are those of the instance. -/
theorem counts_readBody {read : Field → Read Value} {begun : Field → Reader → Nat}
    (h : ∀ f, Counts Value.valueCount (read f) (begun f)) {d : Descriptor}
    (hd : d ∈ c.registry.types) :
    Counts Instance.valueCount (readBody read d)
      (begunFields read begun 0 d.fields d.prototype) := by
  intro r j r' hr
  have hcount := valueCount_of_readFields h (List.nil_append d.prototype.values).symm (hc d hd) hr
  rw [hcount, Value.listValueCount, Nat.zero_add]
  rfl

/-- The values begun where a value is read are those in it, by induction on the levels that may
still be entered. -/
theorem counts_readValue (levels : Nat) (tag owner : String) (f : Field) :
    Counts Value.valueCount (c.readValue levels tag owner f) (c.begunValue levels tag owner f) := by
  induction levels using Nat.strongRecOn generalizing tag owner f with
  | ind levels ih =>
  have hnull := counts_readNull tag owner f
  unfold readValue begunValue
  cases f.kind with
  | scalar k => exact counts_readScalar f k
  | string =>
    refine .bind fun n? => ?_
    cases n? with
    | none => exact hnull
    | some n => exact .bind fun _ => .pure (by rw [Value.valueCount])
  | bytes =>
    refine .bind fun n? => ?_
    cases n? with
    | none => exact hnull
    | some n => exact .bind fun _ => .pure (by rw [Value.valueCount])
  | enum e =>
    refine .bind fun start => .bind fun n? => ?_
    cases n? with
    | none => exact hnull
    | some n => exact counts_readVariant e start n
  | nested declared =>
    refine .behind fun tag? => ?_
    cases tag? with
    | none => exact hnull
    | some found =>
      refine .behindOf fun d hd => ?_
      obtain ⟨_, _, hd⟩ := hd
      have hmem := (Registry.mem_of_get? (resolve_eq_ok.1 hd).1).1
      by_cases hto : c.registry.isAssignable d.tag declared = true
      · simp only [if_pos hto]
        cases levels with
        | zero => exact .throw
        | succ n =>
          refine .map fun r j r' hr => ?_
          simp only [Value.valueCount,
            counts_readBody hc (fun f => ih n n.lt_succ_self d.tag f.name f) hmem r j r' hr]
      · simp only [if_neg hto]
        exact .throw
  | list element =>
    refine .behind fun n? => ?_
    cases n? with
    | none => exact hnull
    | some count =>
      cases levels with
      | zero => exact .throw
      | succ n =>
        refine .map fun r vs r' hr => ?_
        simp only [Value.valueCount,
          counts_readItems (ih n n.lt_succ_self tag owner element) _ r vs r' hr]
  | map key value =>
    refine .behind fun n? => ?_
    cases n? with
    | none => exact hnull
    | some count =>
      cases levels with
      | zero => exact .throw
      | succ n =>
        refine .map fun r es r' hr => ?_
        simp only [Value.valueCount, counts_readEntries (ih n n.lt_succ_self tag owner key)
          (ih n n.lt_succ_self tag owner value) _ r es r' hr]

/-- The values begun when a message is read are those in the instance. -/
theorem valuesBegun_eq {b : List UInt8} {i : Instance} {n : Nat}
    (h : c.decodePrefix b = .ok (i, n)) : c.valuesBegun b = i.valueCount := by
  obtain ⟨d, r, hr, -⟩ := c.decodePrefix_eq_ok.1 h
  obtain ⟨tag, r₁, hroot, hr⟩ := Read.bind_eq_ok.1 hr
  obtain ⟨e, r₂, he, hr⟩ := Read.bind_eq_ok.1 hr
  have hmem := (Registry.mem_of_get? (resolve_eq_ok.1 he).1).1
  simp only [valuesBegun, begunAfter, hroot, he, begunBody]
  cases hlevels : c.limits.maxDepth.toNat with
  | zero =>
    rw [hlevels] at hr
    cases hr
  | succ levels =>
    rw [hlevels] at hr
    obtain ⟨j, r₃, hbody, hr⟩ := Read.bind_eq_ok.1 hr
    cases hr
    exact counts_readBody hc (fun f => counts_readValue hc levels d.tag f.name f) hmem _ _ _ hbody

end

end Codec

end TagWire
