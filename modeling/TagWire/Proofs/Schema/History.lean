import Mathlib.Logic.Basic
import TagWire.Proofs.Schema.Steps
import TagWire.Schema.Record

/-!
# Records and what has been stored in them

A fresh record holds what its fields hold at first. From then on it takes values one call at a time,
under an index or under a name, which means the first field of the name. The calls as they run
change the record in place, and look into its values without asking whether there is one
(`Record.Call.perform`, `Record.read`).

What a record holds is told by the calls that have been made (`Record.FilledBy`): a value that one
of them has stored there, which the field accepts, or what the field has held at first, if none of
them has. A required field for instances, or for an enumeration without variants, holds a null at
first that it does not accept. So it is not true that each value is accepted, but only these nulls
are not, and only until they are replaced (`Record.Becomes.invariant`). In particular there always
is a value for each field, so no call looks for one where there is none, and it does what
`Record.setField`, `Record.set` and `Record.get?` say.
-/

namespace TagWire

/-! ## Fields by name -/

namespace Field

/-- Whether the field at an index is the first of a name. -/
def IsFirst (fields : List Field) (name : String) (k : Nat) : Prop :=
  (∃ f, fields[k]? = some f ∧ f.name = name) ∧
    ∀ n < k, ∀ f, fields[n]? = some f → f.name ≠ name

variable {fields : List Field} {name : String} {k : Nat}

/-- A name means the first field of it. -/
theorem indexOf?_eq_some_iff : indexOf? fields name = some k ↔ IsFirst fields name k := by
  rw [indexOf?, List.findIdx?_eq_some_iff_getElem, IsFirst]
  refine ⟨?_, ?_⟩
  · rintro ⟨hk, hname, hbefore⟩
    refine ⟨⟨_, List.getElem?_eq_getElem hk, beq_iff_eq.1 hname⟩, fun n hn f hf => ?_⟩
    obtain ⟨_, rfl⟩ := List.getElem?_eq_some_iff.1 hf
    simpa using hbefore n hn
  · rintro ⟨⟨f, hf, hname⟩, hbefore⟩
    obtain ⟨hk, rfl⟩ := List.getElem?_eq_some_iff.1 hf
    refine ⟨hk, beq_iff_eq.2 hname, fun n hn => ?_⟩
    simpa using hbefore n hn _ (List.getElem?_eq_getElem (Nat.lt_trans hn hk))

/-- A name means nothing if no field has it. -/
theorem indexOf?_eq_none_iff : indexOf? fields name = none ↔ ∀ f ∈ fields, f.name ≠ name := by
  simp [indexOf?, List.findIdx?_eq_none_iff]

/-- Whether a field holds a null at first that it does not accept: it is required, and only its
owner can say what to put there. -/
def StartsNull (f : Field) : Prop :=
  f.nullable = false ∧ ((∃ tag, f.kind = .nested tag) ∨ ∃ name, f.kind = .enum ⟨name, []⟩)

/-- Such a field does not accept what it holds at first. -/
theorem StartsNull.accepts_initial {f : Field} (h : f.StartsNull) :
    f.accepts f.initial = false := by
  obtain ⟨name, kind, nullable⟩ := f
  obtain ⟨rfl, ⟨tag, rfl⟩ | ⟨_, rfl⟩⟩ := h <;> rfl

/-- A field accepts what it holds at first, unless that is a null for want of anything better. -/
theorem accepts_initial (f : Field) :
    f.accepts f.initial = true ∨ f.initial = .null ∧ f.StartsNull := by
  obtain ⟨name, kind, nullable⟩ := f
  cases nullable with
  | true => exact .inl rfl
  | false =>
    cases kind with
    | scalar k => exact .inl (beq_iff_eq.2 k.kind_zero)
    | string | bytes | list | map => exact .inl rfl
    | nested tag => exact .inr ⟨rfl, rfl, .inl ⟨tag, rfl⟩⟩
    | enum e =>
      obtain ⟨_, _ | ⟨variant, variants⟩⟩ := e
      · exact .inr ⟨rfl, rfl, .inr ⟨_, rfl⟩⟩
      · exact .inl (List.elem_eq_true_of_mem (List.mem_cons_self ..))

end Field

namespace Record

/-! ## Calls -/

/-- Why a call has not been carried out. -/
inductive Stop where
  | refused (cause : FieldError)
  /-- There is no value at an index that has been taken for one of a field. -/
  | outOfBounds (index : Nat)

/-- Stores a value under an index in place. -/
def assign (index : Nat) (v : Value) : EStateM Stop Record Unit := do
  match (← get).shape.fields[index]? with
  | none => throw (.refused (.unknownIndex index))
  | some f =>
    if f.accepts v then
      if index < (← get).values.length then
        modify fun r => { r with values := r.values.set index v }
      else throw (.outOfBounds index)
    else throw (.refused (.typeMismatch f.describe v.kindName))

/-- Stores a value under a name in place. -/
def assignNamed (name : String) (v : Value) : EStateM Stop Record Unit := do
  match Field.indexOf? (← get).shape.fields name with
  | none => throw (.refused (.unknownField name))
  | some index => assign index v

/-- Reads the value under a name. -/
def read (r : Record) (name : String) : Except Stop (Option Value) :=
  match Field.indexOf? r.shape.fields name with
  | none => .ok none
  | some index =>
    match r.values[index]? with
    | none => .error (.outOfBounds index)
    | some v => .ok (some v)

/-- A call that stores a value, whatever the value has been converted from. -/
inductive Call where
  /-- Stores under an index. -/
  | store (index : Nat) (v : Value)
  /-- Stores under a name. -/
  | put (name : String) (v : Value)
  /-- Takes the record, stores under a name and gives the record back. A refusal keeps it. -/
  | chain (name : String) (v : Value)

namespace Call

/-- The value that a call is to store. -/
def value : Call → Value
  | store _ v | put _ v | chain _ v => v

/-- The name under which a call is to store its value. -/
def name? : Call → Option String
  | store _ _ => none
  | put name _ | chain name _ => some name

/-- Whether the record is there after a call that has been refused. -/
def returns : Call → Bool
  | store _ _ | put _ _ => true
  | chain _ _ => false

/-- A call as it runs. -/
def perform : Call → EStateM Stop Record Unit
  | store index v => assign index v
  | put name v | chain name v => assignNamed name v

/-- What a call makes of a record. -/
def apply (c : Call) (r : Record) : Except FieldError Record :=
  match c with
  | store index v => r.setField index v
  | put name v => r.set name v
  | chain name v => r.setAll [(name, v)]

/-- Whether a call is about the field at an index. -/
def Addresses (fields : List Field) (k : Nat) : Call → Prop
  | store index _ => index = k ∧ k < fields.length
  | put name _ | chain name _ => Field.IsFirst fields name k

/-- Whether a call stores its value at an index: it is about the field there, which accepts it. -/
def Stores (fields : List Field) (k : Nat) (c : Call) : Prop :=
  c.Addresses fields k ∧ ∃ f, fields[k]? = some f ∧ f.accepts c.value = true

/-- A call is about one field at most. -/
theorem Addresses.unique {fields : List Field} {k n : Nat} {c : Call}
    (hk : c.Addresses fields k) (hn : c.Addresses fields n) : k = n := by
  cases c with
  | store index v => exact hk.1.symm.trans hn.1
  | put name v | chain name v =>
    have h := Field.indexOf?_eq_some_iff.2 hk
    exact Option.some.inj (h.symm.trans (Field.indexOf?_eq_some_iff.2 hn))

end Call

/-- Whether calls in a row may make one record of another. A call that is refused leaves what it has
made of the record, unless it keeps the record. -/
inductive Becomes (r : Record) : List Call → Record → Prop
  | refl : Becomes r [] r
  | stored {calls : List Call} {s t : Record} {c : Call} :
      Becomes r calls s → c.perform s = .ok () t → Becomes r (calls ++ [c]) t
  | refused {calls : List Call} {s t : Record} {c : Call} {cause : FieldError} :
      Becomes r calls s → c.returns = true → c.perform s = .error (.refused cause) t →
      Becomes r (calls ++ [c]) t

variable {r r' s : Record} {c : Call} {calls more : List Call} {cause : FieldError}

/-- Some calls and then others are all of them in a row. -/
theorem Becomes.trans {t : Record} (h : r.Becomes calls s) (h' : s.Becomes more t) :
    r.Becomes (calls ++ more) t := by
  induction h' with
  | refl => rwa [List.append_nil]
  | stored _ hc ih => rw [← List.append_assoc]; exact .stored ih hc
  | refused _ hreturns hc ih => rw [← List.append_assoc]; exact .refused ih hreturns hc

/-! ## One call -/

/-- A record stores under an index what the field there accepts. -/
theorem setField_eq_ok_iff {k : Nat} {v : Value} : r.setField k v = .ok r' ↔
    ∃ f, r.shape.fields[k]? = some f ∧ f.accepts v = true ∧
      r' = { r with values := r.values.set k v } := by
  rw [setField, RecordShape.setField, Except.map_eq_ok]
  cases r.shape.fields[k]? with
  | none => simp
  | some f =>
    cases hv : f.accepts v with
    | false => simp [hv]
    | true =>
      simp only [hv, if_true, Except.ok.injEq, exists_eq_left', Option.some.injEq, true_and]
      exact eq_comm

/-- A record refuses a value under an index, not under a name. -/
theorem setField_ne_unknownField {k : Nat} {v : Value} (name : String) :
    r.setField k v ≠ .error (.unknownField name) := by
  rw [setField, RecordShape.setField, Ne, Except.map_eq_error]
  cases r.shape.fields[k]? with
  | none => simp
  | some f => cases hv : f.accepts v <;> simp [hv]

/-- A record that is stored into once is stored into. -/
theorem setAll_singleton (r : Record) (name : String) (v : Value) :
    r.setAll [(name, v)] = r.set name v := by
  rw [setAll]
  cases r.set name v <;> rfl

/-- A record stores under a name what the first field of the name accepts. -/
theorem set_eq_ok_iff {name : String} {v : Value} : r.set name v = .ok r' ↔
    ∃ k, Field.IsFirst r.shape.fields name k ∧ r.setField k v = .ok r' := by
  simp only [set, ← Field.indexOf?_eq_some_iff]
  cases Field.indexOf? r.shape.fields name <;> simp

/-- A call is carried out exactly if it stores its value somewhere, and changes nothing else. -/
theorem Call.apply_eq_ok_iff : c.apply r = .ok r' ↔
    ∃ k, c.Stores r.shape.fields k ∧ r' = { r with values := r.values.set k c.value } := by
  have hnamed (name : String) (v : Value) : r.set name v = .ok r' ↔
      ∃ k, (Field.IsFirst r.shape.fields name k ∧
        ∃ f, r.shape.fields[k]? = some f ∧ f.accepts v = true) ∧
        r' = { r with values := r.values.set k v } := by
    simp only [set_eq_ok_iff, setField_eq_ok_iff]
    grind
  cases c with
  | store index v =>
    simp only [apply, Stores, Addresses, value, setField_eq_ok_iff]
    grind
  | put name v => exact hnamed name v
  | chain name v => rw [apply, setAll_singleton]; exact hnamed name v

/-- A call is refused for its name exactly if no field has it. -/
theorem Call.unknownField_iff (h : c.apply r = .error cause) (name : String) :
    cause = .unknownField name ↔
      c.name? = some name ∧ ∀ f ∈ r.shape.fields, f.name ≠ name := by
  have hnamed {name' : String} {v : Value} (h : r.set name' v = .error cause) :
      cause = .unknownField name ↔
        some name' = some name ∧ ∀ f ∈ r.shape.fields, f.name ≠ name := by
    rw [← Field.indexOf?_eq_none_iff]
    unfold set at h
    split at h
    next hnone => grind
    next k hk =>
      refine iff_of_false (fun hcause => ?_) fun hnone => ?_
      · exact setField_ne_unknownField name (hcause ▸ h)
      · cases Option.some.inj hnone.1
        rw [hnone.2] at hk
        cases hk
  cases c with
  | store index v =>
    refine iff_of_false (fun hcause => ?_) nofun
    exact setField_ne_unknownField name (hcause ▸ h)
  | put name' v => exact hnamed h
  | chain name' v =>
    rw [apply, setAll_singleton] at h
    exact hnamed h

/-- What looks at a record first goes on with it. -/
theorem bind_get {α : Type} (next : Record → EStateM Stop Record α) (r : Record) :
    (get >>= next) r = next r r :=
  rfl

section
variable (hlength : r.values.length = r.shape.fields.length)
include hlength

/-- A record with a value for each field is stored into in place as in `Record.setField`. -/
theorem assign_eq (k : Nat) (v : Value) : assign k v r =
    match r.setField k v with
    | .ok r' => .ok () r'
    | .error cause => .error (.refused cause) r := by
  unfold assign setField RecordShape.setField
  rw [bind_get]
  cases hf : r.shape.fields[k]? with
  | none => rfl
  | some f =>
    have hk : k < r.values.length := hlength ▸ (List.getElem?_eq_some_iff.1 hf).1
    cases hv : f.accepts v with
    | false =>
      simp only [hv]
      rfl
    | true =>
      simp only [hv, if_true, bind_get, if_pos hk]
      rfl

/-- A call on a record with a value for each field does what it is to do. -/
theorem Call.perform_eq (c : Call) : c.perform r =
    match c.apply r with
    | .ok r' => .ok () r'
    | .error cause => .error (.refused cause) r := by
  have hnamed (name : String) (v : Value) : assignNamed name v r =
      match r.set name v with
      | .ok r' => .ok () r'
      | .error cause => .error (.refused cause) r := by
    unfold assignNamed set
    rw [bind_get]
    cases Field.indexOf? r.shape.fields name with
    | none => rfl
    | some k => exact assign_eq hlength k v
  cases c with
  | store index v => exact assign_eq hlength index v
  | put name v => exact hnamed name v
  | chain name v => rw [apply, setAll_singleton]; exact hnamed name v

/-- A name is read in place as in `Record.get?`, which finds a value exactly if a field has the
name: that of the first such field. -/
theorem read_eq (name : String) : r.read name = .ok (r.get? name) ∧
    (r.get? name = none ↔ ∀ f ∈ r.shape.fields, f.name ≠ name) ∧
    ∀ k, Field.IsFirst r.shape.fields name k → r.get? name = r.values[k]? := by
  rw [← Field.indexOf?_eq_none_iff]
  simp only [← Field.indexOf?_eq_some_iff, read, get?]
  cases hname : Field.indexOf? r.shape.fields name with
  | none => exact ⟨rfl, iff_of_true rfl rfl, nofun⟩
  | some k =>
    obtain ⟨⟨f, hf, -⟩, -⟩ := Field.indexOf?_eq_some_iff.1 hname
    have hk : k < r.values.length := hlength ▸ (List.getElem?_eq_some_iff.1 hf).1
    simp [List.getElem?_eq_getElem hk]

end

/-! ## Calls in a row -/

/-- Whether a record holds what calls on a fresh one may have left there: in each field what one of
them has stored, or what the field has held at first, if none has. -/
structure FilledBy (shape : RecordShape) (calls : List Call) (r : Record) : Prop where
  shape_eq : r.shape = shape
  length_values : r.values.length = shape.fields.length
  source {k : Nat} {f : Field} : shape.fields[k]? = some f → ∃ v, r.values[k]? = some v ∧
    ((∃ c ∈ calls, c.Stores shape.fields k ∧ c.value = v) ∨
      v = f.initial ∧ ∀ c ∈ calls, ¬c.Stores shape.fields k)

namespace FilledBy

variable {shape : RecordShape}

/-- A fresh record holds what its fields hold at first. -/
theorem fresh (shape : RecordShape) : FilledBy shape [] (fresh shape) where
  shape_eq := rfl
  length_values := List.length_map ..
  source {k f} hf :=
    ⟨f.initial, by simp [Record.fresh, RecordShape.initialValues, hf], .inr ⟨rfl, nofun⟩⟩

/-- A value that is stored replaces another one. -/
theorem stored (h : FilledBy shape calls r) (hc : c.apply r = .ok r') :
    FilledBy shape (calls ++ [c]) r' := by
  obtain ⟨rfl, hlength, hsource⟩ := h
  obtain ⟨n, hn, rfl⟩ := Call.apply_eq_ok_iff.1 hc
  refine ⟨rfl, by simpa using hlength, fun {k f} hf => ?_⟩
  rcases eq_or_ne n k with rfl | hne
  · have hlt : n < r.values.length := hlength ▸ (List.getElem?_eq_some_iff.1 hf).1
    exact ⟨c.value, List.getElem?_set_self hlt, .inl ⟨c, by simp, hn, rfl⟩⟩
  · obtain ⟨v, hv, hfrom⟩ := hsource hf
    refine ⟨v, by rw [List.getElem?_set_ne hne, hv], ?_⟩
    rcases hfrom with ⟨d, hd, hstores⟩ | ⟨hinitial, hnone⟩
    · exact .inl ⟨d, List.mem_append_left _ hd, hstores⟩
    · refine .inr ⟨hinitial, List.forall_mem_append.2 ⟨hnone, List.forall_mem_singleton.2 ?_⟩⟩
      exact fun hk => hne (hn.1.unique hk.1)

/-- A refusal changes nothing, and nothing has been stored. -/
theorem refused (h : FilledBy shape calls r) (hc : c.apply r = .error cause) :
    FilledBy shape (calls ++ [c]) r := by
  obtain ⟨rfl, hlength, hsource⟩ := h
  have hnone (k : Nat) : ¬c.Stores r.shape.fields k := by
    intro hk
    rw [Call.apply_eq_ok_iff.2 ⟨k, hk, rfl⟩] at hc
    cases hc
  refine ⟨rfl, hlength, fun {k f} hf => ?_⟩
  obtain ⟨v, hv, ⟨d, hd, hstores⟩ | ⟨hinitial, hbefore⟩⟩ := hsource hf
  · exact ⟨v, hv, .inl ⟨d, List.mem_append_left _ hd, hstores⟩⟩
  · refine ⟨v, hv, .inr ⟨hinitial, ?_⟩⟩
    exact List.forall_mem_append.2 ⟨hbefore, List.forall_mem_singleton.2 (hnone k)⟩

/-- What a field holds it accepts, or it is the null that it has held at first and that has never
been replaced. -/
theorem accepts (h : FilledBy shape calls r) {k : Nat} {f : Field}
    (hf : shape.fields[k]? = some f) : ∃ v, r.values[k]? = some v ∧
      (f.accepts v = true ∨
        v = .null ∧ f.StartsNull ∧ ∀ c ∈ calls, ¬c.Stores shape.fields k) := by
  obtain ⟨v, hv, ⟨c, -, ⟨-, g, hg, haccepts⟩, rfl⟩ | ⟨rfl, hnone⟩⟩ := h.source hf
  · cases hf.symm.trans hg
    exact ⟨_, hv, .inl haccepts⟩
  · rcases f.accepts_initial with haccepts | ⟨hnull, hstarts⟩
    · exact ⟨_, hv, .inl haccepts⟩
    · exact ⟨_, hv, .inr ⟨hnull, hstarts, hnone⟩⟩

end FilledBy

/-- Calls on a fresh record leave in its fields what they have stored there, by induction on the
calls. -/
theorem Becomes.filledBy {shape : RecordShape} (h : (fresh shape).Becomes calls r) :
    FilledBy shape calls r := by
  induction h with
  | refl => exact .fresh shape
  | @stored calls s t c _ hc ih =>
    rw [c.perform_eq (ih.shape_eq ▸ ih.length_values)] at hc
    cases happly : c.apply s with
    | error cause => rw [happly] at hc; cases hc
    | ok t' =>
      rw [happly] at hc
      cases hc
      exact ih.stored happly
  | @refused calls s t c cause _ _ hc ih =>
    rw [c.perform_eq (ih.shape_eq ▸ ih.length_values)] at hc
    cases happly : c.apply s with
    | ok t' => rw [happly] at hc; cases hc
    | error cause' =>
      rw [happly] at hc
      cases hc
      exact ih.refused happly

/-- What a program can rely on in a record, whatever calls it has made and whichever of them have
been refused. There is a value for each field. The field accepts it, or it is the null that the
field has held at first and that has never been replaced; once it has been, the field holds what it
accepts ever after. A further call does what it is to do: it is carried out exactly if the field
that it is about accepts its value, which is read back then while the others are as before; or it
is refused and leaves the record as it is, for the name exactly if no field has it. A name is about
the first field that has it, and no value is found exactly if there is none. -/
theorem Becomes.invariant {shape : RecordShape} (h : (fresh shape).Becomes calls r) :
    (r.shape = shape ∧ r.values.length = shape.fields.length) ∧
    (∀ (k : Nat) (f : Field), shape.fields[k]? = some f → ∃ v, r.values[k]? = some v ∧
      (f.accepts v = true ∨
        v = .null ∧ f.StartsNull ∧ ∀ c ∈ calls, ¬c.Stores shape.fields k)) ∧
    (∀ more s, r.Becomes more s → ∀ (k : Nat) (f : Field) v, shape.fields[k]? = some f →
      r.values[k]? = some v → f.accepts v = true →
        ∃ w, s.values[k]? = some w ∧ f.accepts w = true) ∧
    (∀ c : Call,
      c.perform r =
        (match c.apply r with
        | .ok r' => .ok () r'
        | .error cause => .error (.refused cause) r) ∧
      ((∃ r', c.apply r = .ok r') ↔ ∃ k, c.Stores shape.fields k) ∧
      (∀ r', c.apply r = .ok r' → r'.shape = shape ∧ ∃ k, c.Addresses shape.fields k ∧
        ∀ n, r'.values[n]? = if n = k then some c.value else r.values[n]?) ∧
      ∀ cause, c.apply r = .error cause → ∀ name, cause = .unknownField name ↔
        c.name? = some name ∧ ∀ f ∈ shape.fields, f.name ≠ name) ∧
    ∀ name, r.read name = .ok (r.get? name) ∧
      (r.get? name = none ↔ ∀ f ∈ shape.fields, f.name ≠ name) ∧
      ∀ k, Field.IsFirst shape.fields name k → r.get? name = r.values[k]? := by
  have hfilled := h.filledBy
  obtain rfl := hfilled.shape_eq
  have hlength := hfilled.length_values
  refine ⟨⟨rfl, hlength⟩, fun k f => hfilled.accepts, ?_,
    fun c => ⟨c.perform_eq hlength, ?_, ?_, ?_⟩, read_eq hlength⟩
  · intro more s hs k f v hf hv haccepts
    obtain ⟨w, hw, haccepts' | ⟨rfl, hstarts, hnone⟩⟩ := (h.trans hs).filledBy.accepts hf
    · exact ⟨w, hw, haccepts'⟩
    · -- A null that is still there has been there before, where the field does not accept it.
      obtain ⟨_, hv', ⟨c, hc, hstores, -⟩ | ⟨rfl, -⟩⟩ := hfilled.source hf
      · exact absurd hstores (hnone c (List.mem_append_left _ hc))
      · cases hv.symm.trans hv'
        rw [hstarts.accepts_initial] at haccepts
        cases haccepts
  · simp only [Call.apply_eq_ok_iff]
    exact ⟨fun ⟨_, k, hk, _⟩ => ⟨k, hk⟩, fun ⟨k, hk⟩ => ⟨_, k, hk, rfl⟩⟩
  · intro r' hr'
    obtain ⟨k, hk, rfl⟩ := Call.apply_eq_ok_iff.1 hr'
    refine ⟨rfl, k, hk.1, fun n => ?_⟩
    obtain ⟨f, hf, -⟩ := hk.2
    have hlt : k < r.values.length := hlength ▸ (List.getElem?_eq_some_iff.1 hf).1
    split
    next hn => rw [hn, List.getElem?_set_self hlt]
    next hn => rw [List.getElem?_set_ne (Ne.symm hn)]
  · exact fun cause hcause => Call.unknownField_iff hcause

/-- A station has a user, a unit without variants and two fields of one name. The first of these
refuses a text and takes a number. The user is stored, the unit stays the null that it has been. -/
theorem invariant_station :
    let shape : RecordShape := ⟨"Station", [⟨"id", .scalar .u32, false⟩,
      ⟨"user", .nested "User", false⟩, ⟨"unit", .enum ⟨"Unit", []⟩, false⟩, ⟨"id", .string, true⟩]⟩
    let user : Value := .nested (.entity (.user ⟨some "ops"⟩))
    let calls : List Call := [.put "id" (.string "a"), .put "id" (.scalar (.u32 7)),
      .store 2 (.enum "C"), .chain "user" user, .store 4 .null]
    let r : Record := ⟨shape, [.scalar (.u32 7), user, .null, .null]⟩
    (fresh shape).Becomes calls r ∧ r.values.length = shape.fields.length ∧
      r.read "id" = .ok (some (.scalar (.u32 7))) ∧
      (∀ c ∈ calls, ¬c.Stores shape.fields 2) ∧
      Call.perform (.store 1 .null) r =
        .error (.refused (.typeMismatch "nested<User>" "null")) r := by
  intro shape user calls r
  have hr : (fresh shape).Becomes calls r :=
    .refused (.stored (.refused (.stored (.refused .refl rfl rfl) rfl) rfl rfl) rfl) rfl rfl
  obtain ⟨⟨-, hlength⟩, haccepts, -, hcalls, hnames⟩ := hr.invariant
  refine ⟨hr, hlength, (hnames "id").1, ?_, (hcalls _).1⟩
  obtain ⟨v, hv, h | ⟨-, -, hnone⟩⟩ := haccepts 2 _ rfl
  · cases hv
    cases h
  · exact hnone

end Record

end TagWire
