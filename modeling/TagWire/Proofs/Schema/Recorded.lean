import TagWire.Proofs.Schema.Storing

/-!
# Localization types as records

What an entity holds can be held by records of the same fields, `Localization.Entity.record`. Only
the setters differ: that of a record stores what its field accepts, that of an entity drops the
separator in front of a file name. In a field, an entity takes what the field accepts, if that is
a context or a user where one is expected, and changes in no other field
(`Localization.Entity.setField_of_takes`).
-/

namespace TagWire

open TagWire.Localization (Choice Context Entity EntityType bareName)

/-! ## Records of entities -/

/-- The shape of records with the tag and the fields of a localization type. -/
def Localization.EntityType.shape (t : EntityType) : RecordShape := ⟨t.tag, t.fields⟩

/-- The value with a nested entity replaced by a record. Contexts and users, which are all that an
entity holds, do not hold any further entity. -/
def Value.recorded : Value → Value
  | .nested (.entity e) => .nested (.record e.type.shape e.values)
  | v => v

/-- The record that holds what an entity holds, with records in the place of entities. -/
def Localization.Entity.record (e : Entity) : Instance :=
  .record e.type.shape (e.values.map Value.recorded)

/-- There is no entity in what a context or a user holds. -/
theorem Localization.Entity.record_of_request {e : Entity} (h : e.request? = none) :
    e.record = .record e.type.shape e.values := by
  cases e with
  | user u =>
    obtain ⟨userId⟩ := u
    cases userId <;> rfl
  | context c =>
    obtain ⟨tree, level, contextName⟩ := c
    cases contextName <;> rfl
  | streamRequest | getRequest | putRequest => cases h

/-- A nested context or user is replaced by its record. -/
theorem Value.recorded_nested {e : Entity} (h : e.request? = none) :
    (Value.nested (.entity e)).recorded = .nested e.record := by
  rw [Entity.record_of_request h, recorded]

/-! ## Separators -/

mutual

/-- The value of a field without the separators in front of file names. -/
def Value.dropSeparators (f : Field) : Value → Value
  | .string s => .string (if f.name = "fileName" then bareName s else s)
  | .nested i => .nested i.dropSeparators
  | v => v
termination_by structural v => v

/-- The instance with one separator dropped from each file name in it that starts with one. Lists
and maps, which no localization type has, are left alone. -/
def Instance.dropSeparators : Instance → Instance
  | .record shape vs => .record shape (Value.dropSeparatorsList shape.fields vs)
  | .entity e => .entity e.normalized
termination_by structural i => i

/-- `Value.dropSeparators` on the values of some fields. -/
def Value.dropSeparatorsList : List Field → List Value → List Value
  | f :: fs, v :: vs => v.dropSeparators f :: Value.dropSeparatorsList fs vs
  | _, vs => vs
termination_by structural _ vs => vs

end

/-- There are as many values without separators. -/
theorem Value.length_dropSeparatorsList (fs : List Field) (vs : List Value) :
    (Value.dropSeparatorsList fs vs).length = vs.length := by
  induction vs generalizing fs with
  | nil => cases fs <;> rfl
  | cons v vs ih =>
    cases fs with
    | nil => rfl
    | cons f fs => simp [dropSeparatorsList, ih]

/-- Each field has its value without separators. -/
theorem Value.getElem?_dropSeparatorsList {fs : List Field} {f : Field} {n : Nat}
    (h : fs[n]? = some f) (vs : List Value) :
    (Value.dropSeparatorsList fs vs)[n]? = vs[n]?.map (Value.dropSeparators f) := by
  induction vs generalizing fs n with
  | nil => cases fs <;> rfl
  | cons v vs ih =>
    cases fs with
    | nil => cases h
    | cons g fs =>
      cases n with
      | zero =>
        cases h
        rfl
      | succ n => exact ih h

/-! ## What a field takes -/

/-- No two localization types share a tag. -/
theorem Localization.EntityType.tag_injective : Function.Injective EntityType.tag := by
  intro t t'
  cases t <;> cases t' <;> decide

/-- Whether an entity takes a value for a field: one that the field accepts, where a nested instance
is an entity of the type declared. -/
def Field.Takes (f : Field) (v : Value) : Prop :=
  f.accepts v = true ∧
    ∀ i, v = .nested i → ∃ e : Entity, i = .entity e ∧ f.kind = .nested e.type.tag

namespace Field.Takes

variable {name : String} {v : Value}

/-- An optional text is a text or null. -/
theorem text (h : Takes ⟨name, .string, true⟩ v) : ∃ s?, v = .ofOptionalText s? := by
  have hv := h.1
  cases v with
  | null => exact ⟨none, rfl⟩
  | string s => exact ⟨some s, rfl⟩
  | _ => cases hv

/-- An optional byte string is bytes or null. -/
theorem bytes (h : Takes ⟨name, .bytes, true⟩ v) : ∃ b?, v = .ofOptionalBytes b? := by
  have hv := h.1
  cases v with
  | null => exact ⟨none, rfl⟩
  | bytes b => exact ⟨some b, rfl⟩
  | _ => cases hv

/-- A number of 32 bits is one. -/
theorem i32 (h : Takes ⟨name, .scalar .i32, false⟩ v) : ∃ n, v = .scalar (.i32 n) := by
  have hv := h.1
  cases v with
  | scalar s =>
    cases s with
    | i32 n => exact ⟨n, rfl⟩
    | _ => cases hv
  | _ => cases hv

/-- A boolean is one. -/
theorem bool (h : Takes ⟨name, .scalar .bool, false⟩ v) : ∃ b, v = .scalar (.bool b) := by
  have hv := h.1
  cases v with
  | scalar s =>
    cases s with
    | bool b => exact ⟨b, rfl⟩
    | _ => cases hv
  | _ => cases hv

/-- A choice is the name of one. -/
theorem choice {α : Type} [Choice α] (h : Takes ⟨name, .enum (Choice.enumeration α), false⟩ v) :
    ∃ a : α, v = .enum (Choice.wireName a) := by
  have hv := h.1
  cases v with
  | enum variant =>
    have hmem : variant ∈ (Choice.all (α := α)).map Choice.wireName := List.mem_of_elem_eq_true hv
    obtain ⟨a, -, rfl⟩ := List.mem_map.1 hmem
    exact ⟨a, rfl⟩
  | _ => cases hv

/-- A nested value is an entity of the type declared. -/
theorem nested {i : Instance} {t : EntityType} {nullable : Bool}
    (h : Takes ⟨name, .nested t.tag, nullable⟩ (.nested i)) :
    ∃ e : Entity, i = .entity e ∧ e.type = t := by
  obtain ⟨e, rfl, htag⟩ := h.2 i rfl
  exact ⟨e, rfl, EntityType.tag_injective (FieldKind.nested.inj htag).symm⟩

/-- An optional context is a context or null. -/
theorem context (h : Takes ⟨name, .nested EntityType.context.tag, true⟩ v) :
    ∃ c? : Option Context, v = match c? with
      | none => .null
      | some c => .nested (.entity (.context c)) := by
  have hv := h.1
  cases v with
  | null => exact ⟨none, rfl⟩
  | nested i =>
    obtain ⟨e, rfl, htype⟩ := h.nested
    cases e with
    | context c => exact ⟨some c, rfl⟩
    | _ => cases htype
  | _ => cases hv

/-- A user is one. -/
theorem user (h : Takes ⟨name, .nested EntityType.user.tag, false⟩ v) :
    ∃ u, v = .nested (.entity (.user u)) := by
  have hv := h.1
  cases v with
  | nested i =>
    obtain ⟨e, rfl, htype⟩ := h.nested
    cases e with
    | user u => exact ⟨u, rfl⟩
    | _ => cases htype
  | _ => cases hv

end Field.Takes

/-! ## Setters -/

/-- No separator is dropped from a text that is no file name. -/
theorem Value.dropSeparators_ofOptionalText {f : Field} (h : f.name ≠ "fileName")
    (s? : Option String) : (ofOptionalText s?).dropSeparators f = ofOptionalText s? := by
  cases s? with
  | none => rfl
  | some s => simp only [ofOptionalText, dropSeparators, if_neg h]

/-- A separator is dropped from a file name. -/
theorem Value.dropSeparators_fileName {f : Field} (h : f.name = "fileName") (s? : Option String) :
    (ofOptionalText s?).dropSeparators f = ofOptionalText (s?.map bareName) := by
  cases s? with
  | none => rfl
  | some s => simp only [ofOptionalText, dropSeparators, if_pos h, Option.map_some]

namespace Localization

variable {k : Nat} {f : Field} {v : Value}

/-- A user takes a value for a field and keeps the others. -/
theorem User.setField_of_takes (u : User) (hf : EntityType.user.fields[k]? = some f)
    (hv : f.Takes v) : ∃ u', u.setField k v = .ok u' ∧
      Entity.values (.user u') = (Entity.values (.user u)).set k (v.dropSeparators f) := by
  match k with
  | 0 =>
    cases hf
    obtain ⟨userId, rfl⟩ := hv.text
    refine ⟨{ u with userId }, ?_, ?_⟩
    · rw [setField, Value.optional_toText_eq_ok.2 rfl]
      rfl
    · rw [Value.dropSeparators_ofOptionalText (by decide)]
      rfl

/-- A context takes a value for a field and keeps the others. -/
theorem Context.setField_of_takes (c : Context) (hf : EntityType.context.fields[k]? = some f)
    (hv : f.Takes v) : ∃ c', c.setField k v = .ok c' ∧
      Entity.values (.context c') = (Entity.values (.context c)).set k (v.dropSeparators f) := by
  match k with
  | 0 =>
    cases hf
    obtain ⟨tree, rfl⟩ := hv.choice
    refine ⟨{ c with tree }, ?_, rfl⟩
    rw [setField, Value.toTree_eq_ok.2 rfl]
    rfl
  | 1 =>
    cases hf
    obtain ⟨level, rfl⟩ := hv.choice
    refine ⟨{ c with level }, ?_, rfl⟩
    rw [setField, Value.toLevel_eq_ok.2 rfl]
    rfl
  | 2 =>
    cases hf
    obtain ⟨contextName, rfl⟩ := hv.text
    refine ⟨{ c with contextName }, ?_, ?_⟩
    · rw [setField, Value.optional_toText_eq_ok.2 rfl]
      rfl
    · rw [Value.dropSeparators_ofOptionalText (by decide)]
      rfl

/-- A stream request takes a value for a field and keeps the others. -/
theorem StreamRequest.setField_of_takes (r : StreamRequest)
    (hf : EntityType.fields.requestFields[k]? = some f) (hv : f.Takes v) :
    ∃ r', r.setField k v = .ok r' ∧ Entity.values.requestValues r' =
      (Entity.values.requestValues r).set k (v.dropSeparators f) := by
  match k with
  | 0 =>
    cases hf
    obtain ⟨context, rfl⟩ := hv.context
    refine ⟨{ r with context }, ?_, ?_⟩ <;> cases context <;> rfl
  | 1 =>
    cases hf
    obtain ⟨fileName, rfl⟩ := hv.text
    refine ⟨r.setFileName fileName, ?_, ?_⟩
    · rw [setField, Value.optional_toText_eq_ok.2 rfl]
      rfl
    · rw [Value.dropSeparators_fileName rfl, StreamRequest.setFileName_eq]
      rfl
  | 2 =>
    cases hf
    obtain ⟨myContextName, rfl⟩ := hv.text
    refine ⟨{ r with myContextName }, ?_, ?_⟩
    · rw [setField, Value.optional_toText_eq_ok.2 rfl]
      rfl
    · rw [Value.dropSeparators_ofOptionalText (by decide)]
      rfl
  | 3 =>
    cases hf
    obtain ⟨user, rfl⟩ := hv.user
    refine ⟨{ r with user }, ?_, rfl⟩
    rw [setField, Value.toUser_eq_ok.2 rfl]
    rfl

/-- A get request takes a value for a field and keeps the others. -/
theorem GetRequest.setField_of_takes (g : GetRequest)
    (hf : EntityType.getRequest.fields[k]? = some f) (hv : f.Takes v) :
    ∃ g', g.setField k v = .ok g' ∧ Entity.values (.getRequest g') =
      (Entity.values (.getRequest g)).set k (v.dropSeparators f) := by
  rcases Nat.lt_or_ge k 4 with hk | hk
  · rw [EntityType.fields, List.getElem?_append_left hk] at hf
    obtain ⟨r, hr, hvalues⟩ := g.request.setField_of_takes hf hv
    refine ⟨{ g with request := r }, ?_, ?_⟩
    · rw [g.setField_of_lt hk, hr]
      rfl
    · rw [Entity.values, hvalues, Entity.values, List.set_append_left _ _ hk]
  have hlt : k < 6 := (List.getElem?_eq_some_iff.1 hf).1
  obtain rfl | rfl : k = 4 ∨ k = 5 := by omega
  · cases hf
    obtain ⟨offset, rfl⟩ := hv.i32
    refine ⟨{ g with offset }, ?_, rfl⟩
    rw [setField, Value.toI32_eq_ok.2 rfl]
    rfl
  · cases hf
    obtain ⟨numBytes, rfl⟩ := hv.i32
    refine ⟨{ g with numBytes }, ?_, rfl⟩
    rw [setField, Value.toI32_eq_ok.2 rfl]
    rfl

/-- A put request takes a value for a field and keeps the others. -/
theorem PutRequest.setField_of_takes (p : PutRequest)
    (hf : EntityType.putRequest.fields[k]? = some f) (hv : f.Takes v) :
    ∃ p', p.setField k v = .ok p' ∧ Entity.values (.putRequest p') =
      (Entity.values (.putRequest p)).set k (v.dropSeparators f) := by
  rcases Nat.lt_or_ge k 4 with hk | hk
  · rw [EntityType.fields, List.getElem?_append_left hk] at hf
    obtain ⟨r, hr, hvalues⟩ := p.request.setField_of_takes hf hv
    refine ⟨{ p with request := r }, ?_, ?_⟩
    · rw [p.setField_of_lt hk, hr]
      rfl
    · rw [Entity.values, hvalues, Entity.values, List.set_append_left _ _ hk]
  have hlt : k < 7 := (List.getElem?_eq_some_iff.1 hf).1
  obtain rfl | rfl | rfl : k = 4 ∨ k = 5 ∨ k = 6 := by omega
  · cases hf
    obtain ⟨bytes, rfl⟩ := hv.bytes
    refine ⟨{ p with bytes }, ?_, ?_⟩
    · rw [setField, Value.optional_toBytes_eq_ok.2 rfl]
      rfl
    · cases bytes <;> rfl
  · cases hf
    obtain ⟨offset, rfl⟩ := hv.i32
    refine ⟨{ p with offset }, ?_, rfl⟩
    rw [setField, Value.toI32_eq_ok.2 rfl]
    rfl
  · cases hf
    obtain ⟨isEnd, rfl⟩ := hv.bool
    refine ⟨{ p with isEnd }, ?_, rfl⟩
    rw [setField, Value.toBool_eq_ok.2 rfl]
    rfl

/-- An entity takes a value for a field, without separators, and keeps the others. -/
theorem Entity.setField_of_takes (e : Entity) (hf : e.type.fields[k]? = some f) (hv : f.Takes v) :
    ∃ e', e.setField k v = .ok e' ∧ e'.type = e.type ∧
      e'.values = e.values.set k (v.dropSeparators f) := by
  cases e with
  | user u =>
    obtain ⟨u', hu, hvalues⟩ := u.setField_of_takes hf hv
    exact ⟨.user u', by rw [setField, hu]; rfl, rfl, hvalues⟩
  | context c =>
    obtain ⟨c', hc, hvalues⟩ := c.setField_of_takes hf hv
    exact ⟨.context c', by rw [setField, hc]; rfl, rfl, hvalues⟩
  | streamRequest r =>
    obtain ⟨r', hr, hvalues⟩ := r.setField_of_takes hf hv
    exact ⟨.streamRequest r', by rw [setField, hr]; rfl, rfl, hvalues⟩
  | getRequest g =>
    obtain ⟨g', hg, hvalues⟩ := g.setField_of_takes hf hv
    exact ⟨.getRequest g', by rw [setField, hg]; rfl, rfl, hvalues⟩
  | putRequest p =>
    obtain ⟨p', hp, hvalues⟩ := p.setField_of_takes hf hv
    exact ⟨.putRequest p', by rw [setField, hp]; rfl, rfl, hvalues⟩

end Localization

end TagWire
