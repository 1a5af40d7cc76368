import TagWire.Proofs.Schema.Recorded
import TagWire.Proofs.Schema.Steps

/-!
# What setters take

An entity takes a value for a field exactly if `Field.Takes` says so: that it takes what it should
is `Localization.Entity.setField_of_takes`, that it takes nothing else is shown here, field by field
(`Localization.Entity.takes_of_setField`). So what has been stored is known from the call alone
(`Localization.Entity.values_of_setField`).
-/

namespace TagWire

open TagWire.Localization (Choice Context Entity EntityType User)

/-! ## What fields take -/

namespace Field.Takes

variable {name : String}

/-- A text or null is taken for an optional text. -/
theorem ofText (s? : Option String) : Takes ⟨name, .string, true⟩ (.ofOptionalText s?) := by
  cases s? with
  | none => exact ⟨rfl, nofun⟩
  | some s => exact ⟨rfl, nofun⟩

/-- Bytes or null are taken for an optional byte string. -/
theorem ofBytes (b? : Option (List UInt8)) : Takes ⟨name, .bytes, true⟩ (.ofOptionalBytes b?) := by
  cases b? with
  | none => exact ⟨rfl, nofun⟩
  | some b => exact ⟨rfl, nofun⟩

/-- A scalar is taken for one of its kind. -/
theorem ofScalar (s : Scalar) : Takes ⟨name, .scalar s.kind, false⟩ (.scalar s) :=
  ⟨beq_self_eq_true s.kind, nofun⟩

/-- The name of a choice is taken for the choice. -/
theorem ofChoice {α : Type} [Choice α] {a : α} (ha : a ∈ Choice.all) :
    Takes ⟨name, .enum (Choice.enumeration α), false⟩ (.enum (Choice.wireName a)) :=
  ⟨List.elem_eq_true_of_mem (List.mem_map_of_mem ha), nofun⟩

/-- A context or null is taken for an optional context. -/
theorem ofContext (c? : Option Context) : Takes ⟨name, .nested EntityType.context.tag, true⟩
    (match c? with
      | none => .null
      | some c => .nested (.entity (.context c))) := by
  cases c? with
  | none => exact ⟨rfl, nofun⟩
  | some c => exact ⟨rfl, fun _ h => ⟨.context c, (Value.nested.inj h).symm, rfl⟩⟩

/-- A user is taken for a user. -/
theorem ofUser (u : User) :
    Takes ⟨name, .nested EntityType.user.tag, false⟩ (.nested (.entity (.user u))) :=
  ⟨rfl, fun _ h => ⟨.user u, (Value.nested.inj h).symm, rfl⟩⟩

end Field.Takes

/-! ## What entities take -/

namespace Localization

variable {k : Nat} {v : Value}

/-- A user takes only what one of its fields does. -/
theorem User.takes_of_setField {u u' : User} (h : u.setField k v = .ok u') :
    ∃ f, EntityType.user.fields[k]? = some f ∧ f.Takes v := by
  match k with
  | 0 =>
    obtain ⟨userId, hv, -⟩ := Except.bind_eq_ok.1 h
    obtain rfl := Value.optional_toText_eq_ok.1 hv
    exact ⟨_, rfl, .ofText userId⟩
  | k + 1 => cases h

/-- A context takes only what one of its fields does. -/
theorem Context.takes_of_setField {c c' : Context} (h : c.setField k v = .ok c') :
    ∃ f, EntityType.context.fields[k]? = some f ∧ f.Takes v := by
  match k with
  | 0 =>
    obtain ⟨tree, hv, -⟩ := Except.bind_eq_ok.1 h
    obtain rfl := Value.toTree_eq_ok.1 hv
    exact ⟨_, rfl, .ofChoice (by cases tree <;> decide)⟩
  | 1 =>
    obtain ⟨level, hv, -⟩ := Except.bind_eq_ok.1 h
    obtain rfl := Value.toLevel_eq_ok.1 hv
    exact ⟨_, rfl, .ofChoice (by cases level <;> decide)⟩
  | 2 =>
    obtain ⟨contextName, hv, -⟩ := Except.bind_eq_ok.1 h
    obtain rfl := Value.optional_toText_eq_ok.1 hv
    exact ⟨_, rfl, .ofText contextName⟩
  | k + 3 => cases h

/-- A stream request takes only what one of its fields does. -/
theorem StreamRequest.takes_of_setField {r r' : StreamRequest} (h : r.setField k v = .ok r') :
    ∃ f, EntityType.fields.requestFields[k]? = some f ∧ f.Takes v := by
  match k with
  | 0 =>
    obtain ⟨context, hv, -⟩ := Except.bind_eq_ok.1 h
    obtain rfl := Value.optional_toContext_eq_ok.1 hv
    exact ⟨_, rfl, .ofContext context⟩
  | 1 =>
    obtain ⟨fileName, hv, -⟩ := Except.bind_eq_ok.1 h
    obtain rfl := Value.optional_toText_eq_ok.1 hv
    exact ⟨_, rfl, .ofText fileName⟩
  | 2 =>
    obtain ⟨myContextName, hv, -⟩ := Except.bind_eq_ok.1 h
    obtain rfl := Value.optional_toText_eq_ok.1 hv
    exact ⟨_, rfl, .ofText myContextName⟩
  | 3 =>
    obtain ⟨user, hv, -⟩ := Except.bind_eq_ok.1 h
    obtain rfl := Value.toUser_eq_ok.1 hv
    exact ⟨_, rfl, .ofUser user⟩
  | k + 4 => cases h

/-- A get request takes only what one of its fields does. -/
theorem GetRequest.takes_of_setField {g g' : GetRequest} (h : g.setField k v = .ok g') :
    ∃ f, EntityType.getRequest.fields[k]? = some f ∧ f.Takes v := by
  rcases Nat.lt_or_ge k 4 with hk | hk
  · rw [g.setField_of_lt hk] at h
    obtain ⟨r, hr, -⟩ := Except.map_eq_ok.1 h
    rw [EntityType.fields, List.getElem?_append_left hk]
    exact StreamRequest.takes_of_setField hr
  obtain rfl | rfl | ⟨k, rfl⟩ : k = 4 ∨ k = 5 ∨ ∃ n, k = n + 6 := by
    rcases Nat.lt_or_ge k 6 with hlt | hge
    · omega
    · exact .inr (.inr (Nat.exists_eq_add_of_le' hge))
  · obtain ⟨offset, hv, -⟩ := Except.bind_eq_ok.1 h
    obtain rfl := Value.toI32_eq_ok.1 hv
    exact ⟨_, rfl, .ofScalar (.i32 offset)⟩
  · obtain ⟨numBytes, hv, -⟩ := Except.bind_eq_ok.1 h
    obtain rfl := Value.toI32_eq_ok.1 hv
    exact ⟨_, rfl, .ofScalar (.i32 numBytes)⟩
  · cases h

/-- A put request takes only what one of its fields does. -/
theorem PutRequest.takes_of_setField {p p' : PutRequest} (h : p.setField k v = .ok p') :
    ∃ f, EntityType.putRequest.fields[k]? = some f ∧ f.Takes v := by
  rcases Nat.lt_or_ge k 4 with hk | hk
  · rw [p.setField_of_lt hk] at h
    obtain ⟨r, hr, -⟩ := Except.map_eq_ok.1 h
    rw [EntityType.fields, List.getElem?_append_left hk]
    exact StreamRequest.takes_of_setField hr
  obtain rfl | rfl | rfl | ⟨k, rfl⟩ : k = 4 ∨ k = 5 ∨ k = 6 ∨ ∃ n, k = n + 7 := by
    rcases Nat.lt_or_ge k 7 with hlt | hge
    · omega
    · exact .inr (.inr (.inr (Nat.exists_eq_add_of_le' hge)))
  · obtain ⟨bytes, hv, -⟩ := Except.bind_eq_ok.1 h
    obtain rfl := Value.optional_toBytes_eq_ok.1 hv
    exact ⟨_, rfl, .ofBytes bytes⟩
  · obtain ⟨offset, hv, -⟩ := Except.bind_eq_ok.1 h
    obtain rfl := Value.toI32_eq_ok.1 hv
    exact ⟨_, rfl, .ofScalar (.i32 offset)⟩
  · obtain ⟨isEnd, hv, -⟩ := Except.bind_eq_ok.1 h
    obtain rfl := Value.toBool_eq_ok.1 hv
    exact ⟨_, rfl, .ofScalar (.bool isEnd)⟩
  · cases h

/-- An entity takes only what one of its fields does. -/
theorem Entity.takes_of_setField {e e' : Entity} (h : e.setField k v = .ok e') :
    ∃ f, e.type.fields[k]? = some f ∧ f.Takes v := by
  cases e with
  | user u =>
    obtain ⟨_, hu, -⟩ := Except.map_eq_ok.1 h
    exact User.takes_of_setField hu
  | context c =>
    obtain ⟨_, hc, -⟩ := Except.map_eq_ok.1 h
    exact Context.takes_of_setField hc
  | streamRequest r =>
    obtain ⟨_, hr, -⟩ := Except.map_eq_ok.1 h
    exact StreamRequest.takes_of_setField hr
  | getRequest g =>
    obtain ⟨_, hg, -⟩ := Except.map_eq_ok.1 h
    exact GetRequest.takes_of_setField hg
  | putRequest p =>
    obtain ⟨_, hp, -⟩ := Except.map_eq_ok.1 h
    exact PutRequest.takes_of_setField hp

/-- What an entity takes it stores without separators, and it keeps its other values. -/
theorem Entity.values_of_setField {e e' : Entity} (h : e.setField k v = .ok e') :
    ∃ f, e.type.fields[k]? = some f ∧ f.Takes v ∧
      e'.values = e.values.set k (v.dropSeparators f) := by
  obtain ⟨f, hf, hv⟩ := takes_of_setField h
  obtain ⟨_, he, -, hvalues⟩ := e.setField_of_takes hf hv
  rw [h] at he
  cases he
  exact ⟨f, hf, hv, hvalues⟩

end Localization

end TagWire
