import TagWire.Proofs.Schema.Steps
import TagWire.Proofs.Schema.Tree
import TagWire.Schema.Instance

/-!
# Storing every field

What a fresh instance becomes when a value is stored in each of its fields, in order. A record holds
the values if every field accepts its own (`Instance.storeAll_record`). An entity takes exactly the
values that some entity of its type has, and becomes that entity, up to what its setters normalize
(`Instance.storeAll_entity`).
-/

namespace TagWire

open TagWire.Localization (Choice Context Entity EntityType GetRequest Level PutRequest
  StreamRequest Tree User)

/-- Stores values one after the other, the first one at an index. -/
def storeValues {σ : Type} (set : σ → Nat → Value → Except FieldError σ) :
    σ → Nat → List Value → Except FieldError σ
  | s, _, [] => .ok s
  | s, index, v :: vs => do storeValues set (← set s index v) (index + 1) vs

/-- Stores values in the fields of an instance, the first one at an index. -/
abbrev Instance.storeAll (i : Instance) (index : Nat) (vs : List Value) :
    Except FieldError Instance :=
  storeValues Instance.setField i index vs

section
variable {σ τ : Type} {set : σ → Nat → Value → Except FieldError σ}
  {set' : τ → Nat → Value → Except FieldError τ}

/-- Storing values is storing the first and then the others. -/
theorem storeValues_cons {s s' : σ} {index : Nat} {v : Value} {vs : List Value} :
    storeValues set s index (v :: vs) = .ok s' ↔
      ∃ t, set s index v = .ok t ∧ storeValues set t (index + 1) vs = .ok s' :=
  Except.bind_eq_ok

/-- Storing some values and then others is storing all of them. -/
theorem storeValues_append (s : σ) (index : Nat) (vs ws : List Value) :
    storeValues set s index (vs ++ ws) =
      storeValues set s index vs >>= fun t => storeValues set t (index + vs.length) ws := by
  induction vs generalizing s index with
  | nil => rfl
  | cons v vs ih =>
    simp only [List.cons_append, storeValues, List.length_cons]
    cases set s index v with
    | error e => rfl
    | ok t =>
      rw [Nat.add_comm vs.length, ← Nat.add_assoc]
      exact ih t (index + 1)

/-- What is stored in a part of something is stored in the whole, if each value is. -/
theorem storeValues_map {wrap : σ → τ} {vs : List Value} {index : Nat}
    (h : ∀ s, ∀ k < index + vs.length, ∀ v, set' (wrap s) k v = (set s k v).map wrap) (s : σ) :
    storeValues set' (wrap s) index vs = (storeValues set s index vs).map wrap := by
  induction vs generalizing s index with
  | nil => rfl
  | cons v vs ih =>
    rw [List.length_cons] at h
    simp only [storeValues, h s index (by omega)]
    cases set s index v with
    | error e => rfl
    | ok t => exact ih (fun s k hk => h s k (by omega)) t

end

/-! ## Records -/

/-- A record takes what the field at an index accepts. -/
theorem Instance.setField_of_accepts {shape : RecordShape} {k : Nat} {f : Field} {v : Value}
    (hf : shape.fields[k]? = some f) (hv : f.accepts v = true) (vs : List Value) :
    (Instance.record shape vs).setField k v = .ok (.record shape (vs.set k v)) := by
  simp [Instance.setField, RecordShape.setField, hf, hv, Except.map]

/-- Values that their fields accept replace whatever a record holds in these fields. The values
before them have been stored already. -/
theorem Instance.storeAll_record {shape : RecordShape} {fs : List Field} {vs : List Value}
    (h : List.Forall₂ (fun f v => f.accepts v = true) fs vs) (before : List Field)
    (done old : List Value) (hfields : shape.fields = before ++ fs)
    (hdone : before.length = done.length) (hold : old.length = vs.length) :
    (Instance.record shape (done ++ old)).storeAll done.length vs =
      .ok (.record shape (done ++ vs)) := by
  induction h generalizing before done old with
  | nil =>
    cases List.eq_nil_of_length_eq_zero hold
    rfl
  | @cons f v fs vs hv _ ih =>
    cases old with
    | nil => cases hold
    | cons w old =>
      have hf : shape.fields[done.length]? = some f := by
        rw [hfields, ← hdone, List.getElem?_append_right (Nat.le_refl _), Nat.sub_self]
        rfl
      have hset : (Instance.record shape (done ++ w :: old)).setField done.length v =
          .ok (.record shape ((done ++ [v]) ++ old)) := by
        simp [Instance.setField_of_accepts hf hv]
      refine storeValues_cons.2 ⟨_, hset, ?_⟩
      simpa using ih (before ++ [f]) (done ++ [v]) old (by simp [hfields]) (by simp [hdone])
        (by simpa using hold)

/-- A fresh record becomes the record of the values stored, if its fields accept them. -/
theorem Instance.storeAll_fresh {shape : RecordShape} {vs : List Value}
    (h : List.Forall₂ (fun f v => f.accepts v = true) shape.fields vs) :
    (Record.fresh shape).toInstance.storeAll 0 vs = .ok (.record shape vs) := by
  have hlength : shape.initialValues.length = vs.length := by
    simp [RecordShape.initialValues, h.length_eq]
  exact Instance.storeAll_record h [] [] shape.initialValues rfl rfl hlength

/-! ## Taking values apart -/

namespace Value

/-- Exactly a text or null is taken as an optional text. -/
@[simp] theorem optional_toText_eq_ok {v : Value} {o : Option String} :
    optional toText v = .ok o ↔ v = ofOptionalText o := by
  cases v <;> cases o <;> simp [optional, toText, ofOptionalText, Except.map]

/-- Exactly bytes or null are taken as optional bytes. -/
@[simp] theorem optional_toBytes_eq_ok {v : Value} {o : Option (List UInt8)} :
    optional toBytes v = .ok o ↔ v = ofOptionalBytes o := by
  cases v <;> cases o <;> simp [optional, toBytes, ofOptionalBytes, Except.map]

/-- Exactly a number of 32 bits is taken as one. -/
@[simp] theorem toI32_eq_ok {v : Value} {n : Int32} : v.toI32 = .ok n ↔ v = .scalar (.i32 n) := by
  unfold toI32
  split <;> simp_all

/-- Exactly a boolean is taken as one. -/
@[simp] theorem toBool_eq_ok {v : Value} {b : Bool} : v.toBool = .ok b ↔ v = .scalar (.bool b) := by
  unfold toBool
  split <;> cases b <;> simp_all

/-- Exactly a nested user is taken as one. -/
@[simp] theorem toUser_eq_ok {v : Value} {u : User} :
    v.toUser = .ok u ↔ v = .nested (.entity (.user u)) := by
  unfold toUser
  split <;> simp_all

/-- Exactly a nested context is taken as one. -/
@[simp] theorem toContext_eq_ok {v : Value} {c : Context} :
    v.toContext = .ok c ↔ v = .nested (.entity (.context c)) := by
  unfold toContext
  split <;> simp_all

/-- Exactly a nested context or null is taken as an optional context. -/
@[simp] theorem optional_toContext_eq_ok {v : Value} {o : Option Context} :
    optional toContext v = .ok o ↔
      v = match o with
        | none => .null
        | some c => .nested (.entity (.context c)) := by
  cases v <;> cases o <;> simp [optional, Except.map_eq_ok]

/-- Exactly the name of a choice is taken as the choice, if each choice is found under its name. -/
theorem toChoice_eq_ok {α : Type} [Choice α]
    (h : ∀ a : α, Choice.ofName? (Choice.wireName a) = some a) {v : Value} {a : α} :
    v.toChoice α = .ok a ↔ v = .enum (Choice.wireName a) := by
  refine ⟨?_, ?_⟩
  · intro ha
    unfold toChoice at ha
    split at ha
    next variant =>
      split at ha
      next a' hfind =>
        cases ha
        have hname := List.find?_some hfind
        rw [eq_of_beq hname]
      next => cases ha
    next => cases ha
  · intro ha
    rw [ha, toChoice, h]

/-- Exactly the name of a tree is taken as the tree. -/
@[simp] theorem toTree_eq_ok {v : Value} {t : Tree} :
    v.toChoice Tree = .ok t ↔ v = .enum (Choice.wireName t) :=
  toChoice_eq_ok Tree.ofName?_wireName

/-- Exactly the name of a level is taken as the level. -/
@[simp] theorem toLevel_eq_ok {v : Value} {l : Level} :
    v.toChoice Level = .ok l ↔ v = .enum (Choice.wireName l) :=
  toChoice_eq_ok Level.ofName?_wireName

end Value

/-! ## Entities -/

/-- A user stores its name. -/
theorem Instance.storeAll_user {vs : List Value} (h : vs.length = 1) {j : Instance} :
    (Instance.entity (.user {})).storeAll 0 vs = .ok j ↔
      ∃ u, Entity.values (.user u) = vs ∧ j = .entity (.user u) := by
  obtain ⟨a, rfl⟩ := List.length_eq_one_iff.1 h
  simp only [storeValues, setField, Entity.setField, User.setField, bind_pure_comp,
    Except.bind_eq_ok, Except.map_eq_ok, Except.fmap_eq_ok, Value.optional_toText_eq_ok,
    exists_exists_and_eq_and, Except.ok.injEq, Entity.values, List.cons.injEq, and_true]
  refine ⟨?_, ?_⟩
  · intro h'
    obtain ⟨o, rfl, rfl⟩ := h'
    exact ⟨⟨o⟩, rfl, rfl⟩
  · intro h'
    obtain ⟨u, rfl, rfl⟩ := h'
    exact ⟨u.userId, rfl, rfl⟩

/-- A context stores its tree, its level and its name. -/
theorem Instance.storeAll_context {vs : List Value} (h : vs.length = 3) {j : Instance} :
    (Instance.entity (.context {})).storeAll 0 vs = .ok j ↔
      ∃ c, Entity.values (.context c) = vs ∧ j = .entity (.context c) := by
  obtain ⟨a, b, c, rfl⟩ := List.length_eq_three.1 h
  simp only [storeValues, setField, Entity.setField, Context.setField, bind_pure_comp, Nat.zero_add,
    Nat.reduceAdd, Except.bind_eq_ok, Except.map_eq_ok, Except.fmap_eq_ok, Value.toTree_eq_ok,
    exists_exists_and_eq_and, Except.ok.injEq, exists_eq_right, Value.toLevel_eq_ok,
    Value.optional_toText_eq_ok, Entity.values, List.cons.injEq, and_true]
  refine ⟨?_, ?_⟩
  · intro h'
    obtain ⟨tree, rfl, level, rfl, name, rfl, rfl⟩ := h'
    exact ⟨⟨tree, level, name⟩, ⟨rfl, rfl, rfl⟩, rfl⟩
  · intro h'
    obtain ⟨k, ⟨rfl, rfl, rfl⟩, rfl⟩ := h'
    exact ⟨k.tree, rfl, k.level, rfl, k.contextName, rfl, rfl⟩

/-- A stream message stores its request first, of which it normalizes the file name. -/
theorem Instance.storeAll_request (wrap : StreamRequest → Instance)
    (h : ∀ r, ∀ k < 4, ∀ v, (wrap r).setField k v = (r.setField k v).map wrap) (r : StreamRequest)
    (vs ws : List Value) (hvs : vs.length = 4) {j : Instance} :
    (wrap r).storeAll 0 (vs ++ ws) = .ok j ↔ ∃ q, Entity.values.requestValues q = vs ∧
      (wrap q.normalized).storeAll 4 ws = .ok j := by
  -- The file name is the only value that a setter changes.
  have hreq {q : StreamRequest} : storeValues StreamRequest.setField r 0 vs = .ok q ↔
      ∃ p, Entity.values.requestValues p = vs ∧ q = p.normalized := by
    obtain ⟨a, b, c, d, rfl⟩ := List.length_eq_four.1 hvs
    simp only [storeValues, StreamRequest.setField, StreamRequest.setFileName_eq,
      bind_pure_comp, Nat.zero_add, Nat.reduceAdd,
      bind_map_left, Except.bind_eq_ok, Value.optional_toContext_eq_ok,
      Value.optional_toText_eq_ok, Value.toUser_eq_ok, Except.ok.injEq,
      Entity.values.requestValues, List.cons.injEq, and_true]
    refine ⟨?_, ?_⟩
    · intro h'
      obtain ⟨context, rfl, fileName, rfl, myContextName, rfl, user, rfl, rfl⟩ := h'
      exact ⟨⟨context, fileName, myContextName, user⟩, ⟨rfl, rfl, rfl, rfl⟩, rfl⟩
    · intro h'
      obtain ⟨⟨context, fileName, myContextName, user⟩, ⟨rfl, rfl, rfl, rfl⟩, rfl⟩ := h'
      exact ⟨context, rfl, fileName, rfl, myContextName, rfl, user, rfl, rfl⟩
  rw [Instance.storeAll, storeValues_append, storeValues_map (by simpa [hvs] using h), hvs]
  refine ⟨?_, ?_⟩
  · intro hj
    obtain ⟨t, ht, hj⟩ := Except.bind_eq_ok.1 hj
    obtain ⟨q, hq, rfl⟩ := Except.map_eq_ok.1 ht
    obtain ⟨p, hp, rfl⟩ := hreq.1 hq
    exact ⟨p, hp, hj⟩
  · intro hj
    obtain ⟨p, hp, hj⟩ := hj
    exact Except.bind_eq_ok.2 ⟨_, Except.map_eq_ok.2 ⟨_, hreq.2 ⟨p, hp, rfl⟩, rfl⟩, hj⟩

/-- A get request stores its window behind its request. -/
theorem Instance.storeAll_window (g : GetRequest) {ws : List Value} (hws : ws.length = 2)
    {j : Instance} :
    (Instance.entity (.getRequest g)).storeAll 4 ws = .ok j ↔
      ∃ offset numBytes, ws = [.scalar (.i32 offset), .scalar (.i32 numBytes)] ∧
        j = .entity (.getRequest { g with offset := offset, numBytes := numBytes }) := by
  obtain ⟨a, b, rfl⟩ := List.length_eq_two.1 hws
  simp only [storeValues, setField, Entity.setField, GetRequest.setField, bind_pure_comp,
    Nat.reduceAdd, Except.bind_eq_ok, Except.map_eq_ok, Except.fmap_eq_ok, Value.toI32_eq_ok,
    exists_exists_and_eq_and, Except.ok.injEq, exists_eq_right, List.cons.injEq, and_true]
  refine ⟨?_, ?_⟩
  · intro h
    obtain ⟨offset, rfl, numBytes, rfl, rfl⟩ := h
    exact ⟨offset, numBytes, ⟨rfl, rfl⟩, rfl⟩
  · intro h
    obtain ⟨offset, numBytes, ⟨rfl, rfl⟩, rfl⟩ := h
    exact ⟨offset, rfl, numBytes, rfl, rfl⟩

/-- A put request stores its chunk behind its request. -/
theorem Instance.storeAll_chunk (p : PutRequest) {ws : List Value} (hws : ws.length = 3)
    {j : Instance} :
    (Instance.entity (.putRequest p)).storeAll 4 ws = .ok j ↔
      ∃ bytes offset isEnd,
        ws = [.ofOptionalBytes bytes, .scalar (.i32 offset), .scalar (.bool isEnd)] ∧
        j = .entity (.putRequest { p with bytes := bytes, offset := offset, isEnd := isEnd }) := by
  obtain ⟨a, b, c, rfl⟩ := List.length_eq_three.1 hws
  simp only [storeValues, setField, Entity.setField, PutRequest.setField, bind_pure_comp,
    Nat.reduceAdd, Except.bind_eq_ok, Except.map_eq_ok, Except.fmap_eq_ok,
    Value.optional_toBytes_eq_ok, exists_exists_and_eq_and, Except.ok.injEq, exists_eq_right,
    Value.toI32_eq_ok, Value.toBool_eq_ok, List.cons.injEq, and_true]
  refine ⟨?_, ?_⟩
  · intro h
    obtain ⟨bytes, rfl, offset, rfl, isEnd, rfl, rfl⟩ := h
    exact ⟨bytes, offset, isEnd, ⟨rfl, rfl, rfl⟩, rfl⟩
  · intro h
    obtain ⟨bytes, offset, isEnd, ⟨rfl, rfl, rfl⟩, rfl⟩ := h
    exact ⟨bytes, rfl, offset, rfl, isEnd, rfl, rfl⟩

/-- An entity has as many values as its type has fields. -/
theorem Localization.Entity.length_values (e : Entity) :
    e.values.length = e.type.fields.length := by
  cases e <;> rfl

/-- A get request stores what is below its window in its request. -/
theorem Localization.GetRequest.setField_of_lt (g : GetRequest) {k : Nat} (hk : k < 4) (v : Value) :
    g.setField k v = (g.request.setField k v).map fun r => { g with request := r } := by
  match k, hk with
  | 0, _ | 1, _ | 2, _ | 3, _ => exact bind_pure_comp _ _

/-- A put request stores what is below its chunk in its request. -/
theorem Localization.PutRequest.setField_of_lt (p : PutRequest) {k : Nat} (hk : k < 4) (v : Value) :
    p.setField k v = (p.request.setField k v).map fun r => { p with request := r } := by
  match k, hk with
  | 0, _ | 1, _ | 2, _ | 3, _ => exact bind_pure_comp _ _

/-- A stream request takes the values that a stream request has, and normalizes its file name. -/
theorem Instance.storeAll_streamRequest {vs : List Value} (hvs : vs.length = 4) {j : Instance} :
    (Instance.entity (.streamRequest {})).storeAll 0 vs = .ok j ↔ ∃ q,
      Entity.values (.streamRequest q) = vs ∧
        j = .entity (Entity.streamRequest q).normalized := by
  have h := storeAll_request (fun r => .entity (.streamRequest r))
    (fun r k _ v => by simp only [setField, Entity.setField]; cases r.setField k v <;> rfl) {} vs []
    hvs (j := j)
  rw [List.append_nil] at h
  rw [h]
  refine ⟨?_, ?_⟩
  · intro h'
    obtain ⟨q, rfl, ⟨⟩⟩ := h'
    exact ⟨q, rfl, rfl⟩
  · intro h'
    obtain ⟨q, rfl, rfl⟩ := h'
    exact ⟨q, rfl, rfl⟩

/-- A get request takes the values that a get request has, and normalizes its file name. -/
theorem Instance.storeAll_getRequest {vs : List Value} (hvs : vs.length = 6) {j : Instance} :
    (Instance.entity (.getRequest {})).storeAll 0 vs = .ok j ↔ ∃ g,
      Entity.values (.getRequest g) = vs ∧ j = .entity (Entity.getRequest g).normalized := by
  have h := storeAll_request (fun r => .entity (.getRequest { request := r }))
    (fun r k hk v => by
      simp only [setField, Entity.setField, GetRequest.setField_of_lt _ hk]
      cases r.setField k v <;> rfl)
    {} (vs.take 4) (vs.drop 4) (by simp [hvs]) (j := j)
  rw [List.take_append_drop] at h
  rw [h]
  refine ⟨?_, ?_⟩
  · intro h'
    obtain ⟨q, hq, hws⟩ := h'
    obtain ⟨offset, numBytes, htail, rfl⟩ := (storeAll_window _ (by simp [hvs])).1 hws
    refine ⟨⟨q, offset, numBytes⟩, ?_, rfl⟩
    rw [← List.take_append_drop 4 vs, ← hq, htail, Entity.values]
  · intro h'
    obtain ⟨g, rfl, rfl⟩ := h'
    exact ⟨g.request, rfl, (storeAll_window _ rfl).2 ⟨g.offset, g.numBytes, rfl, rfl⟩⟩

/-- A put request takes the values that a put request has, and normalizes its file name. -/
theorem Instance.storeAll_putRequest {vs : List Value} (hvs : vs.length = 7) {j : Instance} :
    (Instance.entity (.putRequest {})).storeAll 0 vs = .ok j ↔ ∃ p,
      Entity.values (.putRequest p) = vs ∧ j = .entity (Entity.putRequest p).normalized := by
  have h := storeAll_request (fun r => .entity (.putRequest { request := r }))
    (fun r k hk v => by
      simp only [setField, Entity.setField, PutRequest.setField_of_lt _ hk]
      cases r.setField k v <;> rfl)
    {} (vs.take 4) (vs.drop 4) (by simp [hvs]) (j := j)
  rw [List.take_append_drop] at h
  rw [h]
  refine ⟨?_, ?_⟩
  · intro h'
    obtain ⟨q, hq, hws⟩ := h'
    obtain ⟨bytes, offset, isEnd, htail, rfl⟩ := (storeAll_chunk _ (by simp [hvs])).1 hws
    refine ⟨⟨q, bytes, offset, isEnd⟩, ?_, rfl⟩
    rw [← List.take_append_drop 4 vs, ← hq, htail, Entity.values]
  · intro h'
    obtain ⟨p, rfl, rfl⟩ := h'
    exact ⟨p.request, rfl, (storeAll_chunk _ rfl).2 ⟨p.bytes, p.offset, p.isEnd, rfl, rfl⟩⟩

/-- The entities of a type are what a constructor makes, so that one of them has a property means
that one of what is made has. -/
theorem Localization.EntityType.exists_entity_iff {α : Type} {t : EntityType} (make : α → Entity)
    (ht : ∀ e : Entity, e.type = t ↔ ∃ a, e = make a) (P : Entity → Prop) :
    (∃ e : Entity, e.type = t ∧ P e) ↔ ∃ a, P (make a) := by
  refine ⟨?_, ?_⟩
  · intro h
    obtain ⟨e, htype, hP⟩ := h
    obtain ⟨a, rfl⟩ := (ht e).1 htype
    exact ⟨a, hP⟩
  · intro h
    obtain ⟨a, hP⟩ := h
    exact ⟨make a, (ht _).2 ⟨a, rfl⟩, hP⟩

/-- A fresh entity takes exactly the values that some entity of its type has, and becomes that
entity, normalized. -/
theorem Instance.storeAll_entity {t : EntityType} {vs : List Value}
    (hvs : vs.length = t.fields.length) {j : Instance} :
    (Instance.entity t.fresh).storeAll 0 vs = .ok j ↔
      ∃ e : Entity, e.type = t ∧ e.values = vs ∧ j = .entity e.normalized := by
  cases t with
  | user =>
    rw [EntityType.exists_entity_iff Entity.user (by rintro ⟨⟩ <;> simp [Entity.type])]
    exact storeAll_user hvs
  | context =>
    rw [EntityType.exists_entity_iff Entity.context (by rintro ⟨⟩ <;> simp [Entity.type])]
    exact storeAll_context hvs
  | streamRequest =>
    rw [EntityType.exists_entity_iff Entity.streamRequest (by rintro ⟨⟩ <;> simp [Entity.type])]
    exact storeAll_streamRequest hvs
  | getRequest =>
    rw [EntityType.exists_entity_iff Entity.getRequest (by rintro ⟨⟩ <;> simp [Entity.type])]
    exact storeAll_getRequest hvs
  | putRequest =>
    rw [EntityType.exists_entity_iff Entity.putRequest (by rintro ⟨⟩ <;> simp [Entity.type])]
    exact storeAll_putRequest hvs

end TagWire
