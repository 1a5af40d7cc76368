import TagWire.Proofs.Schema.Taking

/-!
# Reading and storing by index

Three tables say what a localization type has at an index: its fields, the values read from it, and
what its setter stores. `Localization.Entity.accessors_agree` shows that they are the same table. A
value can be read at an index exactly if there is a field, the setter takes exactly what this field
takes, and afterwards the value is there and all others are as before.

The setters as they run change an entity in place, so that a refused value might leave it half
changed. They are written out here as programs of `Store` (`Localization.Entity.assign`), which keep
every change also when they fail, and shown to do what `Localization.Entity.setField` says
(`Localization.Entity.performs_assign`). Every setter converts its value first and changes a single
field then, so that a refused value changes nothing.
-/

namespace TagWire

open TagWire.Localization (Choice Context Entity EntityType GetRequest Level PutRequest
  StreamRequest Tree User bareName)

/-! ## Storing in place -/

/-- A program that changes something in place and may refuse a value. A refusal undoes nothing. -/
abbrev Store (σ : Type) := EStateM FieldError σ

namespace Store

variable {σ τ α : Type}

/-- Goes on with a converted value, or refuses it. -/
def take (x : Except FieldError α) : Store σ α :=
  match x with
  | .ok a => pure a
  | .error cause => throw cause

/-- Runs a program on a part of something, and puts the part back whichever way it ends. -/
def inPart (p : Store σ α) (part : σ) (put : σ → τ) : EStateM.Result FieldError τ α :=
  match p part with
  | .ok a part' => .ok a (put part')
  | .error cause part' => .error cause (put part')

/-- Runs a program on a part of what there is. -/
def within (p : Store σ α) (part : τ → σ) (put : τ → σ → τ) : Store τ α :=
  fun t => p.inPart (part t) (put t)

/-- Whether a program changes something as a function says, and nothing if the function refuses. -/
def Performs (p : Store σ Unit) (set : σ → Except FieldError σ) : Prop :=
  ∀ s, p s =
    match set s with
    | .ok s' => .ok () s'
    | .error cause => .error cause s

namespace Performs

/-- What the function changes, the program does. -/
theorem of_ok {p : Store σ Unit} {set : σ → Except FieldError σ} (h : Performs p set) {s s' : σ}
    (hs : set s = .ok s') : p s = .ok () s' := by
  rw [h s, hs]

/-- What the function refuses, the program refuses and leaves as it is. -/
theorem of_error {p : Store σ Unit} {set : σ → Except FieldError σ} (h : Performs p set) {s : σ}
    {cause : FieldError} (hs : set s = .error cause) : p s = .error cause s := by
  rw [h s, hs]

/-- A value that is converted first and stored then is stored as a whole or not at all. -/
theorem take (x : Except FieldError α) (change : α → σ → σ) :
    Performs (do modify (change (← Store.take x))) fun s => do return change (← x) s := by
  intro s
  cases x <;> rfl

/-- An index is refused at once. -/
theorem refuse (cause : FieldError) : Performs (throw cause : Store σ Unit) fun _ => .error cause :=
  fun _ => rfl

/-- What is stored in a part is stored in the whole. -/
theorem inPart {p : Store σ Unit} {set : σ → Except FieldError σ} (h : Performs p set) (part : σ)
    (put : σ → τ) : p.inPart part put =
      match (set part).map put with
      | .ok t => .ok () t
      | .error cause => .error cause (put part) := by
  rw [Store.inPart, h part]
  cases set part <;> rfl

/-- What a program stores in a part, it stores in what there is. -/
theorem within {p : Store σ Unit} {set : σ → Except FieldError σ} (h : Performs p set)
    {part : τ → σ} {put : τ → σ → τ} (hput : ∀ t, put t (part t) = t) :
    Performs (p.within part put) fun t => (set (part t)).map (put t) := by
  intro t
  rw [Store.within, h.inPart, hput]

end Performs

end Store

namespace Localization

open Store (take inPart Performs)

variable {k : Nat} {v : Value}

/-- Stores into a user in place. -/
def User.assign (index : Nat) (v : Value) : Store User Unit :=
  match index with
  | 0 => do
    let userId ← take (Value.optional Value.toText v)
    modify fun u => { u with userId }
  | _ => throw (.unknownIndex index)

/-- Stores into a context in place. -/
def Context.assign (index : Nat) (v : Value) : Store Context Unit :=
  match index with
  | 0 => do
    let tree ← take (v.toChoice Tree)
    modify fun c => { c with tree }
  | 1 => do
    let level ← take (v.toChoice Level)
    modify fun c => { c with level }
  | 2 => do
    let contextName ← take (Value.optional Value.toText v)
    modify fun c => { c with contextName }
  | _ => throw (.unknownIndex index)

/-- Stores into a stream request in place. -/
def StreamRequest.assign (index : Nat) (v : Value) : Store StreamRequest Unit :=
  match index with
  | 0 => do
    let context ← take (Value.optional Value.toContext v)
    modify fun r => { r with context }
  | 1 => do
    let fileName ← take (Value.optional Value.toText v)
    modify fun r => r.setFileName fileName
  | 2 => do
    let myContextName ← take (Value.optional Value.toText v)
    modify fun r => { r with myContextName }
  | 3 => do
    let user ← take v.toUser
    modify fun r => { r with user }
  | _ => throw (.unknownIndex index)

/-- How many fields every stream request starts with. -/
def requestFieldCount : Nat := 4

/-- Stores into a get request in place, what is below its window into its request. -/
def GetRequest.assign (index : Nat) (v : Value) : Store GetRequest Unit :=
  if index < requestFieldCount then
    (StreamRequest.assign index v).within GetRequest.request fun g request => { g with request }
  else match index with
    | 4 => do
      let offset ← take v.toI32
      modify fun g => { g with offset }
    | 5 => do
      let numBytes ← take v.toI32
      modify fun g => { g with numBytes }
    | _ => throw (.unknownIndex index)

/-- Stores into a put request in place, what is below its chunk into its request. -/
def PutRequest.assign (index : Nat) (v : Value) : Store PutRequest Unit :=
  if index < requestFieldCount then
    (StreamRequest.assign index v).within PutRequest.request fun p request => { p with request }
  else match index with
    | 4 => do
      let bytes ← take (Value.optional Value.toBytes v)
      modify fun p => { p with bytes }
    | 5 => do
      let offset ← take v.toI32
      modify fun p => { p with offset }
    | 6 => do
      let isEnd ← take v.toBool
      modify fun p => { p with isEnd }
    | _ => throw (.unknownIndex index)

/-- Stores into an entity in place. -/
def Entity.assign (index : Nat) (v : Value) : Store Entity Unit
  | .user u => (User.assign index v).inPart u .user
  | .context c => (Context.assign index v).inPart c .context
  | .streamRequest r => (StreamRequest.assign index v).inPart r .streamRequest
  | .getRequest g => (GetRequest.assign index v).inPart g .getRequest
  | .putRequest p => (PutRequest.assign index v).inPart p .putRequest

/-- A user stores as its setter says. -/
theorem User.performs_assign (k : Nat) (v : Value) : Performs (assign k v) (setField · k v) := by
  match k with
  | 0 => exact .take _ fun userId (u : User) => { u with userId }
  | k + 1 => exact .refuse _

/-- A context stores as its setter says. -/
theorem Context.performs_assign (k : Nat) (v : Value) : Performs (assign k v) (setField · k v) := by
  match k with
  | 0 => exact .take _ fun tree (c : Context) => { c with tree }
  | 1 => exact .take _ fun level (c : Context) => { c with level }
  | 2 => exact .take _ fun contextName (c : Context) => { c with contextName }
  | k + 3 => exact .refuse _

/-- A stream request stores as its setter says. -/
theorem StreamRequest.performs_assign (k : Nat) (v : Value) :
    Performs (assign k v) (setField · k v) := by
  match k with
  | 0 => exact .take _ fun context (r : StreamRequest) => { r with context }
  | 1 => exact .take _ fun fileName (r : StreamRequest) => r.setFileName fileName
  | 2 => exact .take _ fun myContextName (r : StreamRequest) => { r with myContextName }
  | 3 => exact .take _ fun user (r : StreamRequest) => { r with user }
  | k + 4 => exact .refuse _

/-- A get request stores as its setter says. -/
theorem GetRequest.performs_assign (k : Nat) (v : Value) :
    Performs (assign k v) (setField · k v) := by
  unfold assign
  rcases Nat.lt_or_ge k requestFieldCount with hk | hk
  · rw [if_pos hk]
    simp only [setField_of_lt _ hk]
    exact (StreamRequest.performs_assign k v).within fun _ => rfl
  rw [if_neg (Nat.not_lt.2 hk)]
  obtain ⟨k, rfl⟩ : ∃ n, k = n + 4 := Nat.exists_eq_add_of_le' hk
  match k with
  | 0 => exact .take _ fun offset (g : GetRequest) => { g with offset }
  | 1 => exact .take _ fun numBytes (g : GetRequest) => { g with numBytes }
  | k + 2 => exact .refuse _

/-- A put request stores as its setter says. -/
theorem PutRequest.performs_assign (k : Nat) (v : Value) :
    Performs (assign k v) (setField · k v) := by
  unfold assign
  rcases Nat.lt_or_ge k requestFieldCount with hk | hk
  · rw [if_pos hk]
    simp only [setField_of_lt _ hk]
    exact (StreamRequest.performs_assign k v).within fun _ => rfl
  rw [if_neg (Nat.not_lt.2 hk)]
  obtain ⟨k, rfl⟩ : ∃ n, k = n + 4 := Nat.exists_eq_add_of_le' hk
  match k with
  | 0 => exact .take _ fun bytes (p : PutRequest) => { p with bytes }
  | 1 => exact .take _ fun offset (p : PutRequest) => { p with offset }
  | 2 => exact .take _ fun isEnd (p : PutRequest) => { p with isEnd }
  | k + 3 => exact .refuse _

/-- An entity stores as its setter says, and is unchanged by what it refuses. -/
theorem Entity.performs_assign (k : Nat) (v : Value) : Performs (assign k v) (setField · k v) := by
  intro e
  cases e with
  | user u => exact (User.performs_assign k v).inPart u user
  | context c => exact (Context.performs_assign k v).inPart c context
  | streamRequest r => exact (StreamRequest.performs_assign k v).inPart r streamRequest
  | getRequest g => exact (GetRequest.performs_assign k v).inPart g getRequest
  | putRequest p => exact (PutRequest.performs_assign k v).inPart p putRequest

/-! ## Values that are read -/

/-- What a stream request holds is what its fields take. -/
theorem StreamRequest.forall₂_takes (r : StreamRequest) :
    List.Forall₂ Field.Takes EntityType.fields.requestFields (Entity.values.requestValues r) :=
  .cons (.ofContext r.context) <| .cons (.ofText r.fileName) <| .cons (.ofText r.myContextName) <|
    .cons (.ofUser r.user) .nil

/-- What an entity holds is what its fields take. -/
theorem Entity.forall₂_takes (e : Entity) : List.Forall₂ Field.Takes e.type.fields e.values := by
  cases e with
  | user u => exact .cons (.ofText u.userId) .nil
  | context c =>
    exact .cons (.ofChoice (by cases c.tree <;> decide)) <|
      .cons (.ofChoice (by cases c.level <;> decide)) <| .cons (.ofText c.contextName) .nil
  | streamRequest r => exact r.forall₂_takes
  | getRequest g =>
    exact List.rel_append g.request.forall₂_takes <|
      .cons (.ofScalar (.i32 g.offset)) <| .cons (.ofScalar (.i32 g.numBytes)) .nil
  | putRequest p =>
    exact List.rel_append p.request.forall₂_takes <|
      .cons (.ofBytes p.bytes) <| .cons (.ofScalar (.i32 p.offset)) <|
        .cons (.ofScalar (.bool p.isEnd)) .nil

end Localization

/-- What is in a field after a value has been stored there: the value, but a file name without the
separator in front. -/
def Value.stored (f : Field) : Value → Value
  | .string s => .string (if f.name = "fileName" then bareName s else s)
  | v => v

namespace Localization.EntityType

variable {t : EntityType} {k : Nat} {f : Field} {tag : String}

/-- Only stream messages have fields of instances, and these are among the fields in front, which
are those of a request. -/
theorem request_of_nested (hf : t.fields[k]? = some f) (hkind : f.kind = .nested tag) :
    t ∈ [.streamRequest, .getRequest, .putRequest] ∧ k < 4 ∧ fields.requestFields[k]? = some f := by
  -- A field of another kind is none of instances.
  have hrest {fs : List Field} (hfs : ∀ f ∈ fs, ∀ tag, f.kind ≠ .nested tag)
      (hf : (fields.requestFields ++ fs)[k]? = some f) :
      k < 4 ∧ fields.requestFields[k]? = some f := by
    rcases Nat.lt_or_ge k 4 with hk | hk
    · exact ⟨hk, by rwa [List.getElem?_append_left hk] at hf⟩
    · rw [List.getElem?_append_right hk] at hf
      exact absurd hkind (hfs f (List.mem_of_getElem? hf) tag)
  cases t with
  | user | context =>
    rcases List.mem_of_getElem? hf with _ | ⟨_, _ | ⟨_, _ | ⟨_, ⟨⟩⟩⟩⟩ <;> cases hkind
  | streamRequest => exact ⟨by decide, (List.getElem?_eq_some_iff.1 hf).1, hf⟩
  | getRequest => exact ⟨by decide, hrest (by simp) hf⟩
  | putRequest => exact ⟨by decide, hrest (by simp) hf⟩

/-- The fields of instances are the one of a context and the one of a user. -/
theorem field_nested (hf : f ∈ t.fields) (hkind : f.kind = .nested tag) :
    t ∈ [.streamRequest, .getRequest, .putRequest] ∧
      (f.name = "context" ∧ tag = context.tag ∨ f.name = "user" ∧ tag = user.tag) := by
  obtain ⟨k, hk⟩ := List.getElem?_of_mem hf
  obtain ⟨ht, -, hk⟩ := request_of_nested hk hkind
  refine ⟨ht, ?_⟩
  rcases List.mem_of_getElem? hk with _ | ⟨_, _ | ⟨_, _ | ⟨_, _ | ⟨_, ⟨⟩⟩⟩⟩⟩ <;> cases hkind
  · exact .inl ⟨rfl, rfl⟩
  · exact .inr ⟨rfl, rfl⟩

end Localization.EntityType

/-- What a field of a localization type takes, it stores whole but for the separator in front of a
file name: the contexts and users in it hold no file names. -/
theorem Field.Takes.dropSeparators {t : EntityType} {f : Field} {v : Value} (hf : f ∈ t.fields)
    (hv : f.Takes v) : v.dropSeparators f = v.stored f := by
  cases v with
  | nested i =>
    obtain ⟨e, rfl, hkind⟩ := hv.2 i rfl
    have he : e.normalized = e := by
      cases e with
      | user | context => rfl
      | streamRequest | getRequest | putRequest =>
        rcases (EntityType.field_nested hf hkind).2 with ⟨-, htag⟩ | ⟨-, htag⟩ <;>
          cases EntityType.tag_injective htag
    simp only [Value.dropSeparators, Instance.dropSeparators, he, Value.stored]
  | _ => rfl

/-! ## What instances keep -/

/-- Whether a setter may keep a value as another: as it is, or as the name of a file without the
separator in front. -/
inductive Value.KeptAs : Value → Value → Prop
  | same (v : Value) : KeptAs v v
  | fileName (s : String) : KeptAs (.string s) (.string (bareName s))

/-- What is stored of a value is what a setter may keep of it. -/
theorem Value.keptAs_stored (f : Field) (v : Value) : v.KeptAs (v.stored f) := by
  cases v with
  | string s =>
    rw [stored]
    split
    next => exact .fileName s
    next => exact .same _
  | _ => exact .same _

/-- A setter changes the value at its index, and keeps there what it is given. -/
theorem Instance.values_of_setField {i i' : Instance} {k : Nat} {v : Value}
    (h : i.setField k v = .ok i') :
    ∃ w, v.KeptAs w ∧ i'.values = i.values.set k w := by
  cases i with
  | record shape values =>
    obtain ⟨values', hset, rfl⟩ := Except.map_eq_ok.1 h
    unfold RecordShape.setField at hset
    split at hset
    next => cases hset
    next f hf =>
      split at hset
      next =>
        cases hset
        exact ⟨v, .same v, rfl⟩
      next => cases hset
  | entity e =>
    obtain ⟨e', he, rfl⟩ := Except.map_eq_ok.1 h
    obtain ⟨f, hf, hv, hvalues⟩ := Entity.values_of_setField he
    rw [hv.dropSeparators (List.mem_of_getElem? hf)] at hvalues
    exact ⟨v.stored f, v.keptAs_stored f, hvalues⟩

/-! ## Refusals -/

/-- Whether a conversion refuses only values. An index is not known to it. -/
def RefusesValues {α : Type} (x : Except FieldError α) : Prop := ∀ n, x ≠ .error (.unknownIndex n)

namespace RefusesValues

variable {α β : Type} {x : Except FieldError α} {v : Value}

/-- What is made of a converted value does not matter. -/
theorem bind_pure (h : RefusesValues x) (f : α → β) :
    RefusesValues (x >>= fun a => pure (f a)) := by
  intro n hn
  cases x with
  | ok a => cases hn
  | error cause =>
    cases hn
    exact h n rfl

/-- What is made of a converted value does not matter. -/
theorem map (h : RefusesValues x) (f : α → β) : RefusesValues (x.map f) :=
  h.bind_pure f

/-- Null is let pass. -/
theorem optional {expect : Value → Except FieldError α} (h : RefusesValues (expect v)) :
    RefusesValues (Value.optional expect v) := by
  cases v with
  | null => exact nofun
  | _ => exact h.map _

/-- A value that is no text is refused. -/
theorem toText : RefusesValues v.toText := by
  unfold Value.toText
  split <;> exact nofun

/-- A value that is no byte string is refused. -/
theorem toBytes : RefusesValues v.toBytes := by
  unfold Value.toBytes
  split <;> exact nofun

/-- A value that is no number of 32 bits is refused. -/
theorem toI32 : RefusesValues v.toI32 := by
  unfold Value.toI32
  split <;> exact nofun

/-- A value that is no boolean is refused. -/
theorem toBool : RefusesValues v.toBool := by
  unfold Value.toBool
  split <;> exact nofun

/-- A value that names no choice is refused. -/
theorem toChoice [Choice α] : RefusesValues (v.toChoice α) := by
  unfold Value.toChoice
  split
  · split <;> exact nofun
  · exact nofun

/-- Every value that is no instance of a type is refused for its type. -/
theorem notInstance {t : InstanceType} :
    RefusesValues (.error (v.notInstance t) : Except FieldError α) := by
  cases v <;> exact nofun

/-- A value that is no context is refused. -/
theorem toContext : RefusesValues v.toContext := by
  unfold Value.toContext
  split
  · exact nofun
  · exact notInstance

/-- A value that is no user is refused. -/
theorem toUser : RefusesValues v.toUser := by
  unfold Value.toUser
  split
  · exact nofun
  · exact notInstance

end RefusesValues

namespace Localization

variable {k : Nat} {v : Value}

/-- A user refuses no index that has a field. -/
theorem User.refusesValues {u : User} (hk : k < EntityType.user.fields.length) :
    RefusesValues (u.setField k v) := by
  match k, hk with
  | 0, _ => exact .bind_pure (.optional .toText) _

/-- A context refuses no index that has a field. -/
theorem Context.refusesValues {c : Context} (hk : k < EntityType.context.fields.length) :
    RefusesValues (c.setField k v) := by
  match k, hk with
  | 0, _ => exact .bind_pure .toChoice _
  | 1, _ => exact .bind_pure .toChoice _
  | 2, _ => exact .bind_pure (.optional .toText) _

/-- A stream request refuses no index that has a field. -/
theorem StreamRequest.refusesValues {r : StreamRequest}
    (hk : k < EntityType.streamRequest.fields.length) : RefusesValues (r.setField k v) := by
  match k, hk with
  | 0, _ => exact .bind_pure (.optional .toContext) _
  | 1, _ => exact .bind_pure (.optional .toText) _
  | 2, _ => exact .bind_pure (.optional .toText) _
  | 3, _ => exact .bind_pure .toUser _

/-- A get request refuses no index that has a field. -/
theorem GetRequest.refusesValues {g : GetRequest} (hk : k < EntityType.getRequest.fields.length) :
    RefusesValues (g.setField k v) := by
  match k, hk with
  | 0, _ | 1, _ | 2, _ | 3, _ => exact .bind_pure (StreamRequest.refusesValues (by decide)) _
  | 4, _ => exact .bind_pure .toI32 _
  | 5, _ => exact .bind_pure .toI32 _

/-- A put request refuses no index that has a field. -/
theorem PutRequest.refusesValues {p : PutRequest} (hk : k < EntityType.putRequest.fields.length) :
    RefusesValues (p.setField k v) := by
  match k, hk with
  | 0, _ | 1, _ | 2, _ | 3, _ => exact .bind_pure (StreamRequest.refusesValues (by decide)) _
  | 4, _ => exact .bind_pure (.optional .toBytes) _
  | 5, _ => exact .bind_pure .toI32 _
  | 6, _ => exact .bind_pure .toBool _

/-- An entity refuses no index that has a field. -/
theorem Entity.refusesValues {e : Entity} (hk : k < e.type.fields.length) :
    RefusesValues (e.setField k v) := by
  cases e with
  | user u => exact .map (User.refusesValues hk) _
  | context c => exact .map (Context.refusesValues hk) _
  | streamRequest r => exact .map (StreamRequest.refusesValues hk) _
  | getRequest g => exact .map (GetRequest.refusesValues hk) _
  | putRequest p => exact .map (PutRequest.refusesValues hk) _

/-- An entity refuses every index that has no field. -/
theorem Entity.setField_of_ge (e : Entity) (hk : e.type.fields.length ≤ k) (v : Value) :
    e.setField k v = .error (.unknownIndex k) := by
  obtain ⟨n, rfl⟩ := Nat.exists_eq_add_of_le' hk
  cases e <;> rfl

/-! ## The tables agree -/

/-- A stream message has the fields of a request in front, and stores there as its request does. -/
theorem Entity.setField_of_request {e : Entity} {q : StreamRequest} (hq : e.request? = some q)
    (hk : k < 4) (v : Value) :
    e.setField k v = (q.setField k v).map fun q' => e.mapRequest fun _ => q' := by
  cases e with
  | user | context => cases hq
  | streamRequest r =>
    cases hq
    rfl
  | getRequest g =>
    cases hq
    rw [setField, g.setField_of_lt hk]
    cases g.request.setField k v <;> rfl
  | putRequest p =>
    cases hq
    rw [setField, p.setField_of_lt hk]
    cases p.request.setField k v <;> rfl

/-- What is read from an entity, the field at its index takes. -/
theorem Entity.takes_of_getElem? {e : Entity} (h : e.values[k]? = some v) :
    ∃ f, e.type.fields[k]? = some f ∧ f.Takes v := by
  obtain ⟨hk, rfl⟩ := List.getElem?_eq_some_iff.1 h
  have hfield : k < e.type.fields.length := e.length_values ▸ hk
  exact ⟨_, List.getElem?_eq_getElem hfield, e.forall₂_takes.get hfield hk⟩

/-- What an entity takes is read from the field afterwards, the rest is read as before. -/
theorem Entity.getElem?_of_setField {e e' : Entity} (h : e.setField k v = .ok e') :
    ∃ f, e.type.fields[k]? = some f ∧
      ∀ n, e'.values[n]? = if n = k then some (v.stored f) else e.values[n]? := by
  obtain ⟨f, hf, hv, hvalues⟩ := values_of_setField h
  have hk : k < e.values.length := e.length_values ▸ (List.getElem?_eq_some_iff.1 hf).1
  refine ⟨f, hf, fun n => ?_⟩
  rw [hvalues, hv.dropSeparators (List.mem_of_getElem? hf)]
  split
  next hn => rw [hn, List.getElem?_set_self hk]
  next hn => rw [List.getElem?_set_ne (Ne.symm hn)]

/-- An entity refuses an index exactly if it has no field there. -/
theorem Entity.unknownIndex_iff {e : Entity} {cause : FieldError}
    (h : e.setField k v = .error cause) :
    (∃ n, cause = .unknownIndex n) ↔ e.type.fields.length ≤ k := by
  refine ⟨?_, ?_⟩
  · rintro ⟨n, rfl⟩
    by_contra hk
    exact refusesValues (Nat.lt_of_not_le hk) n h
  · intro hk
    exact ⟨k, Except.error.inj (h.symm.trans (e.setField_of_ge hk v))⟩

/-- A stream message has the fields of a request in front. -/
theorem Entity.fields_prefix_of_request {e : Entity} {q : StreamRequest}
    (hq : e.request? = some q) : EntityType.streamRequest.fields <+: e.type.fields := by
  cases e with
  | user | context => cases hq
  | streamRequest r => exact List.prefix_rfl
  | getRequest | putRequest => exact List.prefix_append ..

/-- What is in front of a stream message is read from its request. -/
theorem Entity.getElem?_of_request {e : Entity} {q : StreamRequest} (hq : e.request? = some q)
    (hk : k < 4) : e.values[k]? = (Entity.streamRequest q).values[k]? := by
  cases e with
  | user | context => cases hq
  | streamRequest r =>
    cases hq
    rfl
  | getRequest | putRequest =>
    cases hq
    exact List.getElem?_append_left hk

/-- What an entity has at an index. A value can be read there exactly if the type has a field there,
and it is one that the field accepts, and an entity of the declared type if it is nested. The setter
takes exactly the values that the field takes in this sense. What it takes is read from there
afterwards, a file name without the separator in front, and the rest is read as before. What it
refuses leaves the entity unchanged, and is refused for the index exactly if there is no field. A
stream message has the fields of a request in front, reads them from its request and stores into
them as its request does. -/
theorem Entity.accessors_agree (e : Entity) (k : Nat) (v : Value) :
    let read (e : Entity) (n : Nat) : Option Value := (Instance.entity e).value? n
    let fields := e.type.fields
    ((read e k).isSome = true ↔ k < fields.length) ∧
    (∀ w, read e k = some w → ∃ f, fields[k]? = some f ∧ f.Takes w) ∧
    ((∃ e', e.setField k v = .ok e') ↔ ∃ f, fields[k]? = some f ∧ f.Takes v) ∧
    (∀ e', e.setField k v = .ok e' → Entity.assign k v e = .ok () e' ∧ e'.type = e.type ∧
      ∃ f, fields[k]? = some f ∧
        ∀ n, read e' n = if n = k then some (v.stored f) else read e n) ∧
    (∀ cause, e.setField k v = .error cause → Entity.assign k v e = .error cause e ∧
      ((∃ n, cause = .unknownIndex n) ↔ fields.length ≤ k) ∧
      (fields.length ≤ k → cause = .unknownIndex k)) ∧
    ∀ q, e.request? = some q → EntityType.streamRequest.fields <+: fields ∧
      (k < 4 → read e k = read (.streamRequest q) k ∧
        e.setField k v = (q.setField k v).map fun q' => e.mapRequest fun _ => q') := by
  intro read fields
  refine ⟨?_, fun w => takes_of_getElem?, ⟨?_, ?_⟩, ?_, ?_, ?_⟩
  · simp only [read, fields, Instance.value?, Instance.values, isSome_getElem?, e.length_values]
  · rintro ⟨e', he⟩
    exact takes_of_setField he
  · rintro ⟨f, hf, hv⟩
    obtain ⟨e', he, -⟩ := e.setField_of_takes hf hv
    exact ⟨e', he⟩
  · intro e' he
    obtain ⟨f, hf, hv⟩ := takes_of_setField he
    obtain ⟨_, he', htype, -⟩ := e.setField_of_takes hf hv
    cases he.symm.trans he'
    exact ⟨(performs_assign k v).of_ok he, htype, getElem?_of_setField he⟩
  · intro cause he
    refine ⟨(performs_assign k v).of_error he, unknownIndex_iff he, fun hk => ?_⟩
    exact Except.error.inj (he.symm.trans (e.setField_of_ge hk v))
  · intro q hq
    exact ⟨fields_prefix_of_request hq,
      fun hk => ⟨getElem?_of_request hq hk, setField_of_request hq hk v⟩⟩

/-- A file name is read back without one of its two separators, and the window of the request is as
before. A number is no file name. -/
theorem accessors_agree_fileName :
    let e : Entity := .getRequest { offset := 3 }
    (∃ e', e.setField 1 (.string "//a") = .ok e' ∧
      (Instance.entity e').value? 1 = some (.string "/a") ∧
      (Instance.entity e').value? 4 = some (.scalar (.i32 3))) ∧
    ∃ cause, e.setField 1 (.scalar (.i32 7)) = .error cause ∧ ¬∃ n, cause = .unknownIndex n := by
  intro e
  have hstored := Entity.accessors_agree e 1 (.string "//a")
  have hrefused := Entity.accessors_agree e 1 (.scalar (.i32 7))
  refine ⟨?_, ?_⟩
  · obtain ⟨e', he⟩ := hstored.2.2.1.2 ⟨_, rfl, .ofText (some "//a")⟩
    obtain ⟨-, -, f, hf, hread⟩ := hstored.2.2.2.1 e' he
    cases hf
    exact ⟨e', he, hread 1, hread 4⟩
  · obtain ⟨cause, he⟩ : ∃ cause, e.setField 1 (.scalar (.i32 7)) = .error cause := ⟨_, rfl⟩
    have hindex := (hrefused.2.2.2.2.1 cause he).2.1
    exact ⟨cause, he, fun h => absurd (hindex.1 h) (by decide)⟩

end Localization

end TagWire
