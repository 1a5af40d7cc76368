import TagWire.Proofs.Codec.Layout
import TagWire.Proofs.Registry.Native

/-!
# What arrives

What arrives of an instance that is sent is `Instance.received`: the same tree, with records in the
shapes that are registered and with the file names that setters leave (`Instance.received_same`).
The values of an entity are leaves, which arrive as they are.
-/

namespace TagWire

open TagWire.Localization (Entity StreamRequest)

/-- The shape in which records of a tag arrive: that of the registered type. -/
def Registry.shapeOf (r : Registry) (shape : RecordShape) : RecordShape :=
  match r.get? shape.tag with
  | some d => ⟨d.tag, d.fields⟩
  | none => shape

/-- A record arrives with its tag. -/
theorem Registry.tag_shapeOf (r : Registry) (shape : RecordShape) :
    (r.shapeOf shape).tag = shape.tag := by
  unfold shapeOf
  split
  next d hd => exact (mem_of_get? hd).2
  next => rfl

/-- The value that arrives when one is sent. -/
def Value.received (r : Registry) (v : Value) : Value := v.mapTree r.shapeOf Entity.normalized

/-- The instance that arrives when one is sent. -/
def Instance.received (r : Registry) (i : Instance) : Instance :=
  i.mapTree r.shapeOf Entity.normalized

/-- What arrives is the same tree, normalized. -/
theorem Instance.received_same (r : Registry) (i : Instance) : (i.received r).Same i.normalized :=
  Instance.same_mapTree r.tag_shapeOf i

/-- What arrives is looked up like what was sent. -/
theorem Registry.lookupInstance_received (r : Registry) (i : Instance) :
    r.lookupInstance (i.received r) = r.lookupInstance i :=
  r.lookupInstance_mapTree r.tag_shapeOf Entity.type_normalized i

/-- Whether a value has neither values below it nor a file name. -/
def Value.IsLeaf : Value → Prop
  | .list _ | .map _ | .nested (.record _ _) => False
  | .nested (.entity e) => e.request? = none
  | _ => True

/-- What holds of null, of each kind of value that entities have, and of entities without a request
holds of every value of an entity. -/
theorem Localization.Entity.forall_values {P : Value → Prop} (null : P .null)
    (text : ∀ s, P (.string s)) (bytes : ∀ b, P (.bytes b)) (choice : ∀ s, P (.enum s))
    (i32 : ∀ n, P (.scalar (.i32 n))) (bool : ∀ b, P (.scalar (.bool b)))
    (entity : ∀ e : Entity, e.request? = none → P (.nested (.entity e))) (e : Entity) :
    ∀ v ∈ e.values, P v := by
  have htext (o : Option String) : P (Value.ofOptionalText o) := by
    cases o with
    | none => exact null
    | some s => exact text s
  have hbytes (o : Option (List UInt8)) : P (Value.ofOptionalBytes o) := by
    cases o with
    | none => exact null
    | some b => exact bytes b
  have hrequest (r : StreamRequest) : ∀ v ∈ Entity.values.requestValues r, P v := by
    simp only [Entity.values.requestValues, List.forall_mem_cons]
    refine ⟨?_, htext _, htext _, entity _ rfl, List.forall_mem_nil _⟩
    cases r.context with
    | none => exact null
    | some c => exact entity _ rfl
  cases e with
  | user u =>
    simp only [Entity.values, List.forall_mem_cons]
    exact ⟨htext _, List.forall_mem_nil _⟩
  | context c =>
    simp only [Entity.values, List.forall_mem_cons]
    exact ⟨choice _, choice _, htext _, List.forall_mem_nil _⟩
  | streamRequest r => exact hrequest r
  | getRequest g =>
    simp only [Entity.values, List.forall_mem_append, List.forall_mem_cons]
    exact ⟨hrequest _, i32 _, i32 _, List.forall_mem_nil _⟩
  | putRequest p =>
    simp only [Entity.values, List.forall_mem_append, List.forall_mem_cons]
    exact ⟨hrequest _, hbytes _, i32 _, bool _, List.forall_mem_nil _⟩

/-- An entity has leaves as values. -/
theorem Localization.Entity.isLeaf_values : ∀ e : Entity, ∀ v ∈ e.values, v.IsLeaf :=
  Entity.forall_values trivial (fun _ => trivial) (fun _ => trivial) (fun _ => trivial)
    (fun _ => trivial) (fun _ => trivial) fun _ h => h

/-- An entity without a request is normalized, and nothing else is normalized to it. -/
theorem Localization.Entity.normalized_eq_iff {e e' : Entity} (h : e'.request? = none) :
    e.normalized = e' ↔ e = e' := by
  cases e with
  | user | context => rfl
  | streamRequest | getRequest | putRequest =>
    -- Neither side can hold: there is a request on the left and none on the right.
    refine ⟨?_, ?_⟩ <;> intro he <;> subst he <;> cases h

/-- A leaf arrives as it is, and nothing else arrives as that leaf. -/
theorem Value.IsLeaf.received_eq_iff {r : Registry} {v w : Value} (hw : w.IsLeaf) :
    v.received r = w ↔ v = w := by
  unfold Value.received
  cases v with
  | null | scalar | string | bytes | enum => rfl
  | list items =>
    rw [mapTree_list]
    refine ⟨?_, ?_⟩ <;> intro h <;> subst h <;> cases hw
  | map entries =>
    rw [mapTree_map]
    refine ⟨?_, ?_⟩ <;> intro h <;> subst h <;> cases hw
  | nested i =>
    rw [mapTree_nested]
    cases i with
    | record s vs =>
      rw [Instance.mapTree_record]
      refine ⟨?_, ?_⟩ <;> intro h <;> subst h <;> cases hw
    | entity e =>
      rw [Instance.mapTree_entity]
      refine ⟨?_, ?_⟩
      · intro h
        subst h
        exact congrArg (Value.nested ∘ Instance.entity) ((Entity.normalized_eq_iff hw).1 rfl)
      · intro h
        subst h
        exact congrArg (Value.nested ∘ Instance.entity) ((Entity.normalized_eq_iff hw).2 rfl)

/-- There are no records in a leaf. -/
theorem Value.IsLeaf.native {r : Registry} {v : Value} (h : v.IsLeaf) : v.Native r := by
  cases v with
  | list | map => cases h
  | nested i => cases i with
    | record => cases h
    | entity => trivial
  | _ => trivial

/-- The values of a native instance are native. -/
theorem Instance.Native.values {r : Registry} {i : Instance} (h : i.Native r) :
    ∀ v ∈ i.values, v.Native r := by
  cases i with
  | record s vs => exact (Instance.everywhere_record.1 h).2
  | entity e => exact fun v hv => (e.isLeaf_values v hv).native

/-- The values of an entity arrive as they are, and only they arrive as such. -/
theorem Localization.Entity.map_received_eq_iff {r : Registry} {e : Entity} {vs : List Value} :
    vs.map (Value.received r) = e.values ↔ vs = e.values := by
  have hleaf := e.isLeaf_values
  generalize e.values = ws at hleaf ⊢
  induction ws generalizing vs with
  | nil => exact List.map_eq_nil_iff
  | cons w ws ih =>
    obtain ⟨hw, hws⟩ := List.forall_mem_cons.1 hleaf
    cases vs with
    | nil => exact iff_of_false (List.cons_ne_nil _ _).symm (List.cons_ne_nil _ _).symm
    | cons v vs =>
      rw [List.map_cons, List.cons.injEq, List.cons.injEq]
      exact and_congr hw.received_eq_iff (ih hws)

end TagWire
