import TagWire.Localization.Access
import TagWire.Schema.Value

/-!
# Instances as trees

An instance is a tree: its values hold further instances, also inside lists and maps. `mapTree`
replaces the shape of every record and every entity of a tree and keeps all else, `Everywhere` says
that something holds of each of them. Two trees are the `Same` if they differ at most in the fields
that their records claim to have: they have the same tags and entities at the same places, and every
value, bit by bit. A tree is `normalized` when its stream requests have dropped the separator in
front of their file names.
-/

namespace TagWire

open TagWire.Localization (Entity)

mutual

/-- The value with the shape of every record and every entity in it replaced. -/
def Value.mapTree (shape : RecordShape → RecordShape) (entity : Entity → Entity) : Value → Value
  | .list items => .list (Value.mapTreeList shape entity items)
  | .map entries => .map (Value.mapTreeEntries shape entity entries)
  | .nested i => .nested (i.mapTree shape entity)
  | v => v
termination_by structural v => v

/-- The instance with the shape of every record and every entity in it replaced. -/
def Instance.mapTree (shape : RecordShape → RecordShape) (entity : Entity → Entity) :
    Instance → Instance
  | .record s vs => .record (shape s) (Value.mapTreeList shape entity vs)
  | .entity e => .entity (entity e)
termination_by structural i => i

/-- `Value.mapTree` on each of some values. -/
def Value.mapTreeList (shape : RecordShape → RecordShape) (entity : Entity → Entity) :
    List Value → List Value
  | [] => []
  | v :: vs => v.mapTree shape entity :: Value.mapTreeList shape entity vs
termination_by structural vs => vs

/-- `Value.mapTree` on the keys and values of some entries. -/
def Value.mapTreeEntries (shape : RecordShape → RecordShape) (entity : Entity → Entity) :
    List (Value × Value) → List (Value × Value)
  | [] => []
  | (k, v) :: es =>
    (k.mapTree shape entity, v.mapTree shape entity) :: Value.mapTreeEntries shape entity es
termination_by structural es => es

end

mutual

/-- Whether every record and every entity in a value has a property. -/
def Value.Everywhere (record : RecordShape → List Value → Prop) (entity : Entity → Prop) :
    Value → Prop
  | .list items => Value.EverywhereList record entity items
  | .map entries => Value.EverywhereEntries record entity entries
  | .nested i => i.Everywhere record entity
  | _ => True
termination_by structural v => v

/-- Whether every record and every entity in an instance has a property. -/
def Instance.Everywhere (record : RecordShape → List Value → Prop) (entity : Entity → Prop) :
    Instance → Prop
  | .record s vs => record s vs ∧ Value.EverywhereList record entity vs
  | .entity e => entity e
termination_by structural i => i

/-- `Value.Everywhere` on each of some values. -/
def Value.EverywhereList (record : RecordShape → List Value → Prop) (entity : Entity → Prop) :
    List Value → Prop
  | [] => True
  | v :: vs => v.Everywhere record entity ∧ Value.EverywhereList record entity vs
termination_by structural vs => vs

/-- `Value.Everywhere` on the keys and values of some entries. -/
def Value.EverywhereEntries (record : RecordShape → List Value → Prop) (entity : Entity → Prop) :
    List (Value × Value) → Prop
  | [] => True
  | (k, v) :: es =>
    (k.Everywhere record entity ∧ v.Everywhere record entity) ∧
      Value.EverywhereEntries record entity es
termination_by structural es => es

end

/-! ## Induction -/

section
variable {P : Value → Prop} (null : P .null) (scalar : ∀ s, P (.scalar s))
  (string : ∀ s, P (.string s)) (bytes : ∀ b, P (.bytes b)) (enum : ∀ variant, P (.enum variant))
  (list : ∀ items, (∀ v ∈ items, P v) → P (.list items))
  (map : ∀ entries, (∀ e ∈ entries, P e.1 ∧ P e.2) → P (.map entries))
  (record : ∀ shape vs, (∀ v ∈ vs, P v) → P (.nested (.record shape vs)))
  (entity : ∀ e, P (.nested (.entity e)))

include null scalar string bytes enum list map record entity

/-- Induction over a value as a tree, with a hypothesis for each value below it. -/
theorem Value.treeInduction (v : Value) : P v := by
  refine @Value.rec P (fun i => P (.nested i)) (fun vs => ∀ v ∈ vs, P v)
    (fun es => ∀ e ∈ es, P e.1 ∧ P e.2) (fun e => P e.1 ∧ P e.2) null scalar string bytes enum list
    map (fun _ h => h) record entity ?_ ?_ ?_ ?_ ?_ v
  · exact List.forall_mem_nil _
  · exact fun _ _ hv hvs => List.forall_mem_cons.2 ⟨hv, hvs⟩
  · exact List.forall_mem_nil _
  · exact fun _ _ he hes => List.forall_mem_cons.2 ⟨he, hes⟩
  · exact fun _ _ hk hv => ⟨hk, hv⟩

end

/-- The keys and values of a map are lighter than the map. -/
theorem Value.weight_lt_of_mem_entries {e : Value × Value} {es : List (Value × Value)}
    (h : e ∈ es) : e.1.weight < Value.entriesWeight es ∧ e.2.weight < Value.entriesWeight es := by
  induction es with
  | nil => cases h
  | cons e' es ih =>
    simp only [Value.entriesWeight]
    cases h with
    | head => exact ⟨by omega, by omega⟩
    | tail _ h =>
      obtain ⟨hk, hv⟩ := ih h
      exact ⟨by omega, by omega⟩

section
variable {P : Value → Prop} (null : P .null) (scalar : ∀ s, P (.scalar s))
  (string : ∀ s, P (.string s)) (bytes : ∀ b, P (.bytes b)) (enum : ∀ variant, P (.enum variant))
  (list : ∀ items, (∀ v ∈ items, P v) → P (.list items))
  (map : ∀ entries, (∀ e ∈ entries, P e.1 ∧ P e.2) → P (.map entries))
  (nested : ∀ i : Instance, (∀ v ∈ i.values, P v) → P (.nested i))

include null scalar string bytes enum list map nested

/-- Induction over a value as the codec sees it, with a hypothesis for each value of an instance,
also of an entity. -/
theorem Value.valuesInduction (v : Value) : P v := by
  generalize hn : v.weight = n
  induction n using Nat.strongRecOn generalizing v with
  | ind n ih =>
  subst hn
  cases v with
  | null => exact null
  | scalar s => exact scalar s
  | string s => exact string s
  | bytes b => exact bytes b
  | enum variant => exact enum variant
  | list items => exact list items fun v hv => ih _ (Value.weight_lt_of_mem hv) v rfl
  | map entries =>
    refine map entries fun e he => ?_
    obtain ⟨hk, hv⟩ := Value.weight_lt_of_mem_entries he
    exact ⟨ih _ hk e.1 rfl, ih _ hv e.2 rfl⟩
  | nested i =>
    exact nested i fun v hv =>
      ih _ (Nat.lt_trans (Value.weight_lt_of_mem hv) i.weight_values) v rfl

end

/-! ## Replacing shapes and entities -/

section
variable (shape : RecordShape → RecordShape) (entity : Entity → Entity)

/-- `Value.mapTreeList` element by element. -/
@[simp] theorem Value.mapTreeList_eq (vs : List Value) :
    Value.mapTreeList shape entity vs = vs.map (Value.mapTree shape entity) := by
  induction vs with
  | nil => rfl
  | cons v vs ih => rw [Value.mapTreeList, ih, List.map_cons]

/-- `Value.mapTreeEntries` entry by entry. -/
@[simp] theorem Value.mapTreeEntries_eq (es : List (Value × Value)) :
    Value.mapTreeEntries shape entity es =
      es.map fun e => (e.1.mapTree shape entity, e.2.mapTree shape entity) := by
  induction es with
  | nil => rfl
  | cons e es ih => rw [Value.mapTreeEntries, ih, List.map_cons]

@[simp] theorem Value.mapTree_list (items : List Value) :
    (Value.list items).mapTree shape entity = .list (items.map (Value.mapTree shape entity)) := by
  rw [Value.mapTree, Value.mapTreeList_eq]

@[simp] theorem Value.mapTree_map (entries : List (Value × Value)) :
    (Value.map entries).mapTree shape entity =
      .map (entries.map fun e => (e.1.mapTree shape entity, e.2.mapTree shape entity)) := by
  rw [Value.mapTree, Value.mapTreeEntries_eq]

@[simp] theorem Value.mapTree_nested (i : Instance) :
    (Value.nested i).mapTree shape entity = .nested (i.mapTree shape entity) := rfl

@[simp] theorem Instance.mapTree_record (s : RecordShape) (vs : List Value) :
    (Instance.record s vs).mapTree shape entity =
      .record (shape s) (vs.map (Value.mapTree shape entity)) := by
  rw [Instance.mapTree, Value.mapTreeList_eq]

@[simp] theorem Instance.mapTree_entity (e : Entity) :
    (Instance.entity e).mapTree shape entity = .entity (entity e) := rfl

/-- A field accepts the replaced value exactly if it accepts the value. -/
@[simp] theorem Field.accepts_mapTree (f : Field) (v : Value) :
    f.accepts (v.mapTree shape entity) = f.accepts v := by
  cases v <;> simp [Field.accepts, Value.isNull, Value.mapTree] <;> cases f.kind <;> rfl

/-- Replacing twice is replacing once. -/
theorem Value.mapTree_mapTree (shape' : RecordShape → RecordShape) (entity' : Entity → Entity)
    (v : Value) : (v.mapTree shape entity).mapTree shape' entity' =
      v.mapTree (shape' ∘ shape) (entity' ∘ entity) := by
  induction v using Value.treeInduction with
  | null | scalar _ | string _ | bytes _ | enum _ | entity _ => rfl
  | list items ih => simpa using ih
  | map entries ih => simpa using ih
  | record s vs ih => simpa using ih

/-- Replacing twice is replacing once. -/
theorem Instance.mapTree_mapTree (shape' : RecordShape → RecordShape) (entity' : Entity → Entity)
    (i : Instance) : (i.mapTree shape entity).mapTree shape' entity' =
      i.mapTree (shape' ∘ shape) (entity' ∘ entity) := by
  simpa using Value.mapTree_mapTree shape entity shape' entity' (.nested i)

end

/-! ## Properties of every record and entity -/

section
variable {record : RecordShape → List Value → Prop} {entity : Entity → Prop}

/-- `Value.EverywhereList` element by element. -/
@[simp] theorem Value.everywhereList_iff {vs : List Value} :
    Value.EverywhereList record entity vs ↔ ∀ v ∈ vs, v.Everywhere record entity := by
  induction vs with
  | nil => simp [Value.EverywhereList]
  | cons v vs ih => rw [Value.EverywhereList, ih, List.forall_mem_cons]

/-- `Value.EverywhereEntries` entry by entry. -/
@[simp] theorem Value.everywhereEntries_iff {es : List (Value × Value)} :
    Value.EverywhereEntries record entity es ↔
      ∀ e ∈ es, e.1.Everywhere record entity ∧ e.2.Everywhere record entity := by
  induction es with
  | nil => simp [Value.EverywhereEntries]
  | cons e es ih => rw [Value.EverywhereEntries, ih, List.forall_mem_cons]

@[simp] theorem Value.everywhere_list {items : List Value} :
    (Value.list items).Everywhere record entity ↔ ∀ v ∈ items, v.Everywhere record entity := by
  rw [Value.Everywhere, Value.everywhereList_iff]

@[simp] theorem Value.everywhere_map {entries : List (Value × Value)} :
    (Value.map entries).Everywhere record entity ↔
      ∀ e ∈ entries, e.1.Everywhere record entity ∧ e.2.Everywhere record entity := by
  rw [Value.Everywhere, Value.everywhereEntries_iff]

@[simp] theorem Value.everywhere_nested {i : Instance} :
    (Value.nested i).Everywhere record entity ↔ i.Everywhere record entity := Iff.rfl

@[simp] theorem Instance.everywhere_record {s : RecordShape} {vs : List Value} :
    (Instance.record s vs).Everywhere record entity ↔
      record s vs ∧ ∀ v ∈ vs, v.Everywhere record entity := by
  rw [Instance.Everywhere, Value.everywhereList_iff]

@[simp] theorem Instance.everywhere_entity {e : Entity} :
    (Instance.entity e).Everywhere record entity ↔ entity e := Iff.rfl

/-- What follows from a property holds wherever the property does. -/
theorem Value.Everywhere.mono {record' : RecordShape → List Value → Prop} {entity' : Entity → Prop}
    (hr : ∀ s vs, record s vs → record' s vs) (he : ∀ e, entity e → entity' e) {v : Value}
    (h : v.Everywhere record entity) : v.Everywhere record' entity' := by
  induction v using Value.treeInduction with
  | null | scalar _ | string _ | bytes _ | enum _ => trivial
  | list items ih =>
    rw [Value.everywhere_list] at h ⊢
    exact fun v hv => ih v hv (h v hv)
  | map entries ih =>
    rw [Value.everywhere_map] at h ⊢
    exact fun e he => ⟨(ih e he).1 (h e he).1, (ih e he).2 (h e he).2⟩
  | record s vs ih =>
    rw [Value.everywhere_nested, Instance.everywhere_record] at h ⊢
    exact ⟨hr s vs h.1, fun v hv => ih v hv (h.2 v hv)⟩
  | entity e => exact he e h

/-- What holds everywhere after replacing, from what holds before. -/
theorem Value.Everywhere.mapTree {shape : RecordShape → RecordShape} {map : Entity → Entity}
    {record' : RecordShape → List Value → Prop} {entity' : Entity → Prop}
    (hr : ∀ s vs, record s vs → record' (shape s) (vs.map (Value.mapTree shape map)))
    (he : ∀ e, entity e → entity' (map e)) {v : Value} (h : v.Everywhere record entity) :
    (v.mapTree shape map).Everywhere record' entity' := by
  induction v using Value.treeInduction with
  | null | scalar _ | string _ | bytes _ | enum _ => trivial
  | list items ih =>
    simp only [Value.everywhere_list, Value.mapTree_list, List.forall_mem_map] at h ⊢
    exact fun v hv => ih v hv (h v hv)
  | map entries ih =>
    simp only [Value.everywhere_map, Value.mapTree_map, List.forall_mem_map] at h ⊢
    exact fun e he => ⟨(ih e he).1 (h e he).1, (ih e he).2 (h e he).2⟩
  | record s vs ih =>
    simp only [Value.everywhere_nested, Instance.everywhere_record, Value.mapTree_nested,
      Instance.mapTree_record, List.forall_mem_map] at h ⊢
    exact ⟨hr s vs h.1, fun v hv => ih v hv (h.2 v hv)⟩
  | entity e => exact he e h

/-- What holds everywhere after replacing, from what holds before. -/
theorem Instance.Everywhere.mapTree {shape : RecordShape → RecordShape} {map : Entity → Entity}
    {record' : RecordShape → List Value → Prop} {entity' : Entity → Prop}
    (hr : ∀ s vs, record s vs → record' (shape s) (vs.map (Value.mapTree shape map)))
    (he : ∀ e, entity e → entity' (map e)) {i : Instance} (h : i.Everywhere record entity) :
    (i.mapTree shape map).Everywhere record' entity' :=
  Value.Everywhere.mapTree (v := .nested i) hr he h

/-- Replacing entities by themselves changes nothing. -/
theorem Value.mapTree_eq_self {map : Entity → Entity} (he : ∀ e, entity e → map e = e) {v : Value}
    (h : v.Everywhere record entity) : v.mapTree id map = v := by
  induction v using Value.treeInduction with
  | null | scalar _ | string _ | bytes _ | enum _ => rfl
  | list items ih =>
    have h := Value.everywhere_list.1 h
    rw [Value.mapTree_list, List.map_congr_left fun v hv => ih v hv (h v hv), List.map_id']
  | map entries ih =>
    have h := Value.everywhere_map.1 h
    rw [Value.mapTree_map, List.map_congr_left (g := id) fun e he => by
      rw [(ih e he).1 (h e he).1, (ih e he).2 (h e he).2]; rfl, List.map_id]
  | record s vs ih =>
    have h := (Instance.everywhere_record.1 (Value.everywhere_nested.1 h)).2
    rw [Value.mapTree_nested, Instance.mapTree_record,
      List.map_congr_left fun v hv => ih v hv (h v hv), List.map_id', id]
  | entity e => rw [Value.mapTree_nested, Instance.mapTree_entity, he e h]

/-- Replacing entities by themselves changes nothing. -/
theorem Instance.mapTree_eq_self {map : Entity → Entity} (he : ∀ e, entity e → map e = e)
    {i : Instance} (h : i.Everywhere record entity) : i.mapTree id map = i :=
  Value.nested.inj (Value.mapTree_eq_self (v := .nested i) he h)

end

/-! ## The same tree -/

/-- The tree without the fields that its records claim to have. -/
def Instance.bare (i : Instance) : Instance := i.mapTree (fun s => ⟨s.tag, []⟩) id

/-- Whether two instances are the same tree: the same tags and entities at the same places, with the
same values, bit by bit. -/
def Instance.Same (i j : Instance) : Prop := i.bare = j.bare

/-- Every tree is the same as itself. -/
theorem Instance.Same.refl (i : Instance) : i.Same i := rfl

/-- Being the same is symmetric. -/
theorem Instance.Same.symm {i j : Instance} (h : i.Same j) : j.Same i := Eq.symm h

/-- Being the same is transitive. -/
theorem Instance.Same.trans {i j k : Instance} (h : i.Same j) (h' : j.Same k) : i.Same k :=
  Eq.trans h h'

/-- Trees stay the same when their entities change alike and their records keep their tags. -/
theorem Instance.same_mapTree {shape shape' : RecordShape → RecordShape} {entity : Entity → Entity}
    (h : ∀ s, (shape s).tag = (shape' s).tag) (i : Instance) :
    (i.mapTree shape entity).Same (i.mapTree shape' entity) := by
  unfold Instance.Same Instance.bare
  rw [Instance.mapTree_mapTree, Instance.mapTree_mapTree]
  congr 1
  funext s
  simp [h]

/-! ## File names -/

namespace Localization

/-- A file name without the separator in front, if its first character is one. -/
def bareName (name : String) : String :=
  if name.toList.head? = some '/' then String.ofList name.toList.tail else name

/-- What is dropped from a file name is the separator that is its first character. -/
theorem normalizeFileName_eq (name : String) : normalizeFileName name = bareName name := by
  unfold normalizeFileName bareName
  split
  next rest hname => rw [hname, if_pos List.head?_cons, List.tail_cons]
  next hname =>
    refine (if_neg fun hhead => ?_).symm
    obtain ⟨rest, hrest⟩ := List.head?_eq_some_iff.1 hhead
    exact hname rest hrest

/-- The request without the separator in front of its file name. -/
def StreamRequest.normalized (r : StreamRequest) : StreamRequest :=
  { r with fileName := r.fileName.map bareName }

/-- A file name is stored without the separator in front. -/
theorem StreamRequest.setFileName_eq (r : StreamRequest) (name : Option String) :
    r.setFileName name = { r with fileName := name.map bareName } := by
  rw [setFileName, funext normalizeFileName_eq]

namespace Entity

/-- The entity as its setters leave it: a stream request drops one separator in front of its file
name. -/
def normalized (e : Entity) : Entity := e.mapRequest StreamRequest.normalized

/-- Whether no file name starts with a separator. -/
def SeparatorFree (e : Entity) : Prop :=
  ∀ r name, e.request? = some r → r.fileName = some name → name.toList.head? ≠ some '/'

/-- Normalizing keeps the type. -/
@[simp] theorem type_normalized (e : Entity) : e.normalized.type = e.type := by
  cases e <;> rfl

end Entity

end Localization

/-- An entity without a separator to drop stays. -/
theorem Localization.Entity.normalized_eq_self {e : Entity} (h : e.SeparatorFree) :
    e.normalized = e := by
  have hreq : ∀ r, e.request? = some r → r.normalized = r := by
    intro r hr
    obtain ⟨context, fileName, myContextName, user⟩ := r
    cases fileName with
    | none => rfl
    | some name =>
      have hname : bareName name = name := if_neg (h _ name hr rfl)
      simp only [StreamRequest.normalized, Option.map_some, hname]
  cases e with
  | user u => rfl
  | context c => rfl
  | streamRequest r | getRequest r | putRequest r =>
    simp only [normalized, mapRequest, hreq _ rfl]

/-- The tree as its setters leave it: every stream request drops one separator in front of its file
name. -/
def Instance.normalized (i : Instance) : Instance := i.mapTree id Entity.normalized

/-- Whether no stream request in the tree has a file name that starts with a separator. -/
def Instance.SeparatorFree (i : Instance) : Prop :=
  i.Everywhere (fun _ _ => True) Entity.SeparatorFree

/-- A tree without a separator to drop stays. -/
theorem Instance.normalized_eq_self {i : Instance} (h : i.SeparatorFree) : i.normalized = i :=
  Instance.mapTree_eq_self (fun _ => Entity.normalized_eq_self) h

end TagWire
