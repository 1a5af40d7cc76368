import Mathlib.Logic.Function.Basic
import TagWire.Proofs.Registry.Registration

/-!
# What a program can rely on

A registry can also be kept in three tables: the types by tag, the tags in order, and the tags that
types of instances are bound to. A registration changes each of them on its own
(`Registry.Tables.register`). They stay what the list of types says they are
(`Registry.register_tables`), so what holds of every sound registry holds of them, whatever calls
have been made and whichever of these have been refused (`Registry.Reachable.consistent`).
-/

namespace TagWire

open TagWire.Localization (EntityType)

namespace Registry

/-! ## Three tables -/

/-- The tables that a registry can be kept in. -/
structure Tables where
  /-- The types by their tags. -/
  types : String → Option Descriptor := fun _ => none
  /-- The tags in the order of registration. -/
  order : List String := []
  /-- The tags that types of instances are bound to. -/
  bindings : InstanceType → Option String := fun _ => none

namespace Tables

/-- A parent in the tables has to be compatible. -/
def checkParent (s : Tables) (d : Descriptor) : Except RegistryError Unit :=
  match d.parent? with
  | none => .ok ()
  | some parentTag =>
    match s.types parentTag with
    | none => .ok ()
    | some parent =>
      if d.startsWithFieldsOf parent then .ok ()
      else .error (.incompatibleParent d.tag parentTag)

/-- The bindings with that of a new type, unless its records carry another tag or its entities are
bound already. -/
def bindingsWith (s : Tables) (d : Descriptor) :
    Except RegistryError (InstanceType → Option String) :=
  match d.prototype with
  | .record shape _ =>
    if shape.tag == d.tag then .ok s.bindings
    else .error (.invalidDescriptor d.tag (.foreignRecords shape.tag))
  | .entity e =>
    match s.bindings (.entity e.type) with
    | some existing => .error (.conflictingBinding d.tag existing e.type)
    | none => .ok (Function.update s.bindings (.entity e.type) (some d.tag))

/-- Registers a type in each of the tables. -/
def register (s : Tables) (d : Descriptor) : Except RegistryError Tables :=
  if (s.types d.tag).isSome then .error (.duplicateType d.tag)
  else do
    s.checkParent d
    let bindings ← s.bindingsWith d
    return ⟨Function.update s.types d.tag (some d), s.order ++ [d.tag], bindings⟩

/-- The tables after a type is registered or refused. -/
def call (s : Tables) (d : Descriptor) : Tables :=
  match s.register d with
  | .ok s' => s'
  | .error _ => s

end Tables

/-- The tables of a registry. -/
def tables (r : Registry) : Tables := ⟨r.get?, r.tags, r.tagOf?⟩

/-- An empty registry has empty tables. -/
theorem tables_empty : tables ∅ = {} := by
  have hbindings : tagOf? ∅ = fun _ => none := funext fun t => by cases t <;> rfl
  rw [tables, hbindings]
  rfl

section
variable {r : Registry} {d : Descriptor}

/-- A type that is put behind others is found under its tag if none of them is. -/
theorem get?_append (tag : String) :
    get? ⟨r.types ++ [d]⟩ tag = (r.get? tag).or (if d.tag = tag then some d else none) := by
  by_cases htag : d.tag = tag <;> simp [get?, List.find?_append, htag]

/-- A type that is put behind others binds its entities if none of them does. -/
theorem tagOf?_append (t : InstanceType) : tagOf? ⟨r.types ++ [d]⟩ t =
    (r.tagOf? t).or (if t ≠ .record ∧ d.prototype.type = t then some d.tag else none) := by
  cases t with
  | record => simp [tagOf?]
  | entity t =>
    by_cases ht : d.prototype.type = .entity t <;>
      simp [tagOf?, bindingOf?, List.find?_append, ht]

/-- The types by their tags, with a new one. -/
theorem get?_append_eq_update (h : r.contains d.tag = false) :
    get? ⟨r.types ++ [d]⟩ = Function.update r.get? d.tag (some d) := by
  have hnone : r.get? d.tag = none := by simpa [contains] using h
  funext tag
  rw [get?_append]
  rcases eq_or_ne tag d.tag with rfl | htag
  · rw [Function.update_self, hnone, if_pos rfl, Option.none_or]
  · rw [Function.update_of_ne htag, if_neg htag.symm, Option.or_none]

/-- The tables of a registry with a new type. -/
theorem tables_append (h : r.contains d.tag = false) : tables ⟨r.types ++ [d]⟩ =
    ⟨Function.update r.get? d.tag (some d), r.tags ++ [d.tag], tagOf? ⟨r.types ++ [d]⟩⟩ := by
  rw [tables, get?_append_eq_update h, tags, List.map_append]
  rfl

/-- The bindings with that of a new type are those of the registry with the type, and are refused
like its fresh instances. -/
theorem bindingsWith_tables : r.tables.bindingsWith d =
    (r.checkPrototype d).map fun _ => tagOf? ⟨r.types ++ [d]⟩ := by
  unfold Tables.bindingsWith checkPrototype
  cases hd : d.prototype with
  | record shape vs =>
    have hsame : tagOf? ⟨r.types ++ [d]⟩ = r.tagOf? := by
      funext t
      rw [tagOf?_append, if_neg fun ht => ht.1 (by rw [← ht.2, hd]; rfl), Option.or_none]
    rw [hsame]
    dsimp only
    split <;> rfl
  | entity e =>
    have hbound : r.tables.bindings (.entity e.type) = r.bindingOf? e.type := rfl
    simp only [hbound]
    cases hnone : r.bindingOf? e.type with
    | some existing => rfl
    | none =>
      refine congrArg Except.ok (funext fun t => ?_)
      show Function.update r.tagOf? (.entity e.type) (some d.tag) t = tagOf? ⟨r.types ++ [d]⟩ t
      rw [tagOf?_append, hd]
      rcases eq_or_ne t (.entity e.type) with rfl | ht
      · rw [Function.update_self, tagOf?, hnone, if_pos ⟨nofun, rfl⟩, Option.none_or]
      · rw [Function.update_of_ne ht, if_neg fun h => ht h.2.symm, Option.or_none]

/-- Registration changes the tables of a registry like the registry, and is refused alike. -/
theorem register_tables (r : Registry) (d : Descriptor) :
    r.tables.register d = (r.register d).map tables := by
  have hcontains : (r.tables.types d.tag).isSome = r.contains d.tag := rfl
  have hparent : r.tables.checkParent d = r.checkParent d := rfl
  unfold Tables.register register
  rw [hcontains, hparent, bindingsWith_tables]
  cases hnew : r.contains d.tag with
  | true => rfl
  | false =>
    cases r.checkParent d with
    | error e => rfl
    | ok _ =>
      cases r.checkPrototype d with
      | error e => rfl
      | ok _ => exact congrArg Except.ok (tables_append hnew).symm

end

/-! ## Calls in a row -/

/-- What a program may have made of an empty registry, and of empty tables, by calls to register a
type, some of which may have been refused. -/
inductive Reachable : Registry → Tables → Prop
  | empty : Reachable ∅ {}
  | call {r : Registry} {s : Tables} (d : Descriptor) :
      Reachable r s → Reachable (r.registerAll [d]).1 (s.call d)

/-- A call leads to the registry with the type behind the others, or leaves it as it is. -/
theorem registerAll_singleton (r : Registry) (d : Descriptor) : r.registerAll [d] =
    match r.register d with
    | .ok r' => (r', .ok ())
    | .error e => (r, .error e) := rfl

variable {r : Registry} {s : Tables}

/-- A registry that can be reached is sound, and the tables are its tables. -/
theorem Reachable.sound (h : Reachable r s) : r.Sound ∧ s = r.tables := by
  induction h with
  | empty => exact ⟨sound_empty, tables_empty.symm⟩
  | @call r s d _ ih =>
    obtain ⟨hsound, rfl⟩ := ih
    rw [registerAll_singleton, Tables.call, register_tables]
    cases hd : r.register d with
    | ok r' => exact ⟨hsound.register hd, rfl⟩
    | error e => exact ⟨hsound, rfl⟩

/-- What a program can rely on in a registry. -/
structure Consistent (r : Registry) : Prop where
  /-- No tag is listed twice. -/
  nodup_tags : r.tags.Nodup
  /-- Exactly the registered tags are listed. -/
  mem_tags (tag : String) : tag ∈ r.tags ↔ r.contains tag = true
  /-- What is registered under a tag has this tag. -/
  tag_of_get? {tag : String} {d : Descriptor} : r.get? tag = some d → d.tag = tag
  /-- A type of instances is bound to a registered tag. -/
  contains_of_tagOf? {t : InstanceType} {tag : String} :
    r.tagOf? t = some tag → r.contains tag = true
  /-- No two types of instances are bound to one tag. -/
  tagOf?_injective {t t' : InstanceType} {tag : String} :
    r.tagOf? t = some tag → r.tagOf? t' = some tag → t = t'
  /-- Records are not bound. -/
  tagOf?_record : r.tagOf? .record = none
  /-- A registered tag has fresh instances. They, and whatever is of the same type and carries the
  same tag, are looked up under the type of the tag. -/
  lookupInstance_of_instantiate {tag : String} {d : Descriptor} : r.get? tag = some d →
    ∃ i, r.instantiate tag = .ok i ∧ ∀ j : Instance, j.type = i.type → j.ownTag? = i.ownTag? →
      r.lookupInstance j = .ok d

/-- A tag is bound to a type of instances if the type that is registered under it makes them, and
they are no records. -/
theorem Sound.tagOf?_eq_some_iff (h : r.Sound) {t : InstanceType} {tag : String} :
    r.tagOf? t = some tag ↔
      t ≠ .record ∧ ∃ d ∈ r.types, d.prototype.type = t ∧ d.tag = tag := by
  cases t with
  | record => simp [tagOf?]
  | entity t => simp [tagOf?, h.bindingOf?_eq_some_iff]

/-- A sound registry is consistent. -/
theorem Consistent.of_sound (h : r.Sound) : r.Consistent where
  nodup_tags := List.pairwise_map.2 (h.apart.imp And.left)
  mem_tags tag := by rw [contains_iff, tags, List.mem_map]
  tag_of_get? hd := (h.get?_eq_some_iff.1 hd).2
  contains_of_tagOf? ht := by
    obtain ⟨-, d, hd, -, htag⟩ := h.tagOf?_eq_some_iff.1 ht
    exact contains_iff.2 ⟨d, hd, htag⟩
  tagOf?_injective ht ht' := by
    obtain ⟨-, d, hd, rfl, rfl⟩ := h.tagOf?_eq_some_iff.1 ht
    obtain ⟨-, e, he, rfl, htag⟩ := h.tagOf?_eq_some_iff.1 ht'
    rw [h.eq_of_not_apart hd he fun hapart => hapart.1 htag.symm]
  tagOf?_record := rfl
  lookupInstance_of_instantiate {tag d} hd := by
    refine ⟨d.prototype, by simp only [instantiate, lookup, hd]; rfl, ?_⟩
    exact fun j htype htag => h.lookupInstance_of_prototype (h.get?_eq_some_iff.1 hd).1 htype htag

/-- Whatever a program has registered so far, its registry is consistent, also if it is kept in
tables. A further call that is refused leaves the registry as it is. One that succeeds lists the tag
of the new type behind the others, keeps what is found under them, and binds no more than the new
type. -/
theorem Reachable.consistent (h : Reachable r s) : s = r.tables ∧ r.Consistent ∧ ∀ d,
    match r.registerAll [d] with
    | (r', .error e) => s.register d = .error e ∧ r' = r
    | (r', .ok _) => s.register d = .ok r'.tables ∧
        r'.tags = r.tags ++ [d.tag] ∧ r'.get? d.tag = some d ∧
        (∀ tag ≠ d.tag, r'.get? tag = r.get? tag) ∧
        ∀ t, r'.tagOf? t =
          if t ≠ .record ∧ d.prototype.type = t then some d.tag else r.tagOf? t := by
  obtain ⟨hsound, rfl⟩ := h.sound
  refine ⟨rfl, .of_sound hsound, fun d => ?_⟩
  rw [registerAll_singleton, register_tables]
  cases hd : r.register d with
  | error e => exact ⟨rfl, rfl⟩
  | ok r' =>
    obtain ⟨hapart, -, -, rfl⟩ := register_eq_ok_iff.1 hd
    have hnew : r.contains d.tag = false := contains_eq_false_iff.2 fun e he => (hapart e he).1
    refine ⟨rfl, ?_, ?_, ?_, ?_⟩
    · rw [tags, List.map_append]
      rfl
    · rw [get?_append_eq_update hnew, Function.update_self]
    · intro tag htag
      rw [get?_append_eq_update hnew, Function.update_of_ne htag]
    · intro t
      rw [tagOf?_append]
      split
      next ht =>
        have hfree : r.tagOf? t = none := by
          cases t with
          | record => rfl
          | entity t => exact bindingOf?_eq_none_iff.2 fun e he het => (hapart e he).2 t het ht.2
        rw [hfree, Option.none_or]
      next => rw [Option.or_none]

/-- A user is looked up under its type, also after that has been registered once more, which is
refused. -/
theorem consistent_user : ∃ (r : Registry) (s : Tables), Reachable r s ∧ r.Consistent ∧
    s.order = ["User"] ∧
    r.lookupInstance (.entity (.user ⟨some "a"⟩)) = .ok EntityType.user.descriptor := by
  have hreach := (Reachable.empty.call EntityType.user.descriptor).call EntityType.user.descriptor
  have hget : (registerAll (registerAll ∅ [EntityType.user.descriptor]).1
      [EntityType.user.descriptor]).1.get? "User" = some EntityType.user.descriptor := rfl
  obtain ⟨i, hi, hlookup⟩ := hreach.consistent.2.1.lookupInstance_of_instantiate hget
  cases hi
  exact ⟨_, _, hreach, hreach.consistent.2.1, rfl, hlookup _ rfl rfl⟩

end Registry

end TagWire
