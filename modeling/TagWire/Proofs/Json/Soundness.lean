import TagWire.Proofs.Catalog.Loading
import TagWire.Proofs.Codec.Typing
import TagWire.Proofs.Json.Importing

/-!
# Importing is type-sound

Null goes wherever it stands in JSON, so what is imported need not have a wire form. Over a registry
that a command works with it is still well-typed: fresh instances are
(`Registry.Loaded.fieldsFit_prototype`), and so is whatever takes the place of their values
(`Registry.admits_of_imports`, by induction over the value that is made). So the encoder has nothing
to say about the types of what has been imported (`Registry.ofJson_sound`).
-/

namespace TagWire

open TagWire.Localization (EntityType)

/-! ## Leaves -/

namespace Json

/-- A scalar other than a character is read as one of its kind. -/
theorem kind_of_toScalar? {k : ScalarKind} {j : Json} {s : Scalar} (h : j.toScalar? k = some s) :
    s.kind = k := by
  cases k with
  | bool =>
    cases j with
    | bool b =>
      cases h
      rfl
    | _ => cases h
  | char => cases h
  | _ =>
    obtain ⟨_, -, rfl⟩ := Option.map_eq_some_iff.1 h
    rfl

/-- A scalar is read as one of its kind. -/
theorem kind_of_toScalar {k : ScalarKind} {j : Json} {s : Scalar} (h : j.toScalar k = .ok s) :
    s.kind = k := by
  unfold toScalar at h
  split at h
  next =>
    obtain ⟨text, -, h⟩ := Except.bind_eq_ok.1 h
    split at h
    next =>
      cases h
      rfl
    next => cases h
  next =>
    split at h
    next s' hs =>
      cases h
      exact kind_of_toScalar? hs
    next => cases h

end Json

namespace Registry

variable {r : Registry} {f : Field}

/-- A leaf is read as what may stand there. -/
theorem admits_of_toLeaf {j : Json} {v : Value} (h : j.toLeaf f.kind = .ok v) : r.Admits f v := by
  unfold Json.toLeaf at h
  split at h
  next k hk =>
    obtain ⟨s, hs, rfl⟩ := Except.map_eq_ok.1 h
    exact .scalar (by rw [hk, Json.kind_of_toScalar hs])
  next hk =>
    obtain ⟨s, -, rfl⟩ := Except.map_eq_ok.1 h
    exact .string hk
  next hk =>
    obtain ⟨text, -, h⟩ := Except.bind_eq_ok.1 h
    split at h
    next =>
      cases h
      exact .bytes hk
    next => cases h
  next e hk =>
    obtain ⟨variant, -, h⟩ := Except.bind_eq_ok.1 h
    split at h
    next hvariant =>
      cases h
      exact .enum hk hvariant
    next => cases h
  next => cases h
  next => cases h
  next => cases h

/-! ## Fresh instances -/

/-- What a fresh field holds may stand there. -/
theorem admits_initial : r.Admits f f.initial := by
  unfold Field.initial
  split
  next => exact .null
  next =>
  unfold FieldKind.initial
  split
  next k hk => exact .scalar (by rw [hk, ScalarKind.kind_zero])
  next hk => exact .string hk
  next hk => exact .bytes hk
  next e hk =>
    split
    next variant hvariant =>
      exact .enum hk (List.elem_eq_true_of_mem (List.mem_of_mem_head? hvariant))
    next => exact .null
  next => exact .null
  next element hk => exact .list hk (List.forall_mem_nil _)
  next key value hk => exact .map hk (List.forall_mem_nil _) (List.forall_mem_nil _)

/-- What a fresh record holds may stand in its fields. -/
theorem fieldsFit_initial (fs : List Field) :
    Codec.FieldsFit r.Admits fs (fs.map Field.initial) := by
  induction fs with
  | nil => exact trivial
  | cons f fs ih => exact ⟨admits_initial, ih⟩

/-- What a fresh entity holds may stand in its fields, if all of the localization types are
registered: a request comes with a user. -/
theorem Native.fieldsFit_fresh (hr : r.Native) (hfamily : ∀ t : EntityType, t.descriptor ∈ r.types)
    (t : EntityType) : Codec.FieldsFit r.Admits t.fields t.fresh.values := by
  have hlookup : r.lookupInstance (.entity (.user {})) = .ok EntityType.user.descriptor :=
    hr.lookupInstance_entity.2 ⟨rfl, hfamily .user⟩
  have huser (name : String) :
      r.Admits ⟨name, .nested EntityType.user.tag, false⟩ (.nested (.entity (.user {}))) :=
    .nested rfl hlookup (r.isAssignable_self _) (typed_of_fieldsFit hlookup ⟨.null, trivial⟩)
  cases t with
  | user => exact ⟨.null, trivial⟩
  | context => exact ⟨.enum rfl (by decide), .enum rfl (by decide), .null, trivial⟩
  | streamRequest => exact ⟨.null, .null, .null, huser _, trivial⟩
  | getRequest => exact ⟨.null, .null, .null, huser _, .scalar rfl, .scalar rfl, trivial⟩
  | putRequest =>
    exact ⟨.null, .null, .null, huser _, .null, .scalar rfl, .scalar rfl, trivial⟩

/-- What a fresh instance holds may stand in its fields. -/
theorem Loaded.fieldsFit_prototype (hr : r.Loaded) {d : Descriptor} (hd : d ∈ r.types) :
    Codec.FieldsFit r.Admits d.fields d.prototype.values := by
  rcases hr.native.ofRecords_or_entity d hd with hrec | ⟨t, rfl⟩
  · rw [hrec]
    exact fieldsFit_initial d.fields
  · exact hr.native.fieldsFit_fresh (hr.family hd) t

/-! ## What is imported -/

/-- Each item has been made of one. -/
theorem ImportsItems.exists_of_mem {element : Field} {js : List Json} {vs : List Value}
    (h : r.ImportsItems element js vs) {v : Value} (hv : v ∈ vs) :
    ∃ j, r.Imports element j v := by
  induction vs generalizing js with
  | nil => cases hv
  | cons v' vs ih =>
    cases h with
    | cons hj hjs =>
      rcases List.mem_cons.1 hv with rfl | hv
      · exact ⟨_, hj⟩
      · exact ih hjs hv

/-- Each entry has been made of a pair. -/
theorem ImportsEntries.exists_of_mem {key value : Field} {js : List Json}
    {es : List (Value × Value)} (h : r.ImportsEntries key value js es) {e : Value × Value}
    (he : e ∈ es) : ∃ jk jv, r.Imports key jk e.1 ∧ r.Imports value jv e.2 := by
  induction es generalizing js with
  | nil => cases he
  | cons e' es ih =>
    cases h with
    | cons hk hv hjs =>
      rcases List.mem_cons.1 he with rfl | he
      · exact ⟨_, _, hk, hv⟩
      · exact ih hjs he

/-- What a setter keeps of what has been imported may stand there if what it keeps as it is may. -/
theorem Imports.admits_of_keptAs {j : Json} {v w : Value} (h : r.Imports f j v) (hw : v.KeptAs w)
    (hsame : r.Imports f j w → r.Admits f w) : r.Admits f w := by
  cases hw with
  | same => exact hsame h
  | fileName s =>
    -- A text has been read as a leaf, of a field for texts.
    cases h with
    | leaf h =>
      have hs : r.Admits f (.string s) := admits_of_toLeaf h
      cases hs with
      | string hk => exact .string hk

/-- Fields that are made of members may hold what they do if fresh ones may, by induction on the
fields. -/
theorem ImportsFields.fieldsFit {members : List (String × Json)} {fs : List Field}
    {us vs : List Value} (h : r.ImportsFields members fs us vs)
    (hfresh : Codec.FieldsFit r.Admits fs us)
    (hvalues : ∀ v ∈ vs, ∀ f j, r.Imports f j v → r.Admits f v) :
    Codec.FieldsFit r.Admits fs vs := by
  induction fs generalizing us vs with
  | nil => exact trivial
  | cons f fs ih =>
    cases h with
    | absent _ h =>
      exact ⟨hfresh.1, ih h hfresh.2 (List.forall_mem_cons.1 hvalues).2⟩
    | present _ hj hw h =>
      obtain ⟨hv, hvs⟩ := List.forall_mem_cons.1 hvalues
      exact ⟨hj.admits_of_keptAs hw (hv f _), ih h hfresh.2 hvs⟩

section
variable (hr : r.Loaded)
include hr

/-- An instance that is made of an object is well-typed if its values may stand where they have been
made. -/
theorem typed_of_importsInstance {declared : String} {members : List (String × Json)} {i : Instance}
    (h : r.ImportsInstance declared members i)
    (hvalues : ∀ v ∈ i.values, ∀ f j, r.Imports f j v → r.Admits f v) : r.Typed i := by
  obtain ⟨hd, -, -, hfields⟩ := h
  have hmem := (mem_of_get? (hr.native.get?_of_lookupInstance hd)).1
  exact typed_of_fieldsFit hd (hfields.fieldsFit (hr.fieldsFit_prototype hmem) hvalues)

/-- What is made of JSON may stand where it has been made, by induction over the value. -/
theorem admits_of_imports (v : Value) (f : Field) (j : Json) (h : r.Imports f j v) :
    r.Admits f v := by
  induction v using Value.valuesInduction generalizing f j with
  | null => exact .null
  | scalar | string | bytes | enum =>
    cases h with
    | leaf h => exact admits_of_toLeaf h
  | list items ih =>
    cases h with
    | leaf h => exact admits_of_toLeaf h
    | list hk h =>
      refine .list hk fun v hv => ?_
      obtain ⟨j, hj⟩ := h.exists_of_mem hv
      exact ih v hv _ j hj
  | map entries ih =>
    cases h with
    | leaf h => exact admits_of_toLeaf h
    | map hk h =>
      refine .map hk (fun e he => ?_) fun e he => ?_
      · obtain ⟨jk, _, hkey, -⟩ := h.exists_of_mem he
        exact (ih e he).1 _ jk hkey
      · obtain ⟨_, jv, -, hvalue⟩ := h.exists_of_mem he
        exact (ih e he).2 _ jv hvalue
  | nested i ih =>
    cases h with
    | leaf h => exact admits_of_toLeaf h
    | nested hk h =>
      have hi := typed_of_importsInstance hr h ih
      obtain ⟨hd, -, hto, -⟩ := h
      exact .nested hk hd hto hi

/-- What is imported over a registry that a command works with is of the type that the object names,
or of the declared one where it names none, in either case one that is assignable to the declared
one, and so is every instance that is made of an object below it. It is well-typed down to the
values that no member was there for. Under whatever limits, encoding it succeeds or fails by its
content: a null where none is allowed, a length or the depth. -/
theorem ofJson_sound {declared : String} {j : Json} {i : Instance}
    (h : r.ofJson declared j = .ok i) :
    (∃ members d, j = .object members ∧ r.lookupInstance i = .ok d ∧
      Json.Names members declared d.tag ∧ r.isAssignable d.tag declared = true ∧
      r.ImportsInstance declared members i) ∧
    r.Typed i ∧
    ∀ l, (∃ m, (Codec.mk r l).encode i = .ok m) ∨
      ∃ e, (Codec.mk r l).encode i = .error e ∧ e.OfContent := by
  unfold ofJson at h
  split at h
  next members =>
    have himports := importsInstance_of_ofMembers
      (fun m hm f v => imports_of_mem hr.native members hm) hr.native h
    have htyped := typed_of_importsInstance hr himports fun v _ => admits_of_imports hr v
    have ⟨hd, hnames, hto, _⟩ := himports
    exact ⟨⟨members, _, rfl, hd, hnames, hto, himports⟩, htyped,
      fun l => Codec.encode_of_typed htyped⟩
  next => cases h

end

end Registry

/-- A catalog of notes with replies, which may be tasks. -/
def Catalog.notes : Catalog where
  types := [
    ⟨"Note", none, [⟨"replies", .composite (some (.name "Note")) none none none, false⟩]⟩,
    ⟨"Task", some "Note", [⟨"done", .name "bool", false⟩]⟩]

/-- The shape of a note. -/
def RecordShape.note : RecordShape :=
  ⟨"Note", [⟨"replies", .list ⟨"element", .nested "Note", false⟩, false⟩]⟩

/-- The shape of a task. -/
def RecordShape.task : RecordShape := ⟨"Task", note.fields ++ [⟨"done", .scalar .bool, false⟩]⟩

namespace Registry

/-- The registry of notes and tasks. -/
def notes : Registry where
  types := [
    ⟨"Note", none, RecordShape.note.fields, (Record.fresh .note).toInstance⟩,
    ⟨"Task", some "Note", RecordShape.task.fields, (Record.fresh .task).toInstance⟩]

/-- A note is imported with null among its replies, and is well-typed: the null is what the encoder
finds. The other reply is the task that its object names, and still has no replies itself. -/
theorem ofJson_sound_note :
    let members : List (String × Json) :=
      [("replies", .array [.object [("$type", .text "Task"), ("done", .bool true)], .null])]
    let task : Instance := .record .task [.list [], .scalar (.bool true)]
    let i : Instance := .record .note [.list [.nested task, .null]]
    let e : CodecError := .encoding (.missingField "Note" "replies")
    notes.ofJson "Note" (.object members) = .ok i ∧ notes.ImportsInstance "Note" members i ∧
      notes.Typed i ∧ (Codec.mk notes {}).encode i = .error e ∧ e.OfContent := by
  intro members task i e
  have hloaded : notes.Loaded := ⟨∅, Catalog.notes, .inl rfl, rfl⟩
  have hi : notes.ofJson "Note" (.object members) = .ok i := rfl
  have he : (Codec.mk notes {}).encode i = .error e := by rfl
  obtain ⟨⟨_, _, hj, -, -, -, himports⟩, htyped, hencode⟩ := ofJson_sound hloaded hi
  cases hj
  refine ⟨hi, himports, htyped, he, ?_⟩
  rcases hencode {} with ⟨m, hm⟩ | ⟨e', he', hcontent⟩
  · rw [he] at hm
    cases hm
  · rw [he] at he'
    cases he'
    exact hcontent

end Registry

end TagWire
