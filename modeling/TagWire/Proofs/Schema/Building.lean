import Mathlib.Data.List.Induction
import Mathlib.Data.List.Nodup
import TagWire.Proofs.Schema.Drafting
import TagWire.Proofs.Schema.History

/-!
# Building descriptors call by call

A draft is made by calls in any order: fields are added at the end, a parent is named or extended,
and it is said where fresh instances come from. What comes of them can be told without going through
them one by one (`Draft.after_eq`). The parent and the source of fresh instances are those named
last. The fields are those that extended types have put in front, the last of these types first,
followed by those that have been added, in the order of the calls.

A draft is built exactly if it is in order and knows its fresh instances, which decides about every
sequence of calls (`Draft.build_after`). Where these are records, their shape is taken from the
finished draft, so it does not matter whether they have been asked for before the fields were added.
-/

namespace TagWire

/-- Where no two fields have the same name, a name means whichever field has it. -/
theorem Field.indexOf?_eq_some_iff_of_nodup {fields : List Field}
    (h : (fields.map Field.name).Nodup) {name : String} {k : Nat} :
    indexOf? fields name = some k ↔ ∃ f, fields[k]? = some f ∧ f.name = name := by
  rw [indexOf?_eq_some_iff, IsFirst, and_iff_left_iff_imp]
  rintro ⟨f, hf, rfl⟩ n hn g hg hname
  -- The two fields would be the same one.
  have hnames : (fields.map Field.name)[n]? = (fields.map Field.name)[k]? := by
    rw [List.getElem?_map, List.getElem?_map, hf, hg, Option.map_some, Option.map_some, hname]
  have hlt : n < (fields.map Field.name).length := by
    rw [List.length_map]
    exact (List.getElem?_eq_some_iff.1 hg).1
  exact Nat.ne_of_lt hn (List.getElem?_inj hlt h |>.1 hnames)

namespace Draft

/-! ## Calls -/

/-- A call that changes a draft. Fields of all kinds are added in the same way. -/
inductive Call where
  | field (f : Field)
  | fields (fs : List Field)
  | extending (base : Descriptor)
  | parent (tag : String)
  | records
  | prototype (i : Instance)

namespace Call

/-- What a call makes of a draft. -/
def apply (d : Draft) : Call → Draft
  | field f => d.withField f
  | fields fs => d.withFields fs
  | extending base => d.extending base
  | parent tag => d.withParent tag
  | records => d.withRecords
  | prototype i => d.withPrototype i

/-- The parent that a call names. -/
def parent? : Call → Option String
  | extending base => some base.tag
  | parent tag => some tag
  | _ => none

/-- Where fresh instances come from according to a call. -/
def source? : Call → Option PrototypeSource
  | records => some .ownRecord
  | prototype i => some (.instance i)
  | _ => none

/-- The fields that a call puts in front. -/
def inherited : Call → List Field
  | extending base => base.fields
  | _ => []

/-- The fields that a call adds at the end. -/
def added : Call → List Field
  | field f => [f]
  | fields fs => fs
  | _ => []

end Call

/-- What the last of the calls says that says anything. -/
def last? {α : Type} (what : Call → Option α) (calls : List Call) : Option α :=
  calls.reverse.findSome? what

/-- The fields after some calls: those that types have put in front, the last of these first, and
then those that have been added. -/
def fieldsAfter (calls : List Call) : List Field :=
  calls.reverse.flatMap Call.inherited ++ calls.flatMap Call.added

/-- The draft that some calls make, starting with a tag alone. -/
def after (tag : String) (calls : List Call) : Draft := calls.foldl Call.apply { tag }

variable {α : Type} {what : Call → Option α} {calls before rest : List Call} {c : Call}

/-- What a further call says counts. -/
theorem last?_concat : last? what (calls ++ [c]) = (what c).or (last? what calls) := by
  rw [last?, last?, List.reverse_concat, List.findSome?_cons]
  cases what c <;> rfl

/-- What a call says counts if the later ones say nothing. -/
theorem last?_eq {a : α} (hc : what c = some a) (hrest : ∀ c ∈ rest, what c = none) :
    last? what (before ++ c :: rest) = some a := by
  have hnone : rest.reverse.findSome? what = none := by simpa using hrest
  simp [last?, hnone, hc]

/-- Something is said if a call says it. -/
theorem last?_ne_none_iff : last? what calls ≠ none ↔ ∃ c ∈ calls, what c ≠ none := by
  simp [last?]

/-- What calls make of a draft, by induction on the calls. -/
theorem after_eq (tag : String) (calls : List Call) : after tag calls =
    { tag, parent? := last? Call.parent? calls, fields := fieldsAfter calls,
      source? := last? Call.source? calls } := by
  induction calls using List.reverseRecOn with
  | nil => rfl
  | append_singleton calls c ih =>
    rw [after, List.foldl_concat, ← after, ih, last?_concat, last?_concat]
    cases c <;> simp [Call.apply, withField, withFields, Draft.extending, withParent, withRecords,
      withPrototype, fieldsAfter, Call.parent?, Call.source?, Call.inherited, Call.added]

/-- Fields that a type has put in front stay there until another one is extended. -/
theorem prefix_fieldsAfter {base : Descriptor} (hrest : ∀ c ∈ rest, c.parent? = none) :
    base.fields <+: fieldsAfter (before ++ .extending base :: rest) := by
  have hnone : rest.reverse.flatMap Call.inherited = [] := by
    rw [List.flatMap_eq_nil_iff]
    intro c hc
    have := hrest c (List.mem_reverse.1 hc)
    cases c with
    | extending base => cases this
    | _ => rfl
  simp [fieldsAfter, hnone, Call.inherited]

/-! ## What is built -/

/-- A draft is built exactly if it is in order and knows its fresh instances. -/
theorem build_eq_ok_iff {d : Draft} {b : Descriptor} : d.build = .ok b ↔
    d.InOrder ∧ ∃ i, d.prototype? = some i ∧ b = ⟨d.tag, d.parent?, d.fields, i⟩ := by
  rw [← fault?_eq_none_iff, build]
  cases d.fault? with
  | some fault => simp
  | none => cases d.prototype? <;> simp [eq_comm]

/-- A draft that is in order can be built if it knows its fresh instances. -/
theorem exists_build_iff {d : Draft} :
    (∃ b, d.build = .ok b) ↔ d.InOrder ∧ d.source? ≠ none := by
  simp only [build_eq_ok_iff, prototype?]
  cases d.source? <;> simp

/-- What calls come to. The draft is built exactly if there is a tag, which is not that of the
parent named last, the names of all fields are neither empty nor equal to each other, and some call
has said where fresh instances come from. What is built has the fields that extended types have put
in front and then those that have been added. It starts with those of the parent if the last call to
name one extended it. Each name leads to the field that has it. If the last call about fresh
instances was for records, they have the tag and hold what the fields hold at first, whenever those
were added. -/
theorem build_after (tag : String) (calls : List Call) :
    ((∃ d, (after tag calls).build = .ok d) ↔
      tag ≠ "" ∧ last? Call.parent? calls ≠ some tag ∧
      "" ∉ (fieldsAfter calls).map Field.name ∧ ((fieldsAfter calls).map Field.name).Nodup ∧
      ∃ c ∈ calls, c.source? ≠ none) ∧
    ∀ d, (after tag calls).build = .ok d →
      d.tag = tag ∧ d.parent? = last? Call.parent? calls ∧ d.fields = fieldsAfter calls ∧
      (∀ before base rest, calls = before ++ .extending base :: rest →
        (∀ c ∈ rest, c.parent? = none) →
        d.parent? = some base.tag ∧ d.startsWithFieldsOf base = true) ∧
      (∀ name k, d.fieldIndex? name = some k ↔ ∃ f, d.fields[k]? = some f ∧ f.name = name) ∧
      ∀ before rest, calls = before ++ .records :: rest → (∀ c ∈ rest, c.source? = none) →
        d.prototype = (Record.fresh ⟨tag, d.fields⟩).toInstance ∧
        d.prototype.ownTag? = some tag ∧ d.prototype.values = d.fields.map Field.initial := by
  rw [exists_build_iff, after_eq, ← last?_ne_none_iff]
  refine ⟨⟨?_, ?_⟩, ?_⟩
  · rintro ⟨hd, hsource⟩
    exact ⟨hd.tag_ne_empty, hd.parent?_ne, hd.name_ne_empty, hd.nodup_names, hsource⟩
  · rintro ⟨htag, hparent, hempty, hnodup, hsource⟩
    exact ⟨⟨htag, hparent, hempty, hnodup⟩, hsource⟩
  · intro d hbuild
    obtain ⟨hd, i, hi, rfl⟩ := build_eq_ok_iff.1 hbuild
    refine ⟨rfl, rfl, rfl, ?_, fun name k => Field.indexOf?_eq_some_iff_of_nodup hd.nodup_names, ?_⟩
    · rintro before base rest rfl hrest
      exact ⟨last?_eq rfl hrest, List.isPrefixOf_iff_prefix.2 (prefix_fieldsAfter hrest)⟩
    · rintro before rest rfl hrest
      have hsource : last? Call.source? (before ++ .records :: rest) = some .ownRecord :=
        last?_eq rfl hrest
      simp only [prototype?, hsource, Option.map_some, Option.some.injEq] at hi
      cases hi
      exact ⟨rfl, rfl, rfl⟩

/-- A type that is extended after records have been asked for and a field has been added is in front
of this field, and its fields are in the records. -/
example :
    let note : Descriptor := ⟨"Note", none, [⟨"text", .string, false⟩], .record ⟨"Note", []⟩ []⟩
    let calls : List Call := [.records, .field ⟨"done", .scalar .bool, false⟩, .extending note]
    (after "Task" calls).build.map (fun d => (d.parent?, d.prototype.values)) =
      .ok (some "Note", [.string "", .scalar (.bool false)]) := by
  rfl

end Draft

end TagWire
