import Mathlib.Algebra.Group.Int.Defs
import Mathlib.Algebra.Group.Nat.Defs
import Mathlib.Data.List.Basic
import TagWire.Codec.Writer
import TagWire.Proofs.Schema.Tree
import TagWire.Proofs.Text.Utf8
import TagWire.Registry.Basic

/-!
# The wire form

What a message looks like on the wire, said without an encoder. The rows of `Layout` say what each
item is: a number is its digits to the base 256, the lowest first, a signed one in two's complement,
a float its bits, a character its code point, a text its UTF-8 bytes behind their number. They are
said over again here, byte by byte, and shown to be what the writer has (`Layout.scalar_eq`,
`Layout.text_eq` and so on).

`Registry.message` puts them together: it is the tag of an instance and then the form of every field
in the order of its type, and `Registry.form` is the form of a value in the place of a field. An
instance that nests another one holds that one's whole message. Neither looks at the fields that a
record claims to have (`Registry.message_mapTree`).
-/

namespace TagWire

/-! ## Rows -/

namespace Layout

/-- A number of `width` bytes: its digits to the base 256, the lowest first. -/
def word (width n : Nat) : List UInt8 :=
  (List.range width).map fun k => UInt8.ofNat (n / 256 ^ k % 256)

/-- A signed number of `width` bytes, in two's complement. -/
def signed (width : Nat) (n : Int) : List UInt8 := word width (n % 256 ^ width).toNat

/-- A scalar: a boolean as one or zero, an integer in its width, a float as its bits, a character as
its code point. -/
def scalar : Scalar → List UInt8
  | .bool b => if b then [1] else [0]
  | .i8 n => signed 1 n.toInt
  | .i16 n => signed 2 n.toInt
  | .i32 n => signed 4 n.toInt
  | .i64 n => signed 8 n.toInt
  | .u8 n => word 1 n.toNat
  | .u16 n => word 2 n.toNat
  | .u32 n => word 4 n.toNat
  | .u64 n => word 8 n.toNat
  | .f32 x => word 4 x.bits.toNat
  | .f64 x => word 8 x.bits.toNat
  | .char c => word 4 c.toNat

/-- The byte in front of a nullable scalar that is there. -/
def present : List UInt8 := [1]

/-- The byte in the place of a nullable scalar that is not there. -/
def absent : List UInt8 := [0]

/-- Null in the place of a length, of a count or of a tag. -/
def null : List UInt8 := [0xFF, 0xFF, 0xFF, 0xFF]

/-- The number of items, in front of them. -/
def count (n : Nat) : List UInt8 := word 4 n

/-- Bytes behind their number. -/
def block (bytes : List UInt8) : List UInt8 := count bytes.length ++ bytes

/-- A text: its UTF-8 bytes behind their number. -/
def text (s : String) : List UInt8 := block s.toUTF8.data.toList

/-- The writer has a number digit by digit. -/
theorem word_eq (width n : Nat) : word width n = Word.bytes width n := by
  induction width generalizing n with
  | zero => rfl
  | succ width ih =>
    rw [Word.bytes, ← ih, word, word, List.range_succ_eq_map, List.map_cons, List.map_map]
    refine congrArg₂ List.cons ?_ (List.map_congr_left fun k _ => ?_)
    · rw [Nat.pow_zero, Nat.div_one, Nat.toUInt8, UInt8.ofNat_mod_size]
    · simp only [Function.comp_apply, Nat.pow_succ, Nat.div_div_eq_div_mul, Nat.mul_comm 256]

/-- The remainder of a signed number is the number with the same bits. -/
theorem toNat_emod_toInt {w : Nat} (x : BitVec w) :
    (x.toInt % (2 ^ w : Nat)).toNat = x.toNat := by
  rw [BitVec.toInt_eq_toNat_bmod, Int.bmod_emod, ← Int.natCast_emod, Int.toNat_natCast,
    Nat.mod_eq_of_lt x.isLt]

/-- The writer has a scalar as it is laid out. -/
theorem scalar_eq (s : Scalar) : scalar s = s.bytes := by
  cases s with
  | bool b => cases b <;> rfl
  | i8 n => exact (congrArg (word 1) (toNat_emod_toInt n.toBitVec)).trans (word_eq ..)
  | i16 n => exact (congrArg (word 2) (toNat_emod_toInt n.toBitVec)).trans (word_eq ..)
  | i32 n => exact (congrArg (word 4) (toNat_emod_toInt n.toBitVec)).trans (word_eq ..)
  | i64 n => exact (congrArg (word 8) (toNat_emod_toInt n.toBitVec)).trans (word_eq ..)
  | u8 | u16 | u32 | u64 | f32 | f64 | char => exact word_eq ..

/-- The writer has a count as it is laid out. -/
theorem count_eq (n : Nat) : count n = Wire.count n := word_eq 4 n

/-- The writer has a block as it is laid out. -/
theorem block_eq (bytes : List UInt8) : block bytes = Wire.block bytes := by
  rw [block, count_eq, Wire.block]

/-- The writer has a text as it is laid out. -/
theorem text_eq (s : String) : text s = Wire.text s := by
  rw [text, block_eq, ← Text.Utf8.ofString_eq, Wire.text]

end Layout

namespace Registry

open TagWire.Localization (Entity)

/-! ## Messages -/

mutual

/-- The wire form of a value in the place of a field. -/
def form (r : Registry) (f : Field) : Value → List UInt8
  | .null =>
    match f.kind with
    | .scalar _ => Layout.absent
    | _ => Layout.null
  | .scalar s => (if f.nullable then Layout.present else []) ++ Layout.scalar s
  | .string s => Layout.text s
  | .bytes b => Layout.block b
  | .enum variant => Layout.text variant
  | .nested i => r.message i
  | .list items =>
    match f.kind with
    | .list element => Layout.count items.length ++ r.itemsForm element items
    | _ => []
  | .map entries =>
    match f.kind with
    | .map key value => Layout.count entries.length ++ r.entriesForm key value entries
    | _ => []
termination_by v => (v.weight, 1)
decreasing_by all_goals simp only [Value.weight]; decreasing_tactic

/-- The wire form of an instance. -/
def message (r : Registry) (i : Instance) : List UInt8 :=
  match r.lookupInstance i with
  | .ok d => Layout.text d.tag ++ r.fieldsForm d.fields i.values
  | .error _ => []
termination_by (i.weight, 0)
decreasing_by exact Prod.Lex.left _ _ i.weight_values

/-- The wire forms of the values of fields in a row. -/
def fieldsForm (r : Registry) : List Field → List Value → List UInt8
  | f :: fs, v :: vs => r.form f v ++ r.fieldsForm fs vs
  | _, _ => []
termination_by _ vs => (Value.listWeight vs, 0)
decreasing_by all_goals simp only [Value.listWeight]; apply Prod.Lex.left; omega

/-- The wire forms of the items of a list in a row. -/
def itemsForm (r : Registry) (element : Field) : List Value → List UInt8
  | [] => []
  | v :: vs => r.form element v ++ r.itemsForm element vs
termination_by vs => (Value.listWeight vs, 0)
decreasing_by all_goals simp only [Value.listWeight]; apply Prod.Lex.left; omega

/-- The wire forms of the entries of a map in a row, each key before its value. -/
def entriesForm (r : Registry) (key value : Field) : List (Value × Value) → List UInt8
  | [] => []
  | (k, v) :: es => (r.form key k ++ r.form value v) ++ r.entriesForm key value es
termination_by es => (Value.entriesWeight es, 0)
decreasing_by all_goals simp only [Value.entriesWeight]; apply Prod.Lex.left; omega

end

variable (r : Registry)

/-- The items of a list have their forms in a row. -/
theorem itemsForm_eq_flatMap (element : Field) (vs : List Value) :
    r.itemsForm element vs = vs.flatMap (r.form element) := by
  induction vs with
  | nil => rw [itemsForm, List.flatMap_nil]
  | cons v vs ih => rw [itemsForm, ih, List.flatMap_cons]

/-- The entries of a map have the forms of their keys and values in a row. -/
theorem entriesForm_eq_flatMap (key value : Field) (es : List (Value × Value)) :
    r.entriesForm key value es = es.flatMap fun e => r.form key e.1 ++ r.form value e.2 := by
  induction es with
  | nil => rw [entriesForm, List.flatMap_nil]
  | cons e es ih => rw [entriesForm, ih, List.flatMap_cons]

section

variable {f : Field}

/-- Null in the place of a scalar is the byte that says so. -/
theorem form_null_of_scalar {k : ScalarKind} (hk : f.kind = .scalar k) :
    r.form f .null = Wire.presence false := by
  rw [form, hk]
  rfl

/-- Null in the place of anything else is the word of null. -/
theorem form_null (hk : ∀ k, f.kind ≠ .scalar k) : r.form f .null = Wire.null := by
  rw [form]
  cases hkind : f.kind with
  | scalar k => exact absurd hkind (hk k)
  | _ => rfl

/-- A scalar is its bytes, behind the byte of presence if it may be null. -/
theorem form_scalar (s : Scalar) :
    r.form f (.scalar s) = (if f.nullable then Wire.presence true else []) ++ s.bytes := by
  rw [form, Layout.scalar_eq]
  rfl

/-- A text is its bytes behind their length. -/
theorem form_string (s : String) : r.form f (.string s) = Wire.text s := by
  rw [form, Layout.text_eq]

/-- Bytes stand behind their length. -/
theorem form_bytes (b : List UInt8) : r.form f (.bytes b) = Wire.block b := by
  rw [form, Layout.block_eq]

/-- A variant is its name. -/
theorem form_enum (variant : String) : r.form f (.enum variant) = Wire.text variant := by
  rw [form, Layout.text_eq]

/-- A nested instance is its message. -/
theorem form_nested (i : Instance) : r.form f (.nested i) = r.message i := by
  rw [form]

/-- A list is the number of its items and their forms in a row. -/
theorem form_list {element : Field} (hk : f.kind = .list element) (items : List Value) :
    r.form f (.list items) = Wire.count items.length ++ items.flatMap (r.form element) := by
  rw [form, hk, ← itemsForm_eq_flatMap, Layout.count_eq]

/-- A map is the number of its entries and the forms of their keys and values in a row. -/
theorem form_map {key value : Field} (hk : f.kind = .map key value)
    (entries : List (Value × Value)) :
    r.form f (.map entries) = Wire.count entries.length ++
      entries.flatMap fun e => r.form key e.1 ++ r.form value e.2 := by
  rw [form, hk, ← entriesForm_eq_flatMap, Layout.count_eq]

end

/-- The form of a message whose type is known. -/
theorem message_of_lookup {i : Instance} {d : Descriptor} (h : r.lookupInstance i = .ok d) :
    r.message i = Wire.text d.tag ++ r.fieldsForm d.fields i.values := by
  rw [message, h, ← Layout.text_eq]

/-- An instance is looked up by its tag or by the type of its entity alone. -/
theorem lookupInstance_mapTree {shape : RecordShape → RecordShape} {entity : Entity → Entity}
    (hs : ∀ s, (shape s).tag = s.tag) (he : ∀ e, (entity e).type = e.type) (i : Instance) :
    r.lookupInstance (i.mapTree shape entity) = r.lookupInstance i := by
  cases i with
  | record s vs =>
    simp only [Instance.mapTree_record, lookupInstance, descriptorOf?, hs, Instance.ownTag?,
      Option.getD_some]
  | entity e =>
    simp only [Instance.mapTree_entity, lookupInstance, descriptorOf?, he, Instance.ownTag?,
      Instance.type]

/-- Fields have the forms of replaced values if each value has. -/
theorem fieldsForm_map {g : Value → Value} {vs : List Value}
    (h : ∀ v ∈ vs, ∀ f, r.form f (g v) = r.form f v) (fs : List Field) :
    r.fieldsForm fs (vs.map g) = r.fieldsForm fs vs := by
  induction vs generalizing fs with
  | nil => rfl
  | cons v vs ih =>
    cases fs with
    | nil => rw [List.map_cons, fieldsForm, fieldsForm] <;> simp
    | cons f fs =>
      rw [List.map_cons, fieldsForm, fieldsForm, h v (.head _),
        ih fun v hv => h v (.tail _ hv)]

/-- A value has the same form whatever fields its records claim to have. -/
theorem form_mapTree {shape : RecordShape → RecordShape} (hs : ∀ s, (shape s).tag = s.tag)
    (f : Field) (v : Value) : r.form f (v.mapTree shape id) = r.form f v := by
  induction v using Value.treeInduction generalizing f with
  | null | scalar _ | string _ | bytes _ | enum _ | entity _ => rfl
  | list items ih =>
    rw [Value.mapTree_list, form, form]
    cases f.kind with
    | list element =>
      simp only [itemsForm_eq_flatMap, List.length_map, List.flatMap_map]
      rw [List.flatMap_congr fun v hv => ih v hv element]
    | _ => rfl
  | map entries ih =>
    rw [Value.mapTree_map, form, form]
    cases f.kind with
    | map key value =>
      simp only [entriesForm_eq_flatMap, List.length_map, List.flatMap_map]
      rw [List.flatMap_congr fun e he => by rw [(ih e he).1 key, (ih e he).2 value]]
    | _ => rfl
  | record s vs ih =>
    have he : ∀ e : Entity, (id e).type = e.type := fun _ => rfl
    have hl := r.lookupInstance_mapTree hs he (.record s vs)
    rw [Value.mapTree_nested, form, form, message, message, hl, Instance.mapTree_record]
    cases r.lookupInstance (.record s vs) with
    | error e => rfl
    | ok d => simp only [Instance.values, r.fieldsForm_map fun v hv f => ih v hv f]

/-- An instance has the same form whatever fields its records claim to have. -/
theorem message_mapTree {shape : RecordShape → RecordShape} (hs : ∀ s, (shape s).tag = s.tag)
    (i : Instance) : r.message (i.mapTree shape id) = r.message i := by
  have h := r.form_mapTree hs ⟨"", .nested "", false⟩ (.nested i)
  rwa [Value.mapTree_nested, form, form] at h

/-- The same trees have the same form. -/
theorem message_eq_of_same {i j : Instance} (h : i.Same j) : r.message i = r.message j := by
  have hs : ∀ s : RecordShape, (RecordShape.mk s.tag []).tag = s.tag := fun _ => rfl
  rw [← r.message_mapTree hs i, ← r.message_mapTree hs j]
  exact congrArg r.message h

end Registry

end TagWire
