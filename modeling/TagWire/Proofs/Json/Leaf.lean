import TagWire.Json.Import
import TagWire.Proofs.Number.Rounding
import TagWire.Proofs.Text.Hex

/-!
# Leaves come back from JSON

A value without parts is read from its view as it was: integers in full, floats if they are finite,
characters and variants by their text, bytes by their digits (`Registry.valueOfJson_leaf`).
-/

namespace TagWire

open Number (Binary32 Binary64 Format)

/-- Whether a scalar is no float, or a finite one. -/
def Scalar.Finite : Scalar → Prop
  | .f32 x => x.magnitude < Format.single.infinity
  | .f64 x => x.isFinite = true
  | _ => True

/-- The view of a finite float is the float. -/
theorem Number.Binary64.toJson_of_finite {x : Binary64} (hx : x.isFinite = true) :
    x.toJson = .float x :=
  if_pos hx

namespace Json

/-- A signed integer of so many bits is taken. -/
theorem toSigned?_int (bits : Nat) {n : Int} (h : -2 ^ (bits - 1) ≤ n) (h' : n < 2 ^ (bits - 1)) :
    (int n).toSigned? bits = some n := by
  unfold toSigned?
  simp only [Nat.pow_eq]
  push_cast
  exact if_pos ⟨h, h'⟩

/-- A natural number of so many bits is taken. -/
theorem toUnsigned?_int (bits : Nat) {n : Nat} (h : n < 2 ^ bits) :
    (int n).toUnsigned? bits = some n := by
  unfold toUnsigned?
  simp only [Nat.pow_eq, Int.toNat_natCast]
  exact if_pos ⟨Int.natCast_nonneg n, by exact_mod_cast h⟩

/-- A scalar other than a character is read from its view. -/
theorem toScalar?_toJson {s : Scalar} (hs : s.Finite) (hchar : s.kind ≠ .char) :
    s.toJson.toScalar? s.kind = some s := by
  cases s with
  | bool b => rfl
  | i8 n =>
    have h := toSigned?_int 8 n.le_toInt n.toInt_lt
    simp [Scalar.kind, Scalar.toJson, toScalar?, h]
  | i16 n =>
    have h := toSigned?_int 16 n.le_toInt n.toInt_lt
    simp [Scalar.kind, Scalar.toJson, toScalar?, h]
  | i32 n =>
    have h := toSigned?_int 32 n.le_toInt n.toInt_lt
    simp [Scalar.kind, Scalar.toJson, toScalar?, h]
  | i64 n =>
    have h := toSigned?_int 64 n.le_toInt n.toInt_lt
    simp [Scalar.kind, Scalar.toJson, toScalar?, h]
  | u8 n =>
    have h := toUnsigned?_int 8 n.toNat_lt
    simp [Scalar.kind, Scalar.toJson, toScalar?, h]
  | u16 n =>
    have h := toUnsigned?_int 16 n.toNat_lt
    simp [Scalar.kind, Scalar.toJson, toScalar?, h]
  | u32 n =>
    have h := toUnsigned?_int 32 n.toNat_lt
    simp [Scalar.kind, Scalar.toJson, toScalar?, h]
  | u64 n =>
    have h := toUnsigned?_int 64 n.toNat_lt
    simp [Scalar.kind, Scalar.toJson, toScalar?, h]
  | f32 x =>
    have h := Binary64.toJson_of_finite (Binary32.isFinite_widen hs)
    simp [Scalar.kind, Scalar.toJson, toScalar?, h, toFloat?, Binary32.narrow_widen hs]
  | f64 x =>
    have h := Binary64.toJson_of_finite hs
    simp [Scalar.kind, Scalar.toJson, toScalar?, h, toFloat?]
  | char c => exact absurd rfl hchar

/-- A scalar is read from its view. -/
theorem toScalar_toJson {s : Scalar} (hs : s.Finite) : s.toJson.toScalar s.kind = .ok s := by
  by_cases hchar : s.kind = .char
  · cases s with
    | char c => simp [Scalar.kind, Scalar.toJson, toScalar, toText, bind, Except.bind]; rfl
    | _ => cases hchar
  · unfold toScalar
    split
    next hk => exact absurd hk hchar
    next => rw [toScalar?_toJson hs hchar]

end Json

/-- The view of a finite scalar has no parts and is not null. -/
theorem Scalar.toJson_ne {s : Scalar} (hs : s.Finite) : s.toJson ≠ .null ∧
    (∀ items, s.toJson ≠ .array items) ∧ ∀ members, s.toJson ≠ .object members := by
  cases s with
  | f32 x =>
    have h := Binary64.toJson_of_finite (Binary32.isFinite_widen hs)
    simp [toJson, h]
  | f64 x =>
    have h := Binary64.toJson_of_finite hs
    simp [toJson, h]
  | _ => simp [toJson]

namespace Registry

variable (r : Registry) (f : Field)

/-- What has no parts and is not null is read as a leaf. -/
theorem valueOfJson_eq_toLeaf {j : Json} (hnull : j ≠ .null) (harray : ∀ items, j ≠ .array items)
    (hobject : ∀ members, j ≠ .object members) : r.valueOfJson j f = j.toLeaf f.kind := by
  obtain ⟨name, kind, nullable⟩ := f
  rw [valueOfJson] <;> assumption

/-- A text is read as a leaf. -/
theorem valueOfJson_text (s : String) : r.valueOfJson (.text s) f = (Json.text s).toLeaf f.kind :=
  r.valueOfJson_eq_toLeaf f Json.noConfusion (fun _ => Json.noConfusion) fun _ => Json.noConfusion

variable {r f}

/-- Null is read as null. -/
theorem valueOfJson_null : r.valueOfJson .null f = .ok .null := by
  rw [valueOfJson]

/-- A finite scalar comes back. -/
theorem valueOfJson_toJson {s : Scalar} (hs : s.Finite) (hk : f.kind = .scalar s.kind) :
    r.valueOfJson s.toJson f = .ok (.scalar s) := by
  obtain ⟨hnull, harray, hobject⟩ := s.toJson_ne hs
  rw [r.valueOfJson_eq_toLeaf f hnull harray hobject, hk, Json.toLeaf, Json.toScalar_toJson hs]
  rfl

/-- A text comes back. -/
theorem valueOfJson_string {s : String} (hk : f.kind = .string) :
    r.valueOfJson (.text s) f = .ok (.string s) := by
  rw [valueOfJson_text, hk]
  rfl

/-- Bytes come back. -/
theorem valueOfJson_bytes {b : List UInt8} (hk : f.kind = .bytes) :
    r.valueOfJson (.text (Text.Hex.encode b)) f = .ok (.bytes b) := by
  have hdecode := Text.Hex.decode_encode_eq b
  rw [valueOfJson_text, hk]
  simp only [Json.toLeaf, Json.toText, bind, Except.bind, hdecode]
  rfl

/-- A declared variant comes back. -/
theorem valueOfJson_enum {e : Enumeration} {variant : String} (hk : f.kind = .enum e)
    (hmem : e.contains variant = true) :
    r.valueOfJson (.text variant) f = .ok (.enum variant) := by
  rw [valueOfJson_text, hk]
  simp only [Json.toLeaf, Json.toText, bind, Except.bind, hmem, if_true]
  rfl

end Registry

end TagWire
