import TagWire.Codec.Word

/-!
# Scalars and their words

A scalar and the word it travels as determine each other: `ScalarKind.ofWord` takes a word apart
exactly where `Scalar.toWord` has put it together (`ScalarKind.ofWord_eq_ok`). This is what makes
every bit of a float and every sign of an integer arrive.
-/

namespace TagWire

/-- The word of a scalar fits into the bytes of its kind. -/
theorem Scalar.toWord_lt (s : Scalar) : s.toWord < Word.bound s.kind.size := by
  cases s with
  | bool b => cases b <;> decide
  | i8 n => exact n.toUInt8.toNat_lt
  | i16 n => exact n.toUInt16.toNat_lt
  | i32 n => exact n.toUInt32.toNat_lt
  | i64 n => exact n.toUInt64.toNat_lt
  | u8 n => exact n.toNat_lt
  | u16 n => exact n.toNat_lt
  | u32 n => exact n.toNat_lt
  | u64 n => exact n.toNat_lt
  | f32 x => exact x.bits.toNat_lt
  | f64 x => exact x.bits.toNat_lt
  | char c => exact c.val.toNat_lt

/-- The word of a scalar is taken apart to that scalar. -/
theorem Scalar.ofWord_toWord (s : Scalar) : s.kind.ofWord s.toWord = .ok s := by
  cases s with
  | bool b => cases b <;> rfl
  | i8 n | i16 n | i32 n | i64 n | u8 n | u16 n | u32 n | u64 n | f32 x | f64 x =>
    simp [ScalarKind.ofWord, Scalar.kind, Scalar.toWord]
  | char c =>
    have hv : c.toNat < 0xD800 ∨ 0xDFFF < c.toNat ∧ c.toNat < 0x110000 := c.valid
    simp only [ScalarKind.ofWord, Scalar.kind, Scalar.toWord, if_pos hv, Char.ofNat_toNat]

/-- A word that is taken apart is the word of what it is taken apart to. -/
theorem ScalarKind.toWord_of_ofWord {k : ScalarKind} {n : Nat} {s : Scalar}
    (h : k.ofWord n = .ok s) (hn : n < Word.bound k.size) : s.kind = k ∧ s.toWord = n := by
  cases k with
  | bool =>
    simp only [ofWord] at h
    split at h
    next h₀ => cases h; exact ⟨rfl, h₀.symm⟩
    next h₀ =>
    split at h
    next h₁ => cases h; exact ⟨rfl, h₁.symm⟩
    next h₁ => cases h
  | i8 | i16 | i32 | i64 | u8 | u16 | u32 | u64 | f32 | f64 =>
    cases h
    simp only [size, Word.bound] at hn
    refine ⟨rfl, ?_⟩
    simp [Scalar.toWord]
    omega
  | char =>
    simp only [ofWord] at h
    split at h
    next hv =>
      cases h
      have hv : n.isValidChar := hv
      refine ⟨rfl, ?_⟩
      rw [Scalar.toWord, Char.ofNat, dif_pos hv]
      rfl
    next => cases h

/-- A word of the right width is taken apart to a scalar exactly if it is the word of that scalar.
-/
theorem ScalarKind.ofWord_eq_ok {k : ScalarKind} {n : Nat} {s : Scalar}
    (hn : n < Word.bound k.size) : k.ofWord n = .ok s ↔ s.kind = k ∧ s.toWord = n := by
  refine ⟨?_, ?_⟩
  · intro h
    exact toWord_of_ofWord h hn
  · intro h
    obtain ⟨rfl, rfl⟩ := h
    exact s.ofWord_toWord

end TagWire
