import TagWire.Text.Utf8

/-!
# UTF-8 is canonical

Every text has one UTF-8 form and no other bytes spell it: `decodeFrom_encode` reads back what is
written, `encode_of_decodeFrom` writes back what is read. Both go one character at a time, by the
number of bytes that it takes.
-/

namespace TagWire.Text.Utf8

/-- The byte of a small number, as a number. -/
theorem toNat_toUInt8 {n : Nat} (h : n < 256) : n.toUInt8.toNat = n := by
  simp only [Nat.toUInt8_eq, UInt8.toNat_ofNat']
  omega

/-- A byte is the byte of its number. -/
theorem toUInt8_eq {n : Nat} {b : UInt8} (h : n = b.toNat) : n.toUInt8 = b := by
  subst h
  exact UInt8.ofNat_toNat

/-- A number that is no surrogate and not too large is the code point of its character. -/
theorem toNat_ofNat {n : Nat} (h : n < 0xD800 ∨ 0xDFFF < n ∧ n < 0x110000) :
    (Char.ofNat n).toNat = n := by
  have hv : n.isValidChar := h
  rw [Char.ofNat, dif_pos hv]
  rfl

/-! ## The steps of the decoder, over numbers -/

section
variable {index : Nat} {a b c d : UInt8} {s : List UInt8}

/-- Tail bytes, as numbers. -/
theorem isTail_iff : isTail b = true ↔ 0x80 ≤ b.toNat ∧ b.toNat ≤ 0xBF := by
  simp [isTail, UInt8.le_iff_toNat_le]

/-- Second bytes, as numbers. -/
theorem isSecond_iff : isSecond a b = true ↔ (0x80 ≤ b.toNat ∧ b.toNat ≤ 0xBF) ∧
    (a.toNat = 0xE0 → 0xA0 ≤ b.toNat) ∧ (a.toNat = 0xF0 → 0x90 ≤ b.toNat) ∧
    (a.toNat = 0xED → b.toNat ≤ 0x9F) ∧ (a.toNat = 0xF4 → b.toNat ≤ 0x8F) := by
  have hb : b.toNat < 256 := b.toNat_lt
  simp only [isSecond, Bool.and_eq_true, decide_eq_true_eq, UInt8.le_iff_toNat_le, beq_iff_eq,
    ← UInt8.toNat_inj, apply_ite UInt8.toNat, UInt8.reduceToNat]
  repeat' split
  all_goals omega

/-- A character of one byte. -/
theorem decodeFrom_one (ha : a.toNat < 0x80) :
    decodeFrom index (a :: s) = (decodeFrom (index + 1) s).map (Char.ofNat a.toNat :: ·) := by
  have h₁ : a < 0x80 := by simpa [UInt8.lt_iff_toNat_lt] using ha
  rw [decodeFrom.eq_def]
  simp only [h₁, if_true]

/-- A character of two bytes. -/
theorem decodeFrom_two (ha : 0xC2 ≤ a.toNat ∧ a.toNat ≤ 0xDF) (hb : isTail b = true) :
    decodeFrom index (a :: b :: s) = (decodeFrom (index + 2) s).map
      (Char.ofNat ((a.toNat - 0xC0) * 0x40 + payload b) :: ·) := by
  have h₁ : ¬ a < 0x80 := by simp [UInt8.lt_iff_toNat_lt]; omega
  have h₂ : (0xC2 ≤ a && a ≤ 0xDF) = true := by simpa [UInt8.le_iff_toNat_le] using ha
  rw [decodeFrom.eq_def]
  simp only [h₁, h₂, hb, if_true, if_false]

/-- A character of three bytes. -/
theorem decodeFrom_three (ha : 0xE0 ≤ a.toNat ∧ a.toNat ≤ 0xEF) (hb : isSecond a b = true)
    (hc : isTail c = true) :
    decodeFrom index (a :: b :: c :: s) = (decodeFrom (index + 3) s).map
      (Char.ofNat ((a.toNat - 0xE0) * 0x1000 + payload b * 0x40 + payload c) :: ·) := by
  have h₁ : ¬ a < 0x80 := by simp [UInt8.lt_iff_toNat_lt]; omega
  have h₂ : (0xC2 ≤ a && a ≤ 0xDF) = false := by simp [UInt8.le_iff_toNat_le]; omega
  have h₃ : (0xE0 ≤ a && a ≤ 0xEF) = true := by simpa [UInt8.le_iff_toNat_le] using ha
  rw [decodeFrom.eq_def]
  simp only [h₁, h₂, h₃, hb, hc, if_true, if_false, Bool.false_eq_true]

/-- A character of four bytes. -/
theorem decodeFrom_four (ha : 0xF0 ≤ a.toNat ∧ a.toNat ≤ 0xF4) (hb : isSecond a b = true)
    (hc : isTail c = true) (hd : isTail d = true) :
    decodeFrom index (a :: b :: c :: d :: s) = (decodeFrom (index + 4) s).map
      (Char.ofNat ((a.toNat - 0xF0) * 0x40000 + payload b * 0x1000 + payload c * 0x40 +
        payload d) :: ·) := by
  have h₁ : ¬ a < 0x80 := by simp [UInt8.lt_iff_toNat_lt]; omega
  have h₂ : (0xC2 ≤ a && a ≤ 0xDF) = false := by simp [UInt8.le_iff_toNat_le]; omega
  have h₃ : (0xE0 ≤ a && a ≤ 0xEF) = false := by simp [UInt8.le_iff_toNat_le]; omega
  have h₄ : (0xF0 ≤ a && a ≤ 0xF4) = true := by simpa [UInt8.le_iff_toNat_le] using ha
  rw [decodeFrom.eq_def]
  simp only [h₁, h₂, h₃, h₄, hb, hc, hd, if_true, if_false, Bool.false_eq_true]

end

/-! ## One character -/

/-- The tail byte of six bits, as a number. -/
theorem toNat_tail (n : Nat) : (0x80 + n % 0x40).toUInt8.toNat = 0x80 + n % 0x40 :=
  toNat_toUInt8 (by omega)

/-- The tail byte of six bits is a tail byte. -/
theorem isTail_tail (n : Nat) : isTail (0x80 + n % 0x40).toUInt8 = true := by
  rw [isTail_iff, toNat_tail]
  omega

/-- The tail byte of six bits carries them. -/
theorem payload_tail (n : Nat) : payload (0x80 + n % 0x40).toUInt8 = n % 0x40 := by
  rw [payload, toNat_tail]
  omega

/-- The bytes of a character are read back as that character, whatever follows. -/
theorem decodeFrom_encodeChar (index : Nat) (c : Char) (s : List UInt8) :
    ∃ next, decodeFrom index (encodeChar c ++ s) = (decodeFrom next s).map (c :: ·) := by
  have hv : c.toNat < 0xD800 ∨ 0xDFFF < c.toNat ∧ c.toNat < 0x110000 := c.valid
  have hc : Char.ofNat c.toNat = c := Char.ofNat_toNat c
  unfold encodeChar
  generalize c.toNat = n at hv hc
  dsimp only
  split
  next h₁ =>
    have ha : n.toUInt8.toNat = n := toNat_toUInt8 (by omega)
    refine ⟨index + 1, (decodeFrom_one (s := s) (by omega)).trans ?_⟩
    rw [ha, hc]
  next h₁ =>
  split
  next h₂ =>
    have ha : (0xC0 + n / 0x40).toUInt8.toNat = 0xC0 + n / 0x40 := toNat_toUInt8 (by omega)
    refine ⟨index + 2, (decodeFrom_two (s := s) (by omega) (isTail_tail n)).trans ?_⟩
    rw [ha, payload_tail, show (0xC0 + n / 0x40 - 0xC0) * 0x40 + n % 0x40 = n by omega, hc]
  next h₂ =>
  split
  next h₃ =>
    have ha : (0xE0 + n / 0x1000).toUInt8.toNat = 0xE0 + n / 0x1000 := toNat_toUInt8 (by omega)
    have hb := toNat_tail (n / 0x40)
    have hsecond : isSecond (0xE0 + n / 0x1000).toUInt8
        (0x80 + n / 0x40 % 0x40).toUInt8 = true := isSecond_iff.2 (by omega)
    refine ⟨index + 3, (decodeFrom_three (s := s) (by omega) hsecond (isTail_tail n)).trans ?_⟩
    rw [ha, payload_tail, payload_tail, show (0xE0 + n / 0x1000 - 0xE0) * 0x1000 +
      n / 0x40 % 0x40 * 0x40 + n % 0x40 = n by omega, hc]
  next h₃ =>
    have ha : (0xF0 + n / 0x40000).toUInt8.toNat = 0xF0 + n / 0x40000 := toNat_toUInt8 (by omega)
    have hb := toNat_tail (n / 0x1000)
    have hsecond : isSecond (0xF0 + n / 0x40000).toUInt8
        (0x80 + n / 0x1000 % 0x40).toUInt8 = true := isSecond_iff.2 (by omega)
    refine ⟨index + 4, (decodeFrom_four (s := s) (by omega) hsecond (isTail_tail (n / 0x40))
      (isTail_tail n)).trans ?_⟩
    rw [ha, payload_tail, payload_tail, payload_tail, show (0xF0 + n / 0x40000 - 0xF0) * 0x40000 +
      n / 0x1000 % 0x40 * 0x1000 + n / 0x40 % 0x40 * 0x40 + n % 0x40 = n by omega, hc]

/-- The bytes of a character that takes one. -/
theorem encodeChar_one {n : Nat} (h : n < 0x80) : encodeChar (Char.ofNat n) = [n.toUInt8] := by
  have hn : (Char.ofNat n).toNat = n := toNat_ofNat (by omega)
  simp only [encodeChar, hn, h, if_true]

/-- The bytes of a character that takes two. -/
theorem encodeChar_two {n : Nat} (h : 0x80 ≤ n) (h' : n < 0x800) :
    encodeChar (Char.ofNat n) = [(0xC0 + n / 0x40).toUInt8, (0x80 + n % 0x40).toUInt8] := by
  have hn : (Char.ofNat n).toNat = n := toNat_ofNat (by omega)
  simp only [encodeChar, hn, h', if_true, show ¬ n < 0x80 by omega, if_false]

/-- The bytes of a character that takes three. -/
theorem encodeChar_three {n : Nat} (h : 0x800 ≤ n) (h' : n < 0xD800 ∨ 0xDFFF < n)
    (h'' : n < 0x10000) : encodeChar (Char.ofNat n) =
      [(0xE0 + n / 0x1000).toUInt8, (0x80 + n / 0x40 % 0x40).toUInt8,
        (0x80 + n % 0x40).toUInt8] := by
  have hn : (Char.ofNat n).toNat = n := toNat_ofNat (by omega)
  simp only [encodeChar, hn, h'', if_true, show ¬ n < 0x80 by omega, show ¬ n < 0x800 by omega,
    if_false]

/-- The bytes of a character that takes four. -/
theorem encodeChar_four {n : Nat} (h : 0x10000 ≤ n) (h' : n < 0x110000) :
    encodeChar (Char.ofNat n) =
      [(0xF0 + n / 0x40000).toUInt8, (0x80 + n / 0x1000 % 0x40).toUInt8,
        (0x80 + n / 0x40 % 0x40).toUInt8, (0x80 + n % 0x40).toUInt8] := by
  have hn : (Char.ofNat n).toNat = n := toNat_ofNat (by omega)
  simp only [encodeChar, hn, show ¬ n < 0x80 by omega, show ¬ n < 0x800 by omega,
    show ¬ n < 0x10000 by omega, if_false]

/-- A character is written as the standard library writes it. -/
theorem encodeChar_eq (c : Char) : encodeChar c = String.utf8EncodeChar c := by
  have hlt : c.toNat < 0x110000 := by
    have hv : c.toNat < 0xD800 ∨ 0xDFFF < c.toNat ∧ c.toNat < 0x110000 := c.valid
    omega
  have hval : c.val.toNat = c.toNat := rfl
  simp only [encodeChar, String.utf8EncodeChar, hval, Nat.toUInt8]
  generalize c.toNat = n at hlt
  rcases Nat.lt_or_ge n 0x80 with h₁ | h₁
  · rw [if_pos h₁, if_pos (Nat.le_of_lt_succ h₁)]
  rw [if_neg (Nat.not_lt.2 h₁), if_neg (Nat.not_le.2 h₁)]
  rcases Nat.lt_or_ge n 0x800 with h₂ | h₂
  · rw [if_pos h₂, if_pos (Nat.le_of_lt_succ h₂), show n / 64 % 32 = n / 64 by omega,
      Nat.add_comm, Nat.add_comm (n % 64)]
  rw [if_neg (Nat.not_lt.2 h₂), if_neg (Nat.not_le.2 h₂)]
  rcases Nat.lt_or_ge n 0x10000 with h₃ | h₃
  · rw [if_pos h₃, if_pos (Nat.le_of_lt_succ h₃), show n / 4096 % 16 = n / 4096 by omega,
      Nat.add_comm, Nat.add_comm (n % 64), Nat.add_comm (n / 64 % 64)]
  · rw [if_neg (Nat.not_lt.2 h₃), if_neg (Nat.not_le.2 h₃),
      show n / 262144 % 8 = n / 262144 by omega, Nat.add_comm, Nat.add_comm (n % 64),
      Nat.add_comm (n / 64 % 64), Nat.add_comm (n / 4096 % 64)]

/-- Every byte of a character beyond ASCII is beyond ASCII. -/
theorem le_of_mem_encodeChar {c : Char} (h : 0x80 ≤ c.toNat) {b : UInt8} (hb : b ∈ encodeChar c) :
    0x80 ≤ b.toNat := by
  have hc : c.toNat < 0xD800 ∨ 0xDFFF < c.toNat ∧ c.toNat < 0x110000 := c.valid
  have htoNat (n : Nat) : n.toUInt8.toNat = n % 256 := by simp
  unfold encodeChar at hb
  dsimp only at hb
  rw [if_neg (by omega)] at hb
  repeat' split at hb
  all_goals simp only [List.mem_cons, List.not_mem_nil, or_false] at hb
  · rcases hb with rfl | rfl <;> rw [htoNat] <;> omega
  · rcases hb with rfl | rfl | rfl <;> rw [htoNat] <;> omega
  · rcases hb with rfl | rfl | rfl | rfl <;> rw [htoNat] <;> omega

/-! ## Texts -/

/-- A character in front of what is read. -/
theorem map_cons_eq_ok {c : Char} {x : Except Fault (List Char)} {cs : List Char} :
    x.map (c :: ·) = .ok cs ↔ ∃ ds, x = .ok ds ∧ cs = c :: ds := by
  cases x with
  | error e => simp [Except.map]
  | ok ds => simp [Except.map, eq_comm]

/-- The bytes of a text are read back as that text. -/
theorem decodeFrom_encode (index : Nat) (cs : List Char) :
    decodeFrom index (encode cs) = .ok cs := by
  induction cs generalizing index with
  | nil => simp [encode, decodeFrom]
  | cons c cs ih =>
    obtain ⟨next, h⟩ := decodeFrom_encodeChar index c (encode cs)
    rw [encode, List.flatMap_cons, ← encode, h, ih next]
    rfl

/-- Bytes that are read as a text are the bytes of that text. -/
theorem encode_of_decodeFrom {index : Nat} {bs : List UInt8} {cs : List Char}
    (h : decodeFrom index bs = .ok cs) : encode cs = bs := by
  -- One case for each branch of the decoder; only the four that find a character succeed.
  fun_induction decodeFrom index bs generalizing cs with
  | case1 =>
    cases h
    rfl
  | case2 index a s ha ih =>
    obtain ⟨ds, hds, rfl⟩ := map_cons_eq_ok.1 h
    rw [encode, List.flatMap_cons, ← encode, ih hds]
    have ha : a.toNat < 0x80 := by simpa [UInt8.lt_iff_toNat_lt] using ha
    rw [encodeChar_one ha, toUInt8_eq rfl]
    rfl
  | case4 index a _ ha b s hb ih =>
    obtain ⟨ds, hds, rfl⟩ := map_cons_eq_ok.1 h
    rw [encode, List.flatMap_cons, ← encode, ih hds]
    have ha : 0xC2 ≤ a.toNat ∧ a.toNat ≤ 0xDF := by simpa [UInt8.le_iff_toNat_le] using ha
    have hb := isTail_iff.1 hb
    unfold payload
    rw [encodeChar_two (by omega) (by omega), toUInt8_eq (b := a) (by omega),
      toUInt8_eq (b := b) (by omega)]
    rfl
  | case8 index a _ _ ha b hb c s hc ih =>
    obtain ⟨ds, hds, rfl⟩ := map_cons_eq_ok.1 h
    rw [encode, List.flatMap_cons, ← encode, ih hds]
    have ha : 0xE0 ≤ a.toNat ∧ a.toNat ≤ 0xEF := by simpa [UInt8.le_iff_toNat_le] using ha
    have hb := isSecond_iff.1 hb
    have hc := isTail_iff.1 hc
    unfold payload
    rw [encodeChar_three (by omega) (by omega) (by omega), toUInt8_eq (b := a) (by omega),
      toUInt8_eq (b := b) (by omega), toUInt8_eq (b := c) (by omega)]
    rfl
  | case14 index a _ _ _ ha b hb c hc d s hd ih =>
    obtain ⟨ds, hds, rfl⟩ := map_cons_eq_ok.1 h
    rw [encode, List.flatMap_cons, ← encode, ih hds]
    have ha : 0xF0 ≤ a.toNat ∧ a.toNat ≤ 0xF4 := by simpa [UInt8.le_iff_toNat_le] using ha
    have hb := isSecond_iff.1 hb
    have hc := isTail_iff.1 hc
    have hd := isTail_iff.1 hd
    unfold payload
    rw [encodeChar_four (by omega) (by omega), toUInt8_eq (b := a) (by omega),
      toUInt8_eq (b := b) (by omega), toUInt8_eq (b := c) (by omega),
      toUInt8_eq (b := d) (by omega)]
    rfl
  | _ => cases h

/-- Bytes spell a text exactly if they are its UTF-8 form. -/
theorem toString?_eq_ok {bs : List UInt8} {s : String} :
    toString? bs = .ok s ↔ bs = ofString s := by
  unfold toString? decode ofString
  refine ⟨?_, ?_⟩
  · intro h
    cases hd : decodeFrom 0 bs with
    | error e => rw [hd] at h; cases h
    | ok cs =>
      rw [hd] at h
      cases h
      rw [String.toList_ofList, encode_of_decodeFrom hd]
  · intro h
    subst h
    rw [decodeFrom_encode]
    simp [Except.map]

/-- The bytes of a text are those that the standard library has for it. -/
theorem ofString_eq (s : String) : ofString s = s.toUTF8.data.toList := by
  have hbytes : s.toUTF8 = (s.toList.flatMap String.utf8EncodeChar).toByteArray :=
    String.utf8Encode_toList.symm
  rw [hbytes, List.toList_data_toByteArray]
  exact congrArg s.toList.flatMap (funext encodeChar_eq)

/-- Texts with the same bytes are the same. -/
theorem ofString_injective : Function.Injective ofString := by
  intro s t h
  have hs : toString? (ofString s) = .ok s := toString?_eq_ok.2 rfl
  rw [h, toString?_eq_ok.2 rfl] at hs
  exact (Except.ok.inj hs).symm

end TagWire.Text.Utf8
