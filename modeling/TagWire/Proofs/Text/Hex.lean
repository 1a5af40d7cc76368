import Mathlib.Data.List.Basic
import Mathlib.Tactic.IntervalCases
import TagWire.Proofs.Text.Utf8
import TagWire.Text.Hex

/-!
# Hexadecimal text

Bytes written as hexadecimal text read back as they were (`Hex.decode_encode_eq`). A digit is
written as one byte, which is no blank and has the value of the digit.

What is read in general is said over the `digits` of a text, which are its bytes without the blanks
(`Hex.decode_reads_digits`). Blanks and case are a matter of characters as well as of bytes, since
no byte of a character beyond ASCII is a blank or a capital.
-/

namespace TagWire.Text.Hex

/-- Whether a character is a blank of ASCII. -/
def isBlankChar (c : Char) : Bool := c == ' ' || c == '\t' || c == '\n' || c == '\x0C' || c == '\r'

/-- A text without its blanks. -/
def stripped (text : String) : String := String.ofList (text.toList.filter fun c => !isBlankChar c)

/-- The bytes of a text but for its blanks. -/
def digits (text : String) : List UInt8 := (Utf8.ofString text).filter fun b => !isBlankByte b

/-- Whether a byte is a digit, of either case. -/
def isDigit (b : UInt8) : Bool :=
  0x30 ≤ b && b ≤ 0x39 || 0x61 ≤ b && b ≤ 0x66 || 0x41 ≤ b && b ≤ 0x46

/-- A byte in lower case. -/
def lowerByte (b : UInt8) : UInt8 := if 0x41 ≤ b && b ≤ 0x5A then b + 0x20 else b

/-- A fault with the byte it names in lower case. -/
def Fault.lower : Fault → Fault
  | .oddCount n => .oddCount n
  | .badDigit b => .badDigit (lowerByte b)

/-! ## There and back -/

/-- The byte that a digit is written as. -/
def digitByte (n : Nat) : UInt8 := (digit n).toNat.toUInt8

/-- A digit is written as one byte, which is no blank. -/
theorem encodeChar_digit : ∀ n < 16,
    Utf8.encodeChar (digit n) = [digitByte n] ∧ isBlankByte (digitByte n) = false := by
  decide

/-- The byte of a digit has the value of the digit. -/
theorem digitValue_digitByte {n : Nat} (h : n < 16) : digitValue (digitByte n) = .ok n := by
  interval_cases n <;> rfl

/-- The bytes that hexadecimal text is written as. -/
theorem ofString_encode (bytes : List UInt8) : Utf8.ofString (encode bytes) =
    bytes.flatMap fun b => [digitByte (b.toNat / 16), digitByte (b.toNat % 16)] := by
  unfold Utf8.ofString encode Utf8.encode
  rw [String.toList_ofList, List.flatMap_assoc]
  refine List.flatMap_congr fun b _ => ?_
  have hb := b.toNat_lt
  simp [encodeByte, (encodeChar_digit (b.toNat / 16) (by omega)).1,
    (encodeChar_digit (b.toNat % 16) (by omega)).1]

/-- Pairs of digits spell their bytes. -/
theorem decodePairs_digits (bytes : List UInt8) :
    decodePairs (bytes.flatMap fun b => [digitByte (b.toNat / 16), digitByte (b.toNat % 16)]) =
      .ok bytes := by
  induction bytes with
  | nil => rfl
  | cons b bytes ih =>
    have hb := b.toNat_lt
    have hhigh := digitValue_digitByte (n := b.toNat / 16) (by omega)
    have hlow := digitValue_digitByte (n := b.toNat % 16) (by omega)
    have hbyte : (16 * (b.toNat / 16) + b.toNat % 16).toUInt8 = b := by
      rw [Nat.div_add_mod]
      exact UInt8.ofNat_toNat
    simp only [List.flatMap_cons, List.cons_append, List.nil_append, decodePairs, hhigh, hlow, ih]
    exact congrArg (fun b => Except.ok (b :: bytes)) hbyte

/-- Bytes read back from hexadecimal text. -/
theorem decode_encode_eq (bytes : List UInt8) : decode (encode bytes) = .ok bytes := by
  have hdigits : (Utf8.ofString (encode bytes)).filter (fun b => !isBlankByte b) =
      Utf8.ofString (encode bytes) := by
    rw [ofString_encode, List.filter_eq_self]
    intro digit hdigit
    obtain ⟨b, -, hb⟩ := List.mem_flatMap.1 hdigit
    have hlt := b.toNat_lt
    simp only [List.mem_cons, List.not_mem_nil, or_false] at hb
    rcases hb with rfl | rfl
    · simp [(encodeChar_digit (b.toNat / 16) (by omega)).2]
    · simp [(encodeChar_digit (b.toNat % 16) (by omega)).2]
  have hlength : (Utf8.ofString (encode bytes)).length = 2 * bytes.length := by
    simp [ofString_encode, List.length_flatMap, Nat.mul_comm]
  unfold decode
  simp only [hdigits, hlength, Nat.mul_mod_right]
  rw [ofString_encode]
  exact decodePairs_digits bytes

/-! ## Bytes -/

/-- What holds of every number below 256 holds of every byte. -/
theorem forall_byte {P : UInt8 → Prop} (h : ∀ n < 256, P n.toUInt8) (b : UInt8) : P b := by
  have hb := h b.toNat b.toNat_lt
  rwa [Utf8.toUInt8_eq rfl] at hb

/-- A byte that is no digit is refused as one. -/
theorem digitValue_of_not_isDigit : ∀ b, isDigit b = false → digitValue b = .error (.badDigit b) :=
  forall_byte (by decide +kernel)

/-- A digit has a value, which is written as the digit in lower case. -/
theorem digitValue_of_isDigit : ∀ b, isDigit b = true →
    ∃ n < 16, digitValue b = .ok n ∧ digitByte n = lowerByte b :=
  forall_byte (by decide +kernel)

/-- A digit has the same value in lower case, and so has a fault. -/
theorem digitValue_lowerByte :
    ∀ b, digitValue (lowerByte b) = (digitValue b).mapError Fault.lower :=
  forall_byte (by decide +kernel)

/-- Bytes above those of ASCII are neither blanks nor capitals. -/
theorem of_le_byte : ∀ b : UInt8, 0x80 ≤ b.toNat → isBlankByte b = false ∧ lowerByte b = b :=
  forall_byte (by decide +kernel)

/-! ## Blanks and case -/

/-- What holds of every number of ASCII holds of every character of ASCII. -/
theorem forall_ascii {P : Char → Prop} (h : ∀ n < 0x80, P (Char.ofNat n)) {c : Char}
    (hc : c.toNat < 0x80) : P c := by
  have hchar := h c.toNat hc
  rwa [Char.ofNat_toNat] at hchar

/-- Among the bytes of a character there are blanks only if it is one. -/
theorem filter_encodeChar (c : Char) : (Utf8.encodeChar c).filter (fun b => !isBlankByte b) =
    if isBlankChar c then [] else Utf8.encodeChar c := by
  rcases Nat.lt_or_ge c.toNat 0x80 with hascii | habove
  · exact forall_ascii (P := fun c => (Utf8.encodeChar c).filter (fun b => !isBlankByte b) =
      if isBlankChar c then [] else Utf8.encodeChar c) (by decide +kernel) hascii
  · have hchar : isBlankChar c = false := by
      by_contra hblank
      simp only [isBlankChar, Bool.not_eq_false, Bool.or_eq_true, beq_iff_eq] at hblank
      rcases hblank with (((rfl | rfl) | rfl) | rfl) | rfl <;> exact absurd habove (by decide)
    rw [hchar, if_neg Bool.false_ne_true, List.filter_eq_self]
    intro b hb
    rw [(of_le_byte b (Utf8.le_of_mem_encodeChar habove hb)).1]
    rfl

/-- The bytes of a character in lower case. -/
theorem encodeChar_toLower (c : Char) :
    Utf8.encodeChar c.toLower = (Utf8.encodeChar c).map lowerByte := by
  rcases Nat.lt_or_ge c.toNat 0x80 with hascii | habove
  · exact forall_ascii (P := fun c => Utf8.encodeChar c.toLower =
      (Utf8.encodeChar c).map lowerByte) (by decide +kernel) hascii
  · have hchar : c.toLower = c := by
      refine dif_neg fun hcapital => ?_
      have hle : c.toNat ≤ 0x5A := UInt32.le_iff_toNat_le.1 hcapital.2
      omega
    rw [hchar, List.map_congr_left fun b hb =>
      (of_le_byte b (Utf8.le_of_mem_encodeChar habove hb)).2, List.map_id']

/-- The bytes of a text without its blanks. -/
theorem ofString_stripped (text : String) : Utf8.ofString (stripped text) = digits text := by
  unfold digits stripped Utf8.ofString Utf8.encode
  rw [String.toList_ofList, List.filter_flatMap]
  induction text.toList with
  | nil => rfl
  | cons c cs ih =>
    rw [List.flatMap_cons, ← ih, filter_encodeChar]
    cases hblank : isBlankChar c <;> simp [hblank]

/-- The bytes of a text in lower case. -/
theorem ofString_toLower (text : String) :
    Utf8.ofString text.toLower = (Utf8.ofString text).map lowerByte := by
  unfold Utf8.ofString Utf8.encode String.toLower
  rw [String.toList_map, List.flatMap_map, List.map_flatMap]
  exact List.flatMap_congr fun c _ => encodeChar_toLower c

/-! ## Digits -/

/-- What does not start with a pair and pairs up is nothing. -/
theorem eq_nil_of_no_pair {ds : List UInt8} (heven : ds.length % 2 = 0)
    (h : ∀ high low rest, ds = high :: low :: rest → False) : ds = [] := by
  rcases ds with _ | ⟨high, _ | ⟨low, rest⟩⟩
  · rfl
  · cases heven
  · exact (h high low rest rfl).elim

/-- Digits that pair up spell bytes, which are written as the digits in lower case. -/
theorem decodePairs_of_isDigit {ds : List UInt8} (heven : ds.length % 2 = 0)
    (h : ∀ b ∈ ds, isDigit b = true) : ∃ bytes, decodePairs ds = .ok bytes ∧
      Utf8.ofString (encode bytes) = ds.map lowerByte := by
  fun_induction decodePairs ds with
  | case1 high low rest ih =>
    simp only [List.length_cons] at heven
    obtain ⟨bytes, hbytes, hspelled⟩ := ih (by omega) fun b hb => h b (by simp [hb])
    obtain ⟨m, hm, hhigh, hhigh'⟩ := digitValue_of_isDigit high (h high (by simp))
    obtain ⟨n, hn, hlow, hlow'⟩ := digitValue_of_isDigit low (h low (by simp))
    have hbyte : (16 * m + n).toUInt8.toNat = 16 * m + n := Utf8.toNat_toUInt8 (by omega)
    refine ⟨(16 * m + n).toUInt8 :: bytes, by rw [hhigh, hlow, hbytes]; rfl, ?_⟩
    rw [ofString_encode] at hspelled ⊢
    rw [List.flatMap_cons, hspelled, hbyte, show (16 * m + n) / 16 = m by omega,
      show (16 * m + n) % 16 = n by omega, hhigh', hlow']
    rfl
  | case2 ds hshort =>
    obtain rfl := eq_nil_of_no_pair heven hshort
    exact ⟨[], rfl, rfl⟩

/-- Of bytes that pair up, the first that is no digit is refused. -/
theorem decodePairs_of_find? {ds : List UInt8} {b : UInt8} (heven : ds.length % 2 = 0)
    (h : ds.find? (fun b => !isDigit b) = some b) : decodePairs ds = .error (.badDigit b) := by
  fun_induction decodePairs ds with
  | case1 high low rest ih =>
    simp only [List.length_cons] at heven
    rw [List.find?_cons, List.find?_cons] at h
    cases hhigh : isDigit high with
    | false =>
      rw [hhigh] at h
      cases h
      rw [digitValue_of_not_isDigit _ hhigh]
      rfl
    | true =>
      obtain ⟨m, -, hm, -⟩ := digitValue_of_isDigit high hhigh
      cases hlow : isDigit low with
      | false =>
        rw [hhigh, hlow] at h
        cases h
        rw [hm, digitValue_of_not_isDigit _ hlow]
        rfl
      | true =>
        obtain ⟨n, -, hn, -⟩ := digitValue_of_isDigit low hlow
        rw [hhigh, hlow] at h
        rw [hm, hn, ih (by omega) h]
        rfl
  | case2 ds hshort =>
    obtain rfl := eq_nil_of_no_pair heven hshort
    cases h

/-- Bytes spell the same in lower case, and are refused for the same reason. -/
theorem decodePairs_lowerByte (ds : List UInt8) :
    decodePairs (ds.map lowerByte) = (decodePairs ds).mapError Fault.lower := by
  fun_induction decodePairs ds with
  | case1 high low rest ih =>
    rw [List.map_cons, List.map_cons, decodePairs, digitValue_lowerByte, digitValue_lowerByte, ih]
    cases digitValue high with
    | error e => rfl
    | ok m =>
    cases digitValue low with
    | error e => rfl
    | ok n =>
    cases decodePairs rest <;> rfl
  | case2 ds hshort =>
    rcases ds with _ | ⟨high, _ | ⟨low, rest⟩⟩
    · rfl
    · rfl
    · exact (hshort high low rest rfl).elim

/-! ## Texts -/

/-- Reading a text is reading its digits, if they pair up. -/
theorem decode_eq (text : String) : decode text =
    if (digits text).length % 2 = 0 then decodePairs (digits text)
    else .error (.oddCount (digits text).length) := by
  simp only [decode, beq_iff_eq]
  rfl

/-- Texts that are the same but for blanks are read alike. -/
theorem decode_of_stripped {text other : String} (h : stripped other = stripped text) :
    decode other = decode text := by
  rw [decode_eq, decode_eq, ← ofString_stripped, ← ofString_stripped, h]

/-- Texts that are the same but for blanks and case are read alike. -/
theorem decode_of_toLower {text other : String}
    (h : (stripped other).toLower = (stripped text).toLower) :
    (decode other).mapError Fault.lower = (decode text).mapError Fault.lower := by
  have hdigits : (digits other).map lowerByte = (digits text).map lowerByte := by
    rw [← ofString_stripped, ← ofString_stripped, ← ofString_toLower, ← ofString_toLower, h]
  have hlength : (digits other).length = (digits text).length := by
    simpa using congrArg List.length hdigits
  rw [decode_eq, decode_eq, hlength]
  split
  · rw [← decodePairs_lowerByte, ← decodePairs_lowerByte, hdigits]
  · rfl

/-- How reading a text ends: the count of its digits is judged first, then each digit. -/
theorem decode_cases (text : String) :
    ((digits text).length % 2 = 1 ∧ decode text = .error (.oddCount (digits text).length)) ∨
    (∃ b, (digits text).length % 2 = 0 ∧ (digits text).find? (fun b => !isDigit b) = some b ∧
      decode text = .error (.badDigit b)) ∨
    ∃ bytes, (digits text).length % 2 = 0 ∧ (∀ b ∈ digits text, isDigit b = true) ∧
      decode text = .ok bytes ∧ encode bytes = (stripped text).toLower := by
  rw [decode_eq]
  rcases Nat.mod_two_eq_zero_or_one (digits text).length with heven | hodd
  · rw [if_pos heven]
    cases hfind : (digits text).find? fun b => !isDigit b with
    | some b => exact .inr (.inl ⟨b, heven, rfl, decodePairs_of_find? heven hfind⟩)
    | none =>
      have hall : ∀ b ∈ digits text, isDigit b = true := by simpa using hfind
      obtain ⟨bytes, hbytes, hspelled⟩ := decodePairs_of_isDigit heven hall
      refine .inr (.inr ⟨bytes, heven, hall, hbytes, Utf8.ofString_injective ?_⟩)
      rw [hspelled, ofString_toLower, ofString_stripped]
  · exact .inl ⟨hodd, if_neg (by omega)⟩

/-- A text is read exactly if its digits pair up and are digits. -/
theorem exists_decode_iff {text : String} : (∃ bytes, decode text = .ok bytes) ↔
    (digits text).length % 2 = 0 ∧ ∀ b ∈ digits text, isDigit b = true := by
  rcases decode_cases text with ⟨hodd, h⟩ | ⟨b, heven, hfind, h⟩ | ⟨bytes, heven, hall, h, -⟩
  · rw [h]
    exact iff_of_false nofun fun hdigits => by omega
  · rw [h]
    refine iff_of_false nofun fun hdigits => ?_
    have hb := List.find?_some hfind
    rw [hdigits.2 b (List.mem_of_find?_eq_some hfind)] at hb
    cases hb
  · exact iff_of_true ⟨bytes, h⟩ ⟨heven, hall⟩

/-- The bytes of a text are written as the text without its blanks and in lower case. -/
theorem encode_of_decode {text : String} {bytes : List UInt8} (hbytes : decode text = .ok bytes) :
    encode bytes = (stripped text).toLower := by
  rcases decode_cases text with ⟨-, h⟩ | ⟨b, -, -, h⟩ | ⟨bytes, -, -, h, hspelled⟩
  · rw [h] at hbytes
    cases hbytes
  · rw [h] at hbytes
    cases hbytes
  · rw [h] at hbytes
    cases hbytes
    exact hspelled

/-- A text is refused for the count of its digits if it is odd, and else for the first byte that is
no digit. -/
theorem decode_eq_error_iff {text : String} {fault : Fault} : decode text = .error fault ↔
    (digits text).length % 2 = 1 ∧ fault = .oddCount (digits text).length ∨
    (digits text).length % 2 = 0 ∧
      ∃ b, (digits text).find? (fun b => !isDigit b) = some b ∧ fault = .badDigit b := by
  rcases decode_cases text with ⟨hodd, h⟩ | ⟨b, heven, hfind, h⟩ | ⟨bytes, heven, hall, h, -⟩
  · rw [h]
    refine ⟨?_, ?_⟩
    · intro hfault
      cases hfault
      exact .inl ⟨hodd, rfl⟩
    · rintro (⟨-, rfl⟩ | ⟨heven, -⟩)
      · rfl
      · omega
  · rw [h, hfind]
    refine ⟨?_, ?_⟩
    · intro hfault
      cases hfault
      exact .inr ⟨heven, b, rfl, rfl⟩
    · rintro (⟨hodd, -⟩ | ⟨-, b, hb, rfl⟩)
      · omega
      · cases hb
        rfl
  · have hnone : (digits text).find? (fun b => !isDigit b) = none := by simpa using hall
    rw [h, hnone]
    refine iff_of_false nofun ?_
    rintro (⟨hodd, -⟩ | ⟨-, b, hb, -⟩)
    · omega
    · cases hb

/-- A line feed behind a text is a blank of it. -/
theorem stripped_append_newline (text : String) : stripped (text ++ "\n") = stripped text := by
  simp [stripped, isBlankChar, String.toList_append]

/-- A line feed behind a text changes nothing. -/
theorem decode_append_newline (text : String) : decode (text ++ "\n") = decode text :=
  decode_of_stripped (stripped_append_newline text)

/-- Hexadecimal text is read exactly if its digits pair up and are digits, of either case, wherever
blanks stand among them. The bytes it spells are written as the text without its blanks and in lower
case; so blanks change nothing at all, and case changes nothing but the case of the byte that a
fault names. Bytes that are written are read back, also with a line feed behind them. A text that is
not read is refused for the number of its bytes that are no blanks, if that is odd, and else for the
first of them that is no digit. -/
theorem decode_reads_digits (text : String) :
    ((∃ bytes, decode text = .ok bytes) ↔
      (digits text).length % 2 = 0 ∧ ∀ b ∈ digits text, isDigit b = true) ∧
    (∀ bytes, decode text = .ok bytes → encode bytes = (stripped text).toLower) ∧
    (∀ other, stripped other = stripped text → decode other = decode text) ∧
    (∀ other, (stripped other).toLower = (stripped text).toLower →
      (decode other).mapError Fault.lower = (decode text).mapError Fault.lower) ∧
    (∀ bytes, decode (encode bytes) = .ok bytes ∧ decode (encode bytes ++ "\n") = .ok bytes) ∧
    ∀ fault, decode text = .error fault ↔
      (digits text).length % 2 = 1 ∧ fault = .oddCount (digits text).length ∨
      (digits text).length % 2 = 0 ∧
        ∃ b, (digits text).find? (fun b => !isDigit b) = some b ∧ fault = .badDigit b := by
  refine ⟨exists_decode_iff, fun bytes => encode_of_decode, fun other => decode_of_stripped,
    fun other => decode_of_toLower, fun bytes => ?_, fun fault => decode_eq_error_iff⟩
  have hbytes := decode_encode_eq bytes
  exact ⟨hbytes, (decode_append_newline _).trans hbytes⟩

/-- Blanks may split a pair of digits, and digits may be of either case. -/
theorem decode_reads_digits_split : decode "0 A\nfF" = .ok [0x0A, 0xFF] ∧
    encode [0x0A, 0xFF] = (stripped "0 A\nfF").toLower := by
  have h : decode "0 A\nfF" = .ok [0x0A, 0xFF] := rfl
  exact ⟨h, (decode_reads_digits "0 A\nfF").2.1 _ h⟩

end TagWire.Text.Hex
