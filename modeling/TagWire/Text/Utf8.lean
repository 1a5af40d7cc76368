/-!
# UTF-8

Characters as bytes and back. `encode` writes each scalar value in its shortest form; `decode` reads
a whole byte string and, where it is ill-formed, reports the `Fault`: the index of the first byte
that belongs to no character, and how many bytes from there on can be dropped as one ill-formed
piece. A fault without a length means that the bytes end inside a so far well-formed sequence.
-/

namespace TagWire.Text.Utf8

/-- The bytes of one character. -/
def encodeChar (c : Char) : List UInt8 :=
  let n := c.toNat
  if n < 0x80 then
    [n.toUInt8]
  else if n < 0x800 then
    [(0xC0 + n / 0x40).toUInt8, (0x80 + n % 0x40).toUInt8]
  else if n < 0x10000 then
    [(0xE0 + n / 0x1000).toUInt8, (0x80 + n / 0x40 % 0x40).toUInt8, (0x80 + n % 0x40).toUInt8]
  else
    [(0xF0 + n / 0x40000).toUInt8, (0x80 + n / 0x1000 % 0x40).toUInt8,
      (0x80 + n / 0x40 % 0x40).toUInt8, (0x80 + n % 0x40).toUInt8]

/-- The bytes of a list of characters. -/
def encode (cs : List Char) : List UInt8 := cs.flatMap encodeChar

/-- Where and how a byte string stops being UTF-8. -/
structure Fault where
  /-- Index of the first byte that is part of no character. -/
  index : Nat
  /-- Bytes of the ill-formed piece, or `none` if the input ends inside a sequence. -/
  length : Option Nat
deriving DecidableEq, Repr

/-- The wording of a fault. -/
def Fault.message (f : Fault) : String :=
  match f.length with
  | some n => s!"invalid utf-8 sequence of {n} bytes from index {f.index}"
  | none => s!"incomplete utf-8 byte sequence from index {f.index}"

/-- A byte that continues a character. -/
def isTail (b : UInt8) : Bool := 0x80 ≤ b && b ≤ 0xBF

/-- Whether `b` may be the second byte after the lead byte `a` of a three- or four-byte sequence:
the ranges that exclude overlong forms, surrogates and values above the last scalar value. -/
def isSecond (a b : UInt8) : Bool :=
  (if a == 0xE0 then 0xA0 else if a == 0xF0 then 0x90 else 0x80) ≤ b &&
    b ≤ (if a == 0xED then 0x9F else if a == 0xF4 then 0x8F else 0xBF)

/-- The payload of a tail byte. -/
def payload (b : UInt8) : Nat := b.toNat % 0x40

/-- Reads bytes that start at `index` of the whole input. -/
def decodeFrom (index : Nat) : List UInt8 → Except Fault (List Char)
  | [] => .ok []
  | a :: s₁ =>
    if a < 0x80 then
      (decodeFrom (index + 1) s₁).map (Char.ofNat a.toNat :: ·)
    else if 0xC2 ≤ a && a ≤ 0xDF then
      match s₁ with
      | [] => .error ⟨index, none⟩
      | b :: s₂ =>
        if isTail b then
          (decodeFrom (index + 2) s₂).map (Char.ofNat ((a.toNat - 0xC0) * 0x40 + payload b) :: ·)
        else .error ⟨index, some 1⟩
    else if 0xE0 ≤ a && a ≤ 0xEF then
      match s₁ with
      | [] => .error ⟨index, none⟩
      | b :: s₂ =>
        if isSecond a b then
          match s₂ with
          | [] => .error ⟨index, none⟩
          | c :: s₃ =>
            if isTail c then
              (decodeFrom (index + 3) s₃).map
                (Char.ofNat ((a.toNat - 0xE0) * 0x1000 + payload b * 0x40 + payload c) :: ·)
            else .error ⟨index, some 2⟩
        else .error ⟨index, some 1⟩
    else if 0xF0 ≤ a && a ≤ 0xF4 then
      match s₁ with
      | [] => .error ⟨index, none⟩
      | b :: s₂ =>
        if isSecond a b then
          match s₂ with
          | [] => .error ⟨index, none⟩
          | c :: s₃ =>
            if isTail c then
              match s₃ with
              | [] => .error ⟨index, none⟩
              | d :: s₄ =>
                if isTail d then
                  (decodeFrom (index + 4) s₄).map
                    (Char.ofNat ((a.toNat - 0xF0) * 0x40000 + payload b * 0x1000 +
                      payload c * 0x40 + payload d) :: ·)
                else .error ⟨index, some 3⟩
            else .error ⟨index, some 2⟩
        else .error ⟨index, some 1⟩
    else .error ⟨index, some 1⟩

/-- Reads a whole byte string. -/
def decode (bytes : List UInt8) : Except Fault (List Char) := decodeFrom 0 bytes

/-- The bytes of a text. -/
def ofString (s : String) : List UInt8 := encode s.toList

/-- The text that a byte string spells. -/
def toString? (bytes : List UInt8) : Except Fault String := (decode bytes).map String.ofList

end TagWire.Text.Utf8
