/-!
# Blank characters

The characters with the Unicode property `White_Space`. Setting values and the type names of a
catalog are read without the blanks around them, by `trim`.
-/

namespace TagWire.Text

/-- The characters with the Unicode property `White_Space`. -/
def isBlank (c : Char) : Bool :=
  let n := c.toNat
  (0x09 ≤ n && n ≤ 0x0D) || n == 0x20 || n == 0x85 || n == 0xA0 || n == 0x1680 ||
    (0x2000 ≤ n && n ≤ 0x200A) || n == 0x2028 || n == 0x2029 || n == 0x202F || n == 0x205F ||
    n == 0x3000

/-- A list of characters without the blanks it starts with and ends with. -/
def trimChars (cs : List Char) : List Char :=
  ((cs.dropWhile isBlank).reverse.dropWhile isBlank).reverse

/-- A text without the blanks it starts with and ends with. -/
def trim (s : String) : String := String.ofList (trimChars s.toList)

end TagWire.Text
