import TagWire.Text.Unmarked

/-!
# Quoted literals

Messages quote texts, characters and names the way a programmer would write them: between quotes,
with short escapes for the common controls and `\u{…}` for what would leave no mark of its own.
`Text.quote` is the form of a text, `Text.quoteChar` that of a single character.
-/

namespace TagWire.Text

/-- The hexadecimal digits of a number, lower case, without leading zeros. -/
def hexNumber (n : Nat) : String := String.ofList (Nat.toDigits 16 n)

/-- A character inside a literal that `quote` delimits. -/
def escapeChar (quote c : Char) : String :=
  match c with
  | '\x00' => "\\0"
  | '\t' => "\\t"
  | '\n' => "\\n"
  | '\r' => "\\r"
  | '\\' => "\\\\"
  | c =>
    if c == quote then String.ofList ['\\', c]
    else if isUnmarked c then "\\u\x7b" ++ hexNumber c.toNat ++ "\x7d"
    else String.singleton c

/-- A text between double quotes. -/
def quote (s : String) : String := "\"" ++ String.join (s.toList.map (escapeChar '"')) ++ "\""

/-- A character between single quotes. -/
def quoteChar (c : Char) : String := "'" ++ escapeChar '\'' c ++ "'"

end TagWire.Text
