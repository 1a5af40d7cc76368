import TagWire.Json.Basic
import TagWire.Number.Layout
import TagWire.Text.Quoted

/-!
# Writing JSON

`Json.compact` writes a value on one line and without blanks, `Json.pretty` with one item a line and
two blanks for each level. Both write the same tokens.
-/

namespace TagWire.Json

/-- A character inside a JSON text. Only the quote, the backslash and controls are escaped. -/
def escapeChar (c : Char) : String :=
  match c with
  | '"' => "\\\""
  | '\\' => "\\\\"
  | '\x08' => "\\b"
  | '\x0c' => "\\f"
  | '\n' => "\\n"
  | '\r' => "\\r"
  | '\t' => "\\t"
  | c =>
    if c.toNat < 0x10 then "\\u000" ++ Text.hexNumber c.toNat
    else if c.toNat < 0x20 then "\\u00" ++ Text.hexNumber c.toNat
    else String.singleton c

/-- A text with its quotes. -/
def quote (s : String) : String := "\"" ++ String.join (s.toList.map escapeChar) ++ "\""

/-- A value without parts. -/
def leaf : Json → String
  | null => "null"
  | bool b => if b then "true" else "false"
  | int n => toString n
  | float x => x.json
  | text s => quote s
  | array _ => "[]"
  | object _ => "\x7b\x7d"

mutual

/-- A value on one line. -/
def compact : Json → String
  | .array items => "[" ++ ",".intercalate (compactItems items) ++ "]"
  | .object members => "\x7b" ++ ",".intercalate (compactMembers members) ++ "\x7d"
  | j => j.leaf
termination_by structural j => j

/-- The items of an array, each on one line. -/
def compactItems : List Json → List String
  | [] => []
  | j :: js => j.compact :: compactItems js
termination_by structural js => js

/-- The members of an object, each on one line. -/
def compactMembers : List (String × Json) → List String
  | [] => []
  | (name, j) :: ms => (quote name ++ ":" ++ j.compact) :: compactMembers ms
termination_by structural ms => ms

end

/-- Lines between brackets, each with a margin and a comma behind all but the last. The bracket that
closes stands at the outer margin. -/
def bracketLines (opening closing outer inner : String) (lines : List String) : String :=
  opening ++ "\n" ++ ",\n".intercalate (lines.map (inner ++ ·)) ++ "\n" ++ outer ++ closing

mutual

/-- A value over several lines, of which all but the first start at a margin. -/
def prettyAt (margin : String) : Json → String
  | .array (j :: js) =>
    bracketLines "[" "]" margin (margin ++ "  ") (prettyItems (margin ++ "  ") (j :: js))
  | .object (m :: ms) =>
    bracketLines "\x7b" "\x7d" margin (margin ++ "  ") (prettyMembers (margin ++ "  ") (m :: ms))
  | j => j.leaf
termination_by structural j => j

/-- The items of an array. -/
def prettyItems (margin : String) : List Json → List String
  | [] => []
  | j :: js => j.prettyAt margin :: prettyItems margin js
termination_by structural js => js

/-- The members of an object. -/
def prettyMembers (margin : String) : List (String × Json) → List String
  | [] => []
  | (name, j) :: ms => (quote name ++ ": " ++ j.prettyAt margin) :: prettyMembers margin ms
termination_by structural ms => ms

end

/-- A value over several lines. -/
def pretty (j : Json) : String := j.prettyAt ""

end TagWire.Json
