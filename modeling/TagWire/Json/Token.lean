import TagWire.Json.Numeral

/-!
# JSON tokens

The tokens of JSON text: punctuation, texts and atoms. `Token.scan` goes along the characters with a
`Mode` that says what it is in the middle of. An atom extends up to the next blank or punctuation,
and only then it is seen whether it is a literal or a number.
-/

namespace TagWire.Json

/-- A token of JSON text. -/
inductive Token where
  | openArray
  | closeArray
  | openObject
  | closeObject
  | comma
  | colon
  | text (s : String)
  /-- A literal or a number. -/
  | atom (value : Json)

namespace Token

/-- The punctuation mark that a character is. -/
def ofMark? : Char → Option Token
  | '[' => some openArray
  | ']' => some closeArray
  | '\x7b' => some openObject
  | '\x7d' => some closeObject
  | ',' => some comma
  | ':' => some colon
  | _ => none

/-- Whether a character separates tokens: a blank, tab, line feed or carriage return. -/
def isSpace (c : Char) : Bool := c == ' ' || c == '\t' || c == '\n' || c == '\r'

/-- The literal or number that some characters spell. -/
def ofAtom? (cs : List Char) : Option Token :=
  match String.ofList cs with
  | "null" => some (atom .null)
  | "true" => some (atom (.bool true))
  | "false" => some (atom (.bool false))
  | _ => do atom (← (← Numeral.ofChars? cs).toJson?)

/-- The character of a short escape. -/
def ofEscape? : Char → Option Char
  | '"' => some '"'
  | '\\' => some '\\'
  | '/' => some '/'
  | 'b' => some '\x08'
  | 'f' => some '\x0c'
  | 'n' => some '\n'
  | 'r' => some '\r'
  | 't' => some '\t'
  | _ => none

/-- The value of a hexadecimal digit of either case. -/
def hexValue? (c : Char) : Option Nat :=
  if '0' ≤ c && c ≤ '9' then some (c.toNat - 0x30)
  else if 'a' ≤ c && c ≤ 'f' then some (c.toNat - 0x57)
  else if 'A' ≤ c && c ≤ 'F' then some (c.toNat - 0x37)
  else none

/-- What a scan is in the middle of. Characters read so far stand in reverse. -/
inductive Mode where
  | between
  | atom (read : List Char)
  | text (read : List Char)
  /-- Behind the backslash of an escape. -/
  | escape (read : List Char)
  /-- Inside the number of an escape: the high surrogate before it, how many of its digits are still
  to come, and the value of the others. -/
  | number (read : List Char) (high? : Option Nat) (missing value : Nat)
  /-- Behind the number of a high surrogate, which only the number of a low one can follow. -/
  | pair (read : List Char) (high : Nat)
  /-- Behind the backslash that follows a high surrogate. -/
  | pairEscape (read : List Char) (high : Nat)

/-- Goes on behind the number of an escape. -/
def afterNumber? (read : List Char) (high? : Option Nat) (value : Nat) : Option Mode :=
  let isHigh := decide (0xD800 ≤ value ∧ value < 0xDC00)
  let isLow := decide (0xDC00 ≤ value ∧ value < 0xE000)
  match high? with
  | none =>
    if isHigh then some (.pair read value)
    else if isLow then none
    else some (.text (Char.ofNat value :: read))
  | some high =>
    if isLow then
      some (.text (Char.ofNat (0x10000 + (high - 0xD800) * 0x400 + (value - 0xDC00)) :: read))
    else none

/-- One character between tokens: the mode behind it, and the token if it is one. -/
def stepBetween? (c : Char) : Mode × List Token :=
  match ofMark? c with
  | some mark => (.between, [mark])
  | none =>
    if isSpace c then (.between, [])
    else if c == '"' then (.text [], [])
    else (.atom [c], [])

/-- One character: the mode behind it and the tokens that end there. -/
def step? (mode : Mode) (c : Char) : Option (Mode × List Token) :=
  match mode with
  | .between => some (stepBetween? c)
  | .atom read =>
    if (ofMark? c).isSome || isSpace c || c == '"' then do
      let token ← ofAtom? read.reverse
      let (mode, tokens) := stepBetween? c
      return (mode, token :: tokens)
    else some (.atom (c :: read), [])
  | .text read =>
    if c == '"' then some (.between, [.text (String.ofList read.reverse)])
    else if c == '\\' then some (.escape read, [])
    else if c.toNat < 0x20 then none
    else some (.text (c :: read), [])
  | .escape read =>
    if c == 'u' then some (.number read none 4 0, [])
    else (ofEscape? c).map fun c => (.text (c :: read), [])
  | .number read high? missing value => do
    let value := 16 * value + (← hexValue? c)
    if missing ≤ 1 then return (← afterNumber? read high? value, [])
    else return (.number read high? (missing - 1) value, [])
  | .pair read high => if c == '\\' then some (.pairEscape read high, []) else none
  | .pairEscape read high => if c == 'u' then some (.number read (some high) 4 0, []) else none

/-- The token at the end of the text, if there is one. A text cannot end there. -/
def finish? : Mode → Option (List Token)
  | .between => some []
  | .atom read => (ofAtom? read.reverse).map ([·])
  | _ => none

/-- The tokens of some characters. -/
def scan : Mode → List Char → Option (List Token)
  | mode, [] => finish? mode
  | mode, c :: cs => do
    let (mode, tokens) ← step? mode c
    return tokens ++ (← scan mode cs)

/-- The tokens of a text. -/
def ofText? (s : String) : Option (List Token) := scan .between s.toList

end Token

end TagWire.Json
