import TagWire.Yaml.Folding
import TagWire.Yaml.Token

/-!
# Reading YAML tokens

`Token.scan` goes along the characters of a stream. A `Lexer` knows where it is, which block
collections are open at which margins, and how many flow collections. It also knows the `Candidate`:
the start of the last text or flow collection that may turn out to be a key. When a colon follows on
the same line, the mark of a key is put in front of it and, if it starts a new margin, the start of
a mapping. These marks are kept aside and put among the tokens at the end.

The streams read here hold block and flow collections, plain and quoted texts, comments and document
marks. Anchors, tags, directives and block texts are not among them.
-/

namespace TagWire.Yaml

/-- The start of what may turn out to be a key. -/
structure Candidate where
  /-- How many tokens stand before it. -/
  token : Nat
  line : Nat
  column : Nat
  index : Nat
  /-- It stands at the margin of a mapping, where only a key can stand. -/
  isRequired : Bool

/-- What a lexer is in the middle of. Characters read so far stand in reverse. -/
inductive Mode where
  | between
  | comment
  /-- Before so many characters that have been dealt with. -/
  | skip (count : Nat)
  | plain (read : List Char) (gap : Gap)
  | single (read : List Char) (gap : Gap)
  /-- Behind a quote inside single quotes. -/
  | singleQuote (read : List Char)
  | double (read : List Char) (gap : Gap)
  /-- Behind the backslash of an escape. -/
  | escape (read : List Char)
  /-- Inside the number of an escape. -/
  | code (read : List Char) (missing value : Nat)

/-- A place in a stream. -/
structure Lexer where
  mode : Mode := .between
  line : Nat := 0
  column : Nat := 0
  index : Nat := 0
  /-- The margins of the open block collections, the innermost first. -/
  margins : List Nat := []
  /-- Whether a key may start here. -/
  keyAllowed : Bool := true
  candidate? : Option Candidate := none
  /-- The candidates outside the open flow collections, the innermost first. -/
  outer : List (Option Candidate) := []
  /-- The tokens so far. -/
  tokens : Array Token := #[]
  /-- Before which tokens a key is marked, and whether a mapping starts with it. -/
  marks : List (Nat × Bool) := []

namespace Lexer

/-- Whether a flow collection is open. -/
def inFlow (l : Lexer) : Bool := !l.outer.isEmpty

/-- Adds a token. -/
def emit (l : Lexer) (t : Token) : Lexer := { l with tokens := l.tokens.push t }

/-- Whether a column is right of the innermost margin. -/
def isInside (l : Lexer) (column : Nat) : Bool :=
  match l.margins with
  | [] => true
  | margin :: _ => margin < column

/-- Ends the block collections whose margins satisfy a condition, from the innermost on. -/
def close (l : Lexer) (ends : Nat → Bool) : Lexer :=
  let closed := l.margins.takeWhile ends
  { l with
    margins := l.margins.dropWhile ends
    tokens := l.tokens ++ (closed.map fun _ => Token.blockEnd) }

/-- Ends the block collections that a token in the current column is no part of. -/
def unwind (l : Lexer) : Lexer := if l.inFlow then l else l.close (l.column < ·)

/-- Starts a block collection at the current column, unless it goes on there. -/
def startCollection (l : Lexer) (start : Token) : Lexer :=
  if l.isInside l.column then { l.emit start with margins := l.column :: l.margins } else l

/-- Gives up the candidate, which is wrong where only a key can stand. -/
def dropCandidate (l : Lexer) : Except Fault Lexer :=
  match l.candidate? with
  | some c => if c.isRequired then .error .keyWithoutColon else .ok { l with candidate? := none }
  | none => .ok l

/-- Notes that a key may start here. -/
def noteCandidate (l : Lexer) : Except Fault Lexer := do
  if l.keyAllowed then
    let l ← l.dropCandidate
    let candidate : Candidate :=
      { token := l.tokens.size, line := l.line, column := l.column, index := l.index
        isRequired := !l.inFlow && l.margins.head? == some l.column }
    return { l with candidate? := some candidate, keyAllowed := false }
  else return { l with keyAllowed := false }

/-- Whether a key that starts at a candidate may end here: on the same line, and not too far off. -/
def reaches (l : Lexer) (c : Candidate) : Bool := c.line == l.line && l.index ≤ c.index + 1024

/-! ## Tokens -/

/-- A document mark. All block collections end before it. -/
def documentMark (l : Lexer) (t : Token) : Except Fault Lexer := do
  let l ← (l.close fun _ => true).dropCandidate
  return { l.emit t with keyAllowed := false, mode := .skip 2 }

/-- The start of a flow collection. -/
def flowStart (l : Lexer) (t : Token) : Except Fault Lexer := do
  let l ← l.noteCandidate
  return { l.emit t with outer := l.candidate? :: l.outer, candidate? := none, keyAllowed := true }

/-- The end of a flow collection. -/
def flowEnd (l : Lexer) (t : Token) : Except Fault Lexer := do
  let l ← l.dropCandidate
  let l := match l.outer with
    | [] => l
    | candidate? :: outer => { l with candidate?, outer }
  return { l.emit t with keyAllowed := false }

/-- A comma. -/
def separator (l : Lexer) : Except Fault Lexer := do
  return { (← l.dropCandidate).emit .separator with keyAllowed := true }

/-- A dash in front of an item. -/
def entry (l : Lexer) : Except Fault Lexer := do
  if !l.inFlow && !l.keyAllowed then throw .misplacedEntry
  let l := if l.inFlow then l else l.startCollection .sequenceStart
  return { (← l.dropCandidate).emit .entry with keyAllowed := true }

/-- A question mark in front of a key. -/
def key (l : Lexer) : Except Fault Lexer := do
  if !l.inFlow && !l.keyAllowed then throw .misplacedKey
  let l := if l.inFlow then l else l.startCollection .mappingStart
  return { (← l.dropCandidate).emit .key with keyAllowed := !l.inFlow }

/-- A colon behind the candidate: it is a key. -/
def valueOf (l : Lexer) (c : Candidate) : Lexer :=
  let startsMapping := !l.inFlow && l.isInside c.column
  let l := if startsMapping then { l with margins := c.column :: l.margins } else l
  { l.emit .value with
    marks := (c.token, startsMapping) :: l.marks, candidate? := none, keyAllowed := false }

/-- A colon without a key before it on its line. -/
def bareValue (l : Lexer) : Except Fault Lexer := do
  if !l.inFlow && !l.keyAllowed then throw .misplacedValue
  let l := if l.inFlow then l else l.startCollection .mappingStart
  return { l.emit .value with keyAllowed := !l.inFlow }

/-- A colon in front of a value. -/
def value (l : Lexer) : Except Fault Lexer :=
  match l.candidate? with
  | some c => if l.reaches c then .ok (l.valueOf c) else do (← l.dropCandidate).bareValue
  | none => l.bareValue

/-- The start of a text. -/
def textStart (l : Lexer) (mode : Mode) : Except Fault Lexer := do
  return { ← l.noteCandidate with mode }

/-- The end of a text, given in reverse. -/
def textEnd (l : Lexer) (plain : Bool) (read : List Char) : Lexer :=
  { l.emit (.scalar plain (String.ofList read.reverse)) with mode := .between }

/-! ## Characters -/

/-- Whether what follows ends a word: a blank, a break or nothing. -/
def endsWord : List Char → Bool
  | [] => true
  | c :: _ => isBlank c || isBreak c

/-- The document mark that stands here, in the first column. -/
def mark? (l : Lexer) (c : Char) (rest : List Char) : Option Token :=
  if l.column != 0 then none
  else
    match c, rest with
    | '-', '-' :: '-' :: rest => if endsWord rest then some .documentStart else none
    | '.', '.' :: '.' :: rest => if endsWord rest then some .documentEnd else none
    | _, _ => none

/-- The characters that start no plain text, unless a word follows some of them. -/
def indicators : List Char :=
  ['-', '?', ':', ',', '[', ']', '\x7b', '\x7d', '#', '&', '*', '!', '|', '>', '\'', '"', '%',
    '@', '\x60']

/-- Whether a plain text starts here. -/
def startsPlain (l : Lexer) (c : Char) (rest : List Char) : Bool :=
  !(isBlank c || isBreak c || indicators.contains c) ||
    (c == '-' && !endsWord rest) ||
    (!l.inFlow && (c == '?' || c == ':') && !endsWord rest)

/-- The token that starts at a character. -/
def start (l : Lexer) (c : Char) (rest : List Char) : Except Fault Lexer :=
  match l.mark? c rest with
  | some t => l.documentMark t
  | none =>
    match c with
    | '[' => l.flowStart .flowSequenceStart
    | '\x7b' => l.flowStart .flowMappingStart
    | ']' => l.flowEnd .flowSequenceEnd
    | '\x7d' => l.flowEnd .flowMappingEnd
    | ',' => l.separator
    | '*' => .error .unknownAlias
    | '\'' => l.textStart (.single [] {})
    | '"' => l.textStart (.double [] {})
    | c =>
      if c == '-' && endsWord rest then l.entry
      else if c == '?' && (l.inFlow || endsWord rest) then l.key
      else if c == ':' && (l.inFlow || endsWord rest) then l.value
      else if l.startsPlain c rest then l.textStart (.plain [c] {})
      else .error (.strayCharacter c)

/-- Whether a character counts as a blank between tokens: a blank, a tab where no key may start, or
a byte order mark in front of the stream, which takes up a column like any other blank. -/
def isSpace (l : Lexer) (c : Char) : Bool :=
  c == ' ' || (c == '\t' && (l.inFlow || !l.keyAllowed)) || (c == '\uFEFF' && l.index == 0)

/-- A character between tokens. -/
def between (l : Lexer) (c : Char) (rest : List Char) : Except Fault Lexer :=
  if l.isSpace c then .ok l
  else if c == '#' then .ok { l with mode := .comment }
  else if isBreak c then .ok { l with keyAllowed := l.keyAllowed || !l.inFlow }
  else l.unwind.start c rest

/-- Whether a plain text ends before a character that is no blank and no break. -/
def endsPlain (l : Lexer) (gap : Gap) (c : Char) (rest : List Char) : Bool :=
  let isFirst := gap.isBroken || !gap.blanks.isEmpty
  (isFirst && (c == '#' || (l.mark? c rest).isSome)) ||
    (gap.isBroken && !l.inFlow && !l.isInside l.column) ||
    (c == ':' && endsWord rest) ||
    (l.inFlow && [',', '[', ']', '\x7b', '\x7d'].contains c)

/-- Ends a plain text. If it runs up to another line, a key may follow. -/
def plainEnd (l : Lexer) (read : List Char) (gap : Gap) : Lexer :=
  { l.textEnd true read with keyAllowed := l.keyAllowed || gap.isBroken }

/-- A character inside a plain text or behind it. -/
def plain (l : Lexer) (read : List Char) (gap : Gap) (c : Char) (rest : List Char) :
    Except Fault Lexer :=
  if isBlank c then
    if gap.isBroken && c == '\t' && !l.isInside l.column then .error .tabInMargin
    else .ok { l with mode := .plain read (gap.addBlank c) }
  else if isBreak c then .ok { l with mode := .plain read (gap.addBreak c) }
  else if l.endsPlain gap c rest then (l.plainEnd read gap).between c rest
  else if l.inFlow && c == ':' &&
      rest.head?.any [',', '?', '[', ']', '\x7b', '\x7d'].contains then
    .error (.strayCharacter c)
  else .ok { l with mode := .plain (c :: (gap.folded ++ read)) {} }

/-- The character of a short escape. -/
def ofEscape? : Char → Option Char
  | '0' => some '\x00'
  | 'a' => some '\x07'
  | 'b' => some '\x08'
  | 't' | '\t' => some '\t'
  | 'n' => some '\n'
  | 'v' => some '\x0b'
  | 'f' => some '\x0c'
  | 'r' => some '\r'
  | 'e' => some '\x1b'
  | ' ' => some ' '
  | '"' => some '"'
  | '/' => some '/'
  | '\\' => some '\\'
  | 'N' => some '\x85'
  | '_' => some '\xa0'
  | 'L' => some '\u2028'
  | 'P' => some '\u2029'
  | _ => none

/-- How many digits the number of an escape has. -/
def codeLength? : Char → Option Nat
  | 'x' => some 2
  | 'u' => some 4
  | 'U' => some 8
  | _ => none

/-- The value of a hexadecimal digit of either case. -/
def digit? (c : Char) : Option Nat :=
  if '0' ≤ c && c ≤ '9' then some (c.toNat - 0x30)
  else if 'a' ≤ c && c ≤ 'f' then some (c.toNat - 0x57)
  else if 'A' ≤ c && c ≤ 'F' then some (c.toNat - 0x37)
  else none

/-- The character of a number that is a Unicode scalar value. -/
def ofCode? (n : Nat) : Option Char := if h : n.isValidChar then some (Char.ofNatAux n h) else none

/-- The mode behind a character of an escape. -/
def escape (read : List Char) (c : Char) : Except Fault Mode :=
  match ofEscape? c, codeLength? c with
  | some e, _ => .ok (.double (e :: read) {})
  | none, some digits => .ok (.code read digits 0)
  | none, none => if isBreak c then .ok (.double read .escapedBreak) else .error .badEscape

/-- The mode behind a digit of the number of an escape. -/
def code (read : List Char) (missing value : Nat) (c : Char) : Except Fault Mode :=
  match digit? c with
  | none => .error .badEscape
  | some d =>
    let value := 16 * value + d
    if 1 < missing then .ok (.code read (missing - 1) value)
    else
      match ofCode? value with
      | some e => .ok (.double (e :: read) {})
      | none => .error .badEscape

/-- A character inside single quotes. -/
def single (l : Lexer) (read : List Char) (gap : Gap) (c : Char) (rest : List Char) :
    Except Fault Lexer :=
  if (l.mark? c rest).isSome then .error .documentMarkInText
  else if isBlank c then .ok { l with mode := .single read (gap.addBlank c) }
  else if isBreak c then .ok { l with mode := .single read (gap.addBreak c) }
  else
    let read := gap.folded ++ read
    .ok { l with mode := if c == '\'' then .singleQuote read else .single (c :: read) {} }

/-- A character inside double quotes. -/
def double (l : Lexer) (read : List Char) (gap : Gap) (c : Char) (rest : List Char) :
    Except Fault Lexer :=
  if (l.mark? c rest).isSome then .error .documentMarkInText
  else if isBlank c then .ok { l with mode := .double read (gap.addBlank c) }
  else if isBreak c then .ok { l with mode := .double read (gap.addBreak c) }
  else
    let read := gap.folded ++ read
    if c == '"' then .ok (l.textEnd false read)
    else .ok { l with mode := if c == '\\' then .escape read else .double (c :: read) {} }

/-- Takes a character in, without moving behind it. -/
def take (l : Lexer) (c : Char) (rest : List Char) : Except Fault Lexer :=
  match l.mode with
  | .between => l.between c rest
  | .comment => if isBreak c then { l with mode := .between }.between c rest else .ok l
  | .skip n => .ok { l with mode := if n ≤ 1 then .between else .skip (n - 1) }
  | .plain read gap => l.plain read gap c rest
  | .single read gap => l.single read gap c rest
  | .singleQuote read =>
    if c == '\'' then .ok { l with mode := .single ('\'' :: read) {} }
    else (l.textEnd false read).between c rest
  | .double read gap => l.double read gap c rest
  | .escape read => do return { l with mode := ← escape read c }
  | .code read missing value => do return { l with mode := ← code read missing value c }

/-- Moves behind a character. -/
def advance (l : Lexer) (c : Char) : Lexer :=
  if isBreak c then { l with line := l.line + 1, column := 0, index := l.index + 1 }
  else { l with column := l.column + 1, index := l.index + 1 }

/-- Ends the stream. -/
def finish (l : Lexer) : Except Fault Lexer :=
  match l.mode with
  | .between | .comment | .skip _ => (l.close fun _ => true).dropCandidate
  | .plain read _ => ((l.textEnd true read).close fun _ => true).dropCandidate
  | .singleQuote read => ((l.textEnd false read).close fun _ => true).dropCandidate
  | .single _ _ | .double _ _ | .escape _ | .code _ _ _ => .error .unterminatedText

/-- Goes along some characters to the end of the stream. -/
def run (l : Lexer) : List Char → Except Fault Lexer
  | [] => l.finish
  | c :: rest => do run ((← l.take c rest).advance c) rest

/-- The tokens with the marks of keys among them. -/
def result (l : Lexer) : List Token :=
  l.tokens.toList.zipIdx.flatMap fun (t, n) =>
    match l.marks.lookup n with
    | none => [t]
    | some false => [.key, t]
    | some true => [.mappingStart, .key, t]

end Lexer

/-- Whether a character may stand in a stream. -/
def isAllowed (c : Char) : Bool :=
  let n := c.toNat
  n == 0x09 || n == 0x0A || n == 0x0D || (0x20 ≤ n && n ≤ 0x7E) || n == 0x85 ||
    (0xA0 ≤ n && n != 0xFFFE && n != 0xFFFF)

/-- The tokens of a stream. -/
def Token.scan (text : String) : Except Fault (List Token) := do
  let cs := text.toList
  if !cs.all isAllowed then throw .controlCharacter
  return (← ({} : Lexer).run (normalizeBreaks cs)).result

end TagWire.Yaml
