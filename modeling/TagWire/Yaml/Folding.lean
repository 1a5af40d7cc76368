/-!
# Line folding

Inside a YAML text that runs over several lines, a single line break counts as a blank and further
breaks stand for themselves. The blanks around breaks do not count. A `Gap` is what has been read
since the last character that is neither blank nor break.
-/

namespace TagWire.Yaml

/-- Whether a character is a blank inside a line. -/
def isBlank (c : Char) : Bool := c == ' ' || c == '\t'

/-- Whether a character ends a line. -/
def isBreak (c : Char) : Bool := c == '\n' || c == '\u2028' || c == '\u2029'

/-- Line breaks in one form: carriage returns and next-line characters become line feeds. -/
def normalizeBreaks : List Char → List Char
  | [] => []
  | '\r' :: '\n' :: cs => '\n' :: normalizeBreaks cs
  | '\r' :: cs => '\n' :: normalizeBreaks cs
  | '\x85' :: cs => '\n' :: normalizeBreaks cs
  | c :: cs => c :: normalizeBreaks cs

/-- Blanks and breaks inside a text, all of them in reverse. -/
structure Gap where
  /-- The blanks, as long as there is no break. -/
  blanks : List Char := []
  /-- The first break, none if it is escaped, and the further ones. -/
  breaks? : Option (List Char × List Char) := none

namespace Gap

/-- Whether the gap holds a line break. -/
def isBroken (g : Gap) : Bool := g.breaks?.isSome

/-- The gap with a blank behind it. -/
def addBlank (g : Gap) (c : Char) : Gap :=
  match g.breaks? with
  | none => { g with blanks := c :: g.blanks }
  | some _ => g

/-- The gap with a break behind it. -/
def addBreak (g : Gap) (c : Char) : Gap :=
  match g.breaks? with
  | none => ⟨[], some ([c], [])⟩
  | some (first, further) => ⟨[], some (first, c :: further)⟩

/-- The gap that starts with an escaped line break. -/
def escapedBreak : Gap := ⟨[], some ([], [])⟩

/-- What the gap contributes to the text, in reverse. -/
def folded (g : Gap) : List Char :=
  match g.breaks? with
  | none => g.blanks
  | some (['\n'], []) => [' ']
  | some (['\n'], further) => further
  | some (first, further) => further ++ first

end Gap

end TagWire.Yaml
