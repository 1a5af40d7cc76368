import TagWire.Json.Token

/-!
# Reading JSON

`Json.parse?` reads JSON text. It goes along the tokens with a stack of the arrays and objects that
are still open, so that its depth can be limited, and with what may follow. A name that an object
repeats keeps its first place and takes the last value.
-/

namespace TagWire.Json

/-- An array or object that is still open. -/
inductive Open where
  /-- An array with the items so far, in reverse. -/
  | array (items : List Json)
  /-- An object with the members so far, the one of the given name being next. -/
  | object (members : List (String × Json)) (name : String)

/-- What may follow. -/
inductive Expecting where
  | value
  /-- Behind an opening bracket: a value or the closing bracket. -/
  | firstItem
  /-- Behind an opening brace: a name or the closing brace. -/
  | firstName
  /-- Behind the comma of an object with the members so far. -/
  | name (members : List (String × Json))
  /-- Behind the name of a member. -/
  | colon (members : List (String × Json)) (name : String)
  /-- Behind a value. -/
  | more (value : Json)

/-- A place between two tokens: what is open, the innermost first, and what may follow. -/
abbrev Place := List Open × Expecting

namespace Place

/-- The place behind a token that starts a value. At most `limit` arrays and objects are open at a
time. -/
def startValue? (limit : Nat) (opened : List Open) : Token → Option Place
  | .atom v => some (opened, .more v)
  | .text s => some (opened, .more (.text s))
  | .openArray => if opened.length < limit then some (.array [] :: opened, .firstItem) else none
  | .openObject => if opened.length < limit then some (opened, .firstName) else none
  | _ => none

/-- The place behind a token that follows a value. -/
def goOn? (value : Json) : List Open → Token → Option Place
  | .array items :: opened, .comma => some (.array (value :: items) :: opened, .value)
  | .array items :: opened, .closeArray => some (opened, .more (.array (value :: items).reverse))
  | .object members name :: opened, .comma => some (opened, .name (putMember name value members))
  | .object members name :: opened, .closeObject =>
    some (opened, .more (.object (putMember name value members)))
  | _, _ => none

/-- The place behind a token. -/
def step? (limit : Nat) : Place → Token → Option Place
  | (opened, .value), t => startValue? limit opened t
  | (.array [] :: opened, .firstItem), .closeArray => some (opened, .more (.array []))
  | (opened, .firstItem), t => startValue? limit opened t
  | (opened, .firstName), .closeObject => some (opened, .more (.object []))
  | (opened, .firstName), .text name => some (opened, .colon [] name)
  | (opened, .name members), .text name => some (opened, .colon members name)
  | (opened, .colon members name), .colon => some (.object members name :: opened, .value)
  | (opened, .more value), t => goOn? value opened t
  | _, _ => none

/-- The value that is complete at a place. -/
def result? : Place → Option Json
  | ([], .more value) => some value
  | _ => none

end Place

/-- The value that a JSON text spells, unless more than `limit` arrays and objects enclose one
another in it. -/
def parse? (limit : Nat) (s : String) : Option Json := do
  let place ← (← Token.ofText? s).foldlM (Place.step? limit) ([], .value)
  place.result?

end TagWire.Json
