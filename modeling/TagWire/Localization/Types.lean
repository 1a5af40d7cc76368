import TagWire.Schema.Field

/-!
# Localization types

The built-in message family. A `StreamRequest` names a file of a localization `Context` on behalf of
a `User`; `GetRequest` asks for a window of its bytes, `PutRequest` writes one. An `Entity` is a
value of one of the five types, an `EntityType` names one of them.
-/

namespace TagWire.Localization

/-- A closed set of names that travels as an enumeration. The first one is the default. -/
class Choice (α : Type) where
  /-- The name of the enumeration. -/
  enumName : String
  /-- Every choice in order. -/
  all : List α
  /-- The name of a choice on the wire. -/
  wireName : α → String

namespace Choice

variable {α : Type} [Choice α]

/-- The choice of a wire name. -/
def ofName? (name : String) : Option α := (all (α := α)).find? (wireName · == name)

variable (α) in
/-- The enumeration that a field of choices declares. -/
def enumeration : Enumeration := ⟨enumName α, (all (α := α)).map wireName⟩

end Choice

/-- Which tree of localization files a context addresses. -/
inductive Tree where
  | unknown | commonStatic | caveStatic | caveConfig | edexStatic
deriving DecidableEq, Repr

instance : Choice Tree where
  enumName := "LocalizationType"
  all := [.unknown, .commonStatic, .caveStatic, .caveConfig, .edexStatic]
  wireName
    | .unknown => "UNKNOWN"
    | .commonStatic => "COMMON_STATIC"
    | .caveStatic => "CAVE_STATIC"
    | .caveConfig => "CAVE_CONFIG"
    | .edexStatic => "EDEX_STATIC"

/-- Override level inside a localization tree. -/
inductive Level where
  | unknown | base | configured | site | user | workstation
deriving DecidableEq, Repr

instance : Choice Level where
  enumName := "LocalizationLevel"
  all := [.unknown, .base, .configured, .site, .user, .workstation]
  wireName
    | .unknown => "UNKNOWN"
    | .base => "BASE"
    | .configured => "CONFIGURED"
    | .site => "SITE"
    | .user => "USER"
    | .workstation => "WORKSTATION"

/-- A tree is found under its wire name. -/
theorem Tree.ofName?_wireName (t : Tree) : Choice.ofName? (Choice.wireName t) = some t := by
  cases t <;> decide

/-- A level is found under its wire name. -/
theorem Level.ofName?_wireName (l : Level) : Choice.ofName? (Choice.wireName l) = some l := by
  cases l <;> decide

/-- Whom a request is made for. -/
structure User where
  userId : Option String := none
deriving DecidableEq, Repr

/-- A localization tree and level, optionally narrowed to a named context such as a site. -/
structure Context where
  tree : Tree := .unknown
  level : Level := .unknown
  contextName : Option String := none
deriving DecidableEq, Repr

/-- The text of a context: tree, level and name between points. -/
def Context.display (c : Context) : String :=
  let place := Choice.wireName c.tree ++ "." ++ Choice.wireName c.level
  match c.contextName with
  | none => place
  | some name => place ++ "." ++ name

/-- Drops one separator from the front of a file name. -/
def normalizeFileName (name : String) : String :=
  match name.toList with
  | '/' :: rest => String.ofList rest
  | _ => name

/-- A request for a file of a localization context. -/
structure StreamRequest where
  context : Option Context := none
  fileName : Option String := none
  myContextName : Option String := none
  user : User := {}
deriving DecidableEq, Repr

/-- Stores a file name without its leading separator. -/
def StreamRequest.setFileName (r : StreamRequest) (name : Option String) : StreamRequest :=
  { r with fileName := name.map normalizeFileName }

/-- A request for `numBytes` bytes of a file from `offset` on. -/
structure GetRequest where
  request : StreamRequest := {}
  offset : Int32 := 0
  numBytes : Int32 := 0
deriving DecidableEq, Repr

/-- A request to write bytes into a file at `offset`; `isEnd` marks the last chunk. -/
structure PutRequest where
  request : StreamRequest := {}
  bytes : Option (List UInt8) := none
  offset : Int32 := 0
  isEnd : Bool := false
deriving DecidableEq, Repr

/-- One of the five localization types. -/
inductive EntityType where
  | user | context | streamRequest | getRequest | putRequest
deriving DecidableEq, Repr

/-- A value of one of the five localization types. -/
inductive Entity where
  | user (u : User)
  | context (c : Context)
  | streamRequest (r : StreamRequest)
  | getRequest (g : GetRequest)
  | putRequest (p : PutRequest)
deriving DecidableEq, Repr

/-- The type of an entity. -/
def Entity.type : Entity → EntityType
  | .user _ => .user
  | .context _ => .context
  | .streamRequest _ => .streamRequest
  | .getRequest _ => .getRequest
  | .putRequest _ => .putRequest

namespace EntityType

/-- Every localization type, parents before their children. -/
def all : List EntityType := [.user, .context, .streamRequest, .getRequest, .putRequest]

/-- The wire tag of a type. -/
def tag : EntityType → String
  | .user => "User"
  | .context => "LocalizationContext"
  | .streamRequest => "LocalizationStreamRequest"
  | .getRequest => "LocalizationStreamGetRequest"
  | .putRequest => "LocalizationStreamPutRequest"

/-- The type of a tag. -/
def ofTag? (tag : String) : Option EntityType := all.find? (·.tag == tag)

/-- The full name under which messages speak of a type. -/
def fullName (t : EntityType) : String := "dynserial::localization::" ++ t.tag

/-- The tag of the type that a type extends. -/
def parent? : EntityType → Option String
  | .getRequest | .putRequest => some streamRequest.tag
  | _ => none

/-- The default value of a type. -/
def fresh : EntityType → Entity
  | .user => .user {}
  | .context => .context {}
  | .streamRequest => .streamRequest {}
  | .getRequest => .getRequest {}
  | .putRequest => .putRequest {}

/-- The fields of a type in wire order, a parent's fields first. -/
def fields : EntityType → List Field
  | .user => [⟨"userId", .string, true⟩]
  | .context =>
    [⟨"localizationType", .enum (Choice.enumeration Tree), false⟩,
      ⟨"localizationLevel", .enum (Choice.enumeration Level), false⟩,
      ⟨"contextName", .string, true⟩]
  | .streamRequest => requestFields
  | .getRequest =>
    requestFields ++ [⟨"offset", .scalar .i32, false⟩, ⟨"numBytes", .scalar .i32, false⟩]
  | .putRequest =>
    requestFields ++
      [⟨"bytes", .bytes, true⟩, ⟨"offset", .scalar .i32, false⟩, ⟨"end", .scalar .bool, false⟩]
where
  /-- The fields that every stream request starts with. -/
  requestFields : List Field :=
    [⟨"context", .nested context.tag, true⟩, ⟨"fileName", .string, true⟩,
      ⟨"myContextName", .string, true⟩, ⟨"user", .nested user.tag, false⟩]

/-- A fresh entity is of its type. -/
@[simp] theorem type_fresh (t : EntityType) : t.fresh.type = t := by cases t <;> rfl

end EntityType

end TagWire.Localization
