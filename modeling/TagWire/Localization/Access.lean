import TagWire.Schema.Expect

/-!
# Storing into localization types

`Entity.setField` stores a value under the index of its field, the way a decoder or an importer
does. File names lose their leading separator on the way, contexts and users have to be just that.
The fields that the requests share are stored by one function.
-/

namespace TagWire.Localization

/-- Stores into a user. -/
def User.setField (u : User) (index : Nat) (v : Value) : Except FieldError User :=
  match index with
  | 0 => do return { u with userId := ← Value.optional Value.toText v }
  | _ => .error (.unknownIndex index)

/-- Stores into a context. -/
def Context.setField (c : Context) (index : Nat) (v : Value) : Except FieldError Context :=
  match index with
  | 0 => do return { c with tree := ← v.toChoice Tree }
  | 1 => do return { c with level := ← v.toChoice Level }
  | 2 => do return { c with contextName := ← Value.optional Value.toText v }
  | _ => .error (.unknownIndex index)

/-- Stores into a stream request. -/
def StreamRequest.setField (r : StreamRequest) (index : Nat) (v : Value) :
    Except FieldError StreamRequest :=
  match index with
  | 0 => do return { r with context := ← Value.optional Value.toContext v }
  | 1 => do return r.setFileName (← Value.optional Value.toText v)
  | 2 => do return { r with myContextName := ← Value.optional Value.toText v }
  | 3 => do return { r with user := ← v.toUser }
  | _ => .error (.unknownIndex index)

/-- Stores into a get request. -/
def GetRequest.setField (g : GetRequest) (index : Nat) (v : Value) : Except FieldError GetRequest :=
  match index with
  | 4 => do return { g with offset := ← v.toI32 }
  | 5 => do return { g with numBytes := ← v.toI32 }
  | _ => do return { g with request := ← g.request.setField index v }

/-- Stores into a put request. -/
def PutRequest.setField (p : PutRequest) (index : Nat) (v : Value) : Except FieldError PutRequest :=
  match index with
  | 4 => do return { p with bytes := ← Value.optional Value.toBytes v }
  | 5 => do return { p with offset := ← v.toI32 }
  | 6 => do return { p with isEnd := ← v.toBool }
  | _ => do return { p with request := ← p.request.setField index v }

/-- Stores into an entity. -/
def Entity.setField (e : Entity) (index : Nat) (v : Value) : Except FieldError Entity :=
  match e with
  | .user u => (u.setField index v).map .user
  | .context c => (c.setField index v).map .context
  | .streamRequest r => (r.setField index v).map .streamRequest
  | .getRequest g => (g.setField index v).map .getRequest
  | .putRequest p => (p.setField index v).map .putRequest

/-- The request of a stream message, or `none` for what is none. -/
def Entity.request? : Entity → Option StreamRequest
  | .streamRequest r => some r
  | .getRequest g => some g.request
  | .putRequest p => some p.request
  | _ => none

/-- The entity with its request changed. A user or a context has none and stays as it is. -/
def Entity.mapRequest (f : StreamRequest → StreamRequest) : Entity → Entity
  | .streamRequest r => .streamRequest (f r)
  | .getRequest g => .getRequest { g with request := f g.request }
  | .putRequest p => .putRequest { p with request := f p.request }
  | e => e

end TagWire.Localization
