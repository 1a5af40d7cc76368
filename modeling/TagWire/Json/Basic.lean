import TagWire.Number.Binary

/-!
# JSON

JSON values. The members of an object keep the order in which they were put there, and `putMember`
keeps their names apart: a name that is put again keeps its place and takes the later value.
-/

namespace TagWire

open Number (Binary64)

/-- A JSON value. Integers are those of 64 bits with or without sign, all other numbers are finite
floats. -/
inductive Json where
  | null
  | bool (b : Bool)
  | int (n : Int)
  | float (x : Binary64)
  | text (s : String)
  | array (items : List Json)
  | object (members : List (String × Json))

instance : Inhabited Json := ⟨.null⟩

namespace Json

/-- The value of the first member of a name. -/
def member? (members : List (String × Json)) (name : String) : Option Json :=
  (members.find? (·.1 == name)).map Prod.snd

/-- Puts a member: in the place of the one of the same name, or at the end. -/
def putMember (name : String) (value : Json) : List (String × Json) → List (String × Json)
  | [] => [(name, value)]
  | (n, v) :: rest => if n == name then (n, value) :: rest else (n, v) :: putMember name value rest

/-- Puts members one after the other. -/
def putMembers (members new : List (String × Json)) : List (String × Json) :=
  new.foldl (fun members (name, value) => putMember name value members) members

/-- Whether a value is null. -/
def isNull : Json → Bool
  | null => true
  | _ => false

/-- Another name's member is not touched by putting one. -/
theorem member?_putMember (name other : String) (value : Json) (members : List (String × Json)) :
    member? (putMember name value members) other =
      if name == other then some value else member? members other := by
  induction members with
  | nil => by_cases h : name = other <;> simp [putMember, member?, h]
  | cons m rest ih =>
    obtain ⟨n, v⟩ := m
    simp only [member?] at ih
    by_cases hn : n = name
    · subst hn
      by_cases h : n = other <;> simp [putMember, member?, h]
    · by_cases h : n = other
      · subst h
        simp [putMember, member?, hn, Ne.symm hn]
      · simp [putMember, member?, hn, h, ih]

end Json

end TagWire
