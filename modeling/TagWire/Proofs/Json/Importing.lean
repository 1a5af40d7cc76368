import TagWire.Proofs.Codec.Canonical
import TagWire.Proofs.Codec.EntryPoints
import TagWire.Proofs.Json.RoundTrip
import TagWire.Proofs.Schema.Accessing

/-!
# What is made of JSON

`Registry.Imports` says what may have been made of a JSON value in the place of a field: null of
null, a leaf of what the kind of the field reads, a collection of an array item by item, and an
instance of an object. That instance is of the type that the object names, or else of the declared
one, and holds what its members were made into, and where there are none, what a fresh instance
holds (`Registry.ImportsInstance`). Nothing else is ever made of JSON
(`Registry.imports_of_valueOfJson`), by induction over the JSON value.
-/

namespace TagWire

/-! ## What is made of JSON -/

/-- Whether a tag is the one that the members of an object name, or the declared one where they name
none. -/
def Json.Names (members : List (String × Json)) (declared tag : String) : Prop :=
  match Json.member? members Json.typeName with
  | none => tag = declared
  | some found => found = .text tag

namespace Registry

mutual

/-- Whether a value may have been made of JSON in the place of a field. -/
inductive Imports (r : Registry) : Field → Json → Value → Prop
  | null {f : Field} : Imports r f .null .null
  | leaf {f : Field} {j : Json} {v : Value} : j.toLeaf f.kind = .ok v → Imports r f j v
  | list {f element : Field} {js : List Json} {vs : List Value} : f.kind = .list element →
      ImportsItems r element js vs → Imports r f (.array js) (.list vs)
  | map {f key value : Field} {js : List Json} {es : List (Value × Value)} :
      f.kind = .map key value → ImportsEntries r key value js es →
      Imports r f (.array js) (.map es)
  | nested {f : Field} {declared : String} {members : List (String × Json)} {i : Instance} :
      f.kind = .nested declared → ImportsInstance r declared members i →
      Imports r f (.object members) (.nested i)

/-- Whether items may have been made of those of an array. -/
inductive ImportsItems (r : Registry) : Field → List Json → List Value → Prop
  | nil {element : Field} : ImportsItems r element [] []
  | cons {element : Field} {j : Json} {v : Value} {js : List Json} {vs : List Value} :
      Imports r element j v → ImportsItems r element js vs →
      ImportsItems r element (j :: js) (v :: vs)

/-- Whether the entries of a map may have been made of the pairs in an array. -/
inductive ImportsEntries (r : Registry) : Field → Field → List Json → List (Value × Value) → Prop
  | nil {key value : Field} : ImportsEntries r key value [] []
  | cons {key value : Field} {jk jv : Json} {k v : Value} {js : List Json}
      {es : List (Value × Value)} : Imports r key jk k → Imports r value jv v →
      ImportsEntries r key value js es →
      ImportsEntries r key value (.array [jk, jv] :: js) ((k, v) :: es)

/-- Whether an instance may have been made of the members of an object where a type is declared: it
is of the type that they name, which is assignable to the declared one. -/
inductive ImportsInstance (r : Registry) : String → List (String × Json) → Instance → Prop
  | intro {declared : String} {members : List (String × Json)} {i : Instance} {d : Descriptor} :
      r.lookupInstance i = .ok d → Json.Names members declared d.tag →
      r.isAssignable d.tag declared = true →
      ImportsFields r members d.fields d.prototype.values i.values →
      ImportsInstance r declared members i

/-- Whether the values of fields may have been made of members, in an instance that has held other
values in their place when it was fresh. -/
inductive ImportsFields (r : Registry) :
    List (String × Json) → List Field → List Value → List Value → Prop
  | nil {members : List (String × Json)} : ImportsFields r members [] [] []
  | absent {members : List (String × Json)} {f : Field} {fs : List Field} {v : Value}
      {us vs : List Value} : Json.member? members f.name = none →
      ImportsFields r members fs us vs → ImportsFields r members (f :: fs) (v :: us) (v :: vs)
  | present {members : List (String × Json)} {f : Field} {fs : List Field} {j : Json}
      {u v w : Value} {us ws : List Value} : Json.member? members f.name = some j →
      Imports r f j v → v.KeptAs w → ImportsFields r members fs us ws →
      ImportsFields r members (f :: fs) (u :: us) (w :: ws)

end

variable {r : Registry}

/-! ## Imports make nothing else -/

/-- A type is made an instance of if it is the one named, and assignable to the declared one. -/
theorem names_of_concreteTag {declared tag : String} {members : List (String × Json)}
    (h : r.concreteTag declared members = .ok tag) :
    Json.Names members declared tag ∧ r.isAssignable tag declared = true := by
  unfold concreteTag at h
  unfold Json.Names
  split at h
  next hnone =>
    cases h
    rw [hnone]
    exact ⟨rfl, r.isAssignable_self declared⟩
  next hsome =>
    split at h
    next hto =>
      cases h
      rw [hsome]
      exact ⟨rfl, hto⟩
    next => cases h
  next => cases h

/-- A field looks for its reader like for its member. -/
theorem find?_readersOfJson_eq (members : List (String × Json)) (f : Field) :
    (r.readersOfJson members).find? (·.1 == f.name) =
      (members.find? (·.1 == f.name)).map fun m => (m.1, r.valueOfJson m.2) := by
  rw [readersOfJson_eq, List.find?_map]
  rfl

section
variable {members : List (String × Json)}

/-- Storing members keeps the type and the tag of an instance, by induction on the fields. -/
theorem keeps_of_storeMembers {tag : String} {readers : List (String × FieldReader)}
    {fs : List Field} {index : Nat} {i j : Instance}
    (h : storeMembers tag readers index fs i = .ok j) :
    j.type = i.type ∧ j.ownTag? = i.ownTag? := by
  induction fs generalizing index i with
  | nil =>
    cases h
    exact ⟨rfl, rfl⟩
  | cons f fs ih =>
    unfold storeMembers at h
    split at h
    next => exact ih h
    next =>
      split at h
      next => cases h
      next =>
        split at h
        next => cases h
        next hset =>
          obtain ⟨htype, htag⟩ := ih h
          obtain ⟨htype', htag'⟩ := Instance.keeps_of_setField hset
          exact ⟨htype.trans htype', htag.trans htag'⟩

variable (hread : ∀ m ∈ members, ∀ f v, r.valueOfJson m.2 f = .ok v → r.Imports f m.2 v)
include hread

/-- Behind the values that are done already, storing members puts what it makes of them in the place
of fresh values, by induction on the fields. -/
theorem importsFields_of_storeMembers {tag : String} {fs : List Field} {index : Nat}
    {i j : Instance} {done fresh : List Value} (hi : i.values = done ++ fresh)
    (hdone : done.length = index) (hfresh : fresh.length = fs.length)
    (h : storeMembers tag (r.readersOfJson members) index fs i = .ok j) :
    ∃ vs, j.values = done ++ vs ∧ r.ImportsFields members fs fresh vs := by
  induction fs generalizing index i done fresh with
  | nil =>
    cases h
    cases List.eq_nil_of_length_eq_zero hfresh
    exact ⟨[], hi, .nil⟩
  | cons f fs ih =>
    obtain ⟨u, fresh, rfl⟩ := List.exists_of_length_succ fresh hfresh
    have hfresh := Nat.succ.inj hfresh
    unfold storeMembers at h
    rw [find?_readersOfJson_eq] at h
    cases hm : members.find? (·.1 == f.name) with
    | none =>
      rw [hm] at h
      have hi' : i.values = (done ++ [u]) ++ fresh := by
        rw [hi]
        simp
      obtain ⟨vs, hj, hvs⟩ := ih hi' (by simp [hdone]) hfresh h
      exact ⟨u :: vs, by rw [hj]; simp, .absent (by rw [Json.member?, hm]; rfl) hvs⟩
    | some m =>
      rw [hm] at h
      dsimp only [Option.map_some] at h
      split at h
      next => cases h
      next v hv =>
        split at h
        next => cases h
        next i' hset =>
          obtain ⟨w, hw, hvalues⟩ := Instance.values_of_setField hset
          -- The index is that of the first value which is not done yet.
          have hi' : i'.values = (done ++ [w]) ++ fresh := by
            rw [hvalues, hi, ← hdone]
            simp
          obtain ⟨ws, hj, hws⟩ := ih hi' (by simp [hdone]) hfresh h
          have hmember : Json.member? members f.name = some m.2 := by rw [Json.member?, hm]; rfl
          have himports := hread m (List.mem_of_find?_eq_some hm) f v hv
          exact ⟨w :: ws, by rw [hj]; simp, .present hmember himports hw hws⟩

/-- What is made of an object is an instance of the type that it names. -/
theorem importsInstance_of_ofMembers (hr : r.Native) {declared : String} {i : Instance}
    (h : r.ofMembers declared members (r.readersOfJson members) = .ok i) :
    r.ImportsInstance declared members i := by
  unfold ofMembers at h
  obtain ⟨tag, htag, h⟩ := Except.bind_eq_ok.1 h
  obtain ⟨hnames, hto⟩ := names_of_concreteTag htag
  unfold lookup at h
  cases hd : r.get? tag with
  | none =>
    rw [hd] at h
    cases h
  | some d =>
    rw [hd] at h
    dsimp only at h
    split at h
    next => cases h
    next =>
      obtain ⟨hmem, rfl⟩ := mem_of_get? hd
      obtain ⟨htype, hown⟩ := keeps_of_storeMembers h
      have hlookup := hr.sound.lookupInstance_of_prototype hmem htype hown
      obtain ⟨vs, hvs, hfields⟩ := importsFields_of_storeMembers hread (List.nil_append _).symm rfl
        (hr.length_prototype hmem) h
      rw [List.nil_append] at hvs
      exact .intro hlookup hnames hto (hvs ▸ hfields)

end

mutual

/-- What is made of a JSON value in the place of a field, by induction over the value. -/
theorem imports_of_valueOfJson (hr : r.Native) (j : Json) {f : Field} {v : Value}
    (h : r.valueOfJson j f = .ok v) : r.Imports f j v := by
  obtain ⟨name, kind, nullable⟩ := f
  cases j with
  | null =>
    rw [valueOfJson_null] at h
    cases h
    exact .null
  | array items =>
    cases kind with
    | list element =>
      rw [valueOfJson] at h
      obtain ⟨vs, hvs, rfl⟩ := Except.map_eq_ok.1 h
      exact .list rfl (importsItems_of_itemsOfJson hr items hvs)
    | map key value =>
      rw [valueOfJson] at h
      obtain ⟨es, hes, rfl⟩ := Except.map_eq_ok.1 h
      exact .map rfl (importsEntries_of_entriesOfJson hr items hes)
    | _ => exact .leaf h
  | object members =>
    cases kind with
    | nested declared =>
      rw [valueOfJson] at h
      obtain ⟨i, hi, rfl⟩ := Except.map_eq_ok.1 h
      exact .nested rfl (importsInstance_of_ofMembers
        (fun m hm f v => imports_of_mem hr members hm) hr hi)
    | _ => exact .leaf h
  | _ => exact .leaf h
termination_by structural j

/-- What is made of the items of an array. -/
theorem importsItems_of_itemsOfJson (hr : r.Native) (js : List Json) {element : Field}
    {vs : List Value} (h : r.itemsOfJson js element = .ok vs) : r.ImportsItems element js vs := by
  cases js with
  | nil =>
    rw [itemsOfJson] at h
    cases h
    exact .nil
  | cons j js =>
    rw [itemsOfJson] at h
    obtain ⟨v, hv, h⟩ := Except.bind_eq_ok.1 h
    obtain ⟨vs, hvs, h⟩ := Except.bind_eq_ok.1 h
    cases h
    exact .cons (imports_of_valueOfJson hr j hv) (importsItems_of_itemsOfJson hr js hvs)
termination_by structural js

/-- What is made of the pairs in an array. -/
theorem importsEntries_of_entriesOfJson (hr : r.Native) (js : List Json) {key value : Field}
    {es : List (Value × Value)} (h : r.entriesOfJson js key value = .ok es) :
    r.ImportsEntries key value js es := by
  match js with
  | [] =>
    rw [entriesOfJson] at h
    cases h
    exact .nil
  | .array [jk, jv] :: js =>
    rw [entriesOfJson] at h
    obtain ⟨k, hk, h⟩ := Except.bind_eq_ok.1 h
    obtain ⟨v, hv, h⟩ := Except.bind_eq_ok.1 h
    obtain ⟨es, hes, h⟩ := Except.bind_eq_ok.1 h
    cases h
    exact .cons (imports_of_valueOfJson hr jk hk) (imports_of_valueOfJson hr jv hv)
      (importsEntries_of_entriesOfJson hr js hes)
  | .array [] :: _ | .array [_] :: _ | .array (_ :: _ :: _ :: _) :: _ | .null :: _ | .bool _ :: _
  | .int _ :: _ | .float _ :: _ | .text _ :: _ | .object _ :: _ => cases h
termination_by structural js

/-- What is made of one of the members of an object. -/
theorem imports_of_mem (hr : r.Native) (members : List (String × Json)) {m : String × Json}
    (hm : m ∈ members) {f : Field} {v : Value} (h : r.valueOfJson m.2 f = .ok v) :
    r.Imports f m.2 v := by
  match members with
  | (name, j) :: members =>
    rcases List.mem_cons.1 hm with rfl | hm
    · exact imports_of_valueOfJson hr j h
    · exact imports_of_mem hr members hm h
termination_by structural members

end

end Registry

end TagWire
