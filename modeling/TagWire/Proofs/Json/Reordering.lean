import Mathlib.Data.Option.Basic
import TagWire.Proofs.Json.Filling
import TagWire.Proofs.Json.Soundness

/-!
# The order of members

The same instances are made of JSON values that differ only in the order of the members of objects
(`Json.Reordered`). Such objects have the same names, and under each name there are such values
(`Json.ReorderedMembers.member?_rel`). Nothing in the reading of an object looks at more than that:
not the type that it names, not the search for unknown members, and not the storing of members,
which goes by the fields (`Registry.ofMembers_iff_of_reordered`). So the same values are made of
such JSON values, by induction over the first (`Registry.valueOfJson_iff_of_reordered`).
-/

namespace TagWire

namespace Json

mutual

/-- Whether JSON values differ at most in the order of the members of objects, which have distinct
names. -/
inductive Reordered : Json → Json → Prop
  | same (j : Json) : Reordered j j
  | array {js js' : List Json} : ReorderedItems js js' → Reordered (.array js) (.array js')
  | object {ms ns ms' : List (String × Json)} : ReorderedMembers ms ns → ns.Perm ms' →
      (ms.map Prod.fst).Nodup → Reordered (.object ms) (.object ms')

/-- Whether items differ at most in this, one by one. -/
inductive ReorderedItems : List Json → List Json → Prop
  | nil : ReorderedItems [] []
  | cons {j j' : Json} {js js' : List Json} : Reordered j j' → ReorderedItems js js' →
      ReorderedItems (j :: js) (j' :: js')

/-- Whether members have the same names in the same order, and their values differ at most in
this. -/
inductive ReorderedMembers : List (String × Json) → List (String × Json) → Prop
  | nil : ReorderedMembers [] []
  | cons {name : String} {j j' : Json} {ms ns : List (String × Json)} : Reordered j j' →
      ReorderedMembers ms ns → ReorderedMembers ((name, j) :: ms) ((name, j') :: ns)

end

/-- Items do not differ from themselves. -/
theorem ReorderedItems.refl (js : List Json) : ReorderedItems js js := by
  induction js with
  | nil => exact .nil
  | cons j js ih => exact .cons (.same j) ih

/-- What differs at most in order from an array is an array, and so do its items from those of the
former. -/
theorem Reordered.of_array {js : List Json} {j' : Json} (h : Reordered (.array js) j') :
    ∃ js', j' = .array js' ∧ ReorderedItems js js' := by
  cases h with
  | same => exact ⟨js, rfl, .refl js⟩
  | array hitems => exact ⟨_, rfl, hitems⟩

/-- What differs at most in order from what is no pair is none. -/
theorem Reordered.ne_pair {j j' : Json} (h : Reordered j j') (hj : ∀ jk jv, j ≠ .array [jk, jv]) :
    ∀ jk jv, j' ≠ .array [jk, jv] := by
  rintro jk jv rfl
  cases h with
  | same => exact hj jk jv rfl
  | array hitems =>
    cases hitems with
    | cons _ hrest =>
      cases hrest with
      | cons _ hnil =>
        cases hnil
        exact hj _ _ rfl

/-! ## Members by name -/

section
variable {ms ns ms' : List (String × Json)}

/-- The first member comes before those behind it. -/
theorem member?_cons (m : String × Json) (name : String) :
    member? (m :: ms) name = if m.1 = name then some m.2 else member? ms name := by
  by_cases h : m.1 = name <;> simp [member?, h]

/-- Among members of distinct names each is found under its own. -/
theorem member?_eq_some_iff (h : (ms.map Prod.fst).Nodup) {name : String} {j : Json} :
    member? ms name = some j ↔ (name, j) ∈ ms := by
  induction ms with
  | nil => simp [member?]
  | cons m ms ih =>
    obtain ⟨hm, hms⟩ := List.nodup_cons.1 h
    rw [member?_cons, List.mem_cons]
    split
    next heq =>
      have hrest : (name, j) ∉ ms := fun hmem => hm (heq ▸ List.mem_map_of_mem hmem)
      rw [or_iff_left hrest, Option.some.injEq, Prod.eq_iff_fst_eq_snd_eq, eq_comm, ← heq]
      exact (and_iff_right rfl).symm
    next hne =>
      have hhead : (name, j) ≠ m := fun heq => hne (heq ▸ rfl)
      rw [or_iff_right hhead, ih hms]

/-- Members of distinct names are found in whatever order they are. -/
theorem member?_eq_of_perm (h : ms.Perm ms') (hnodup : (ms.map Prod.fst).Nodup) (name : String) :
    member? ms name = member? ms' name := by
  refine Option.ext fun j => ?_
  rw [member?_eq_some_iff hnodup, member?_eq_some_iff ((h.map Prod.fst).nodup_iff.1 hnodup),
    h.mem_iff]

/-- Members in the same order have the same names. -/
theorem ReorderedMembers.names (h : ReorderedMembers ms ns) :
    ns.map Prod.fst = ms.map Prod.fst := by
  induction ms generalizing ns with
  | nil =>
    cases h
    rfl
  | cons m ms ih =>
    cases h with
    | cons _ hms => rw [List.map_cons, List.map_cons, ih hms]

/-- Members in the same order are found under the same names. -/
theorem ReorderedMembers.member?_rel (h : ReorderedMembers ms ns) (name : String) :
    Option.Rel Reordered (member? ms name) (member? ns name) := by
  induction ms generalizing ns with
  | nil =>
    cases h
    exact .none
  | cons m ms ih =>
    cases h with
    | cons hj hms =>
      rw [member?_cons, member?_cons]
      split
      next => exact .some hj
      next => exact ih hms

end

end Json

namespace Registry

open Json (Reordered ReorderedItems ReorderedMembers)

variable {r : Registry} {ms ms' : List (String × Json)}

/-! ## What is looked at -/

/-- Whether the same values are made of JSON values, whatever the field. -/
def ReadsAlike (r : Registry) (j j' : Json) : Prop :=
  ∀ f v, r.valueOfJson j f = .ok v ↔ r.valueOfJson j' f = .ok v

/-- Objects that have under the name of the type what differs at most in order name the same
types. -/
theorem names_iff_of_rel {declared tag : String}
    (h : Option.Rel Reordered (Json.member? ms Json.typeName) (Json.member? ms' Json.typeName)) :
    Json.Names ms declared tag ↔ Json.Names ms' declared tag := by
  unfold Json.Names
  generalize Json.member? ms Json.typeName = found at h
  generalize Json.member? ms' Json.typeName = found' at h
  cases h with
  | none => exact Iff.rfl
  | some hj =>
    cases hj with
    | same => exact Iff.rfl
    | array | object => exact iff_of_false nofun nofun

/-- Members that are read alike are stored alike, by induction on the fields. -/
theorem storeMembers_iff_of_rel
    (h : ∀ name, Option.Rel r.ReadsAlike (Json.member? ms name) (Json.member? ms' name))
    {tag : String} {fs : List Field} {index : Nat} {i i' : Instance} :
    storeMembers tag (r.readersOfJson ms) index fs i = .ok i' ↔
      storeMembers tag (r.readersOfJson ms') index fs i = .ok i' := by
  induction fs generalizing index i with
  | nil => rw [storeMembers, storeMembers]
  | cons f fs ih =>
    rw [storeMembers_cons_eq_ok_iff, storeMembers_cons_eq_ok_iff]
    have hf := h f.name
    generalize Json.member? ms f.name = found at hf
    generalize Json.member? ms' f.name = found' at hf
    cases hf with
    | none => simp [ih]
    | some hread => simp [hread f _, ih]

/-- Whether an object has unknown members is told by the names of its members. -/
theorem unknownMember?_iff_of_names {d : Descriptor}
    (h : ∀ name, name ∈ ms.map Prod.fst ↔ name ∈ ms'.map Prod.fst) :
    unknownMember? d ms = none ↔ unknownMember? d ms' = none := by
  have hknown (ms : List (String × Json)) : unknownMember? d ms = none ↔
      ∀ name ∈ ms.map Prod.fst, name ≠ Json.typeName → ∃ f ∈ d.fields, f.name = name := by
    rw [unknownMember?_eq_none_iff, List.forall_mem_map]
  simp only [hknown, h]

/-- Objects that differ at most in the order of members, and whose members are read alike, are made
the same instances. -/
theorem ofMembers_iff_of_reordered {ns : List (String × Json)} (h : ReorderedMembers ms ns)
    (hperm : ns.Perm ms') (hnodup : (ms.map Prod.fst).Nodup)
    (hread : ∀ name, Option.Rel r.ReadsAlike (Json.member? ms name) (Json.member? ns name))
    {declared : String} {i : Instance} :
    r.ofMembers declared ms (r.readersOfJson ms) = .ok i ↔
      r.ofMembers declared ms' (r.readersOfJson ms') = .ok i := by
  have hfound (name : String) : Json.member? ns name = Json.member? ms' name :=
    Json.member?_eq_of_perm hperm (h.names ▸ hnodup) name
  have hnames (name : String) : name ∈ ms.map Prod.fst ↔ name ∈ ms'.map Prod.fst := by
    rw [← h.names]
    exact (hperm.map Prod.fst).mem_iff
  have htype := hfound Json.typeName ▸ h.member?_rel Json.typeName
  have hread (name : String) := hfound name ▸ hread name
  simp only [ofMembers_eq_ok_iff, Resolves, names_iff_of_rel htype,
    unknownMember?_iff_of_names hnames, storeMembers_iff_of_rel hread]

/-- No value without parts is made of an array or an object. -/
theorem toLeaf_ne_ok {kind : FieldKind} {v : Value} :
    (∀ js, (Json.array js).toLeaf kind ≠ .ok v) ∧ ∀ ms, (Json.object ms).toLeaf kind ≠ .ok v := by
  cases kind with
  | scalar k => cases k <;> exact ⟨nofun, nofun⟩
  | _ => exact ⟨nofun, nofun⟩

/-- No map is made of an array of which the first item is not a pair. -/
theorem entriesOfJson_cons_ne_ok {j : Json} (hj : ∀ jk jv, j ≠ .array [jk, jv]) {js : List Json}
    {key value : Field} {es : List (Value × Value)} :
    r.entriesOfJson (j :: js) key value ≠ .ok es := by
  intro h
  cases entriesOfJson_eq_ok_iff.1 h with
  | cons hentry _ =>
    obtain ⟨jk, jv, rfl, -⟩ := hentry
    exact hj jk jv rfl

mutual

/-- The same values are made of JSON values that differ at most in the order of members, by
induction over the first. -/
theorem valueOfJson_iff_of_reordered (j : Json) {j' : Json} (h : Reordered j j') :
    r.ReadsAlike j j' := by
  rintro ⟨name, kind, nullable⟩ v
  cases j with
  | array js =>
    obtain ⟨js', rfl, hitems⟩ := h.of_array
    cases kind with
    | list element =>
      rw [valueOfJson, valueOfJson, Except.map_eq_ok, Except.map_eq_ok]
      exact exists_congr fun vs => and_congr_left' (itemsOfJson_iff_of_reordered js hitems)
    | map key value =>
      rw [valueOfJson, valueOfJson, Except.map_eq_ok, Except.map_eq_ok]
      exact exists_congr fun es => and_congr_left' (entriesOfJson_iff_of_reordered js hitems)
    | _ => simp [valueOfJson, toLeaf_ne_ok]
  | object ms =>
    cases h with
    | same => exact Iff.rfl
    | object hmembers hperm hnodup =>
      cases kind with
      | nested declared =>
        rw [valueOfJson, valueOfJson, Except.map_eq_ok, Except.map_eq_ok]
        have hread name := readsAlike_of_reordered ms hmembers name
        exact exists_congr fun i => and_congr_left'
          (ofMembers_iff_of_reordered hmembers hperm hnodup hread)
      | _ => simp [valueOfJson, toLeaf_ne_ok]
  | _ =>
    cases h
    exact Iff.rfl
termination_by structural j

/-- The same lists are made of arrays. -/
theorem itemsOfJson_iff_of_reordered (js : List Json) {js' : List Json} (h : ReorderedItems js js')
    {element : Field} {vs : List Value} :
    r.itemsOfJson js element = .ok vs ↔ r.itemsOfJson js' element = .ok vs := by
  cases js with
  | nil =>
    cases h
    exact Iff.rfl
  | cons j js =>
    cases h with
    | cons hj hjs =>
      rw [itemsOfJson, itemsOfJson]
      simp only [Except.bind_eq_ok, valueOfJson_iff_of_reordered j hj element _,
        itemsOfJson_iff_of_reordered js hjs]
termination_by structural js

/-- The same maps are made of arrays. -/
theorem entriesOfJson_iff_of_reordered (js : List Json) {js' : List Json}
    (h : ReorderedItems js js') {key value : Field} {es : List (Value × Value)} :
    r.entriesOfJson js key value = .ok es ↔ r.entriesOfJson js' key value = .ok es := by
  match js with
  | [] =>
    cases h
    exact Iff.rfl
  | .array [jk, jv] :: js =>
    cases h with
    | cons hj hjs =>
      obtain ⟨_, rfl, hitems⟩ := hj.of_array
      cases hitems with
      | cons hk hrest =>
        cases hrest with
        | cons hv hnil =>
          cases hnil
          rw [entriesOfJson, entriesOfJson]
          simp only [Except.bind_eq_ok, valueOfJson_iff_of_reordered jk hk key _,
            valueOfJson_iff_of_reordered jv hv value _, entriesOfJson_iff_of_reordered js hjs]
  | .array [] :: _ | .array [_] :: _ | .array (_ :: _ :: _ :: _) :: _ | .null :: _ | .bool _ :: _
  | .int _ :: _ | .float _ :: _ | .text _ :: _ | .object _ :: _ =>
    cases h with
    | cons hj hjs =>
      exact iff_of_false nofun (entriesOfJson_cons_ne_ok (hj.ne_pair nofun))
termination_by structural js

/-- Members of the same names are read alike. -/
theorem readsAlike_of_reordered (ms : List (String × Json)) {ns : List (String × Json)}
    (h : ReorderedMembers ms ns) (name : String) :
    Option.Rel r.ReadsAlike (Json.member? ms name) (Json.member? ns name) := by
  match ms with
  | [] =>
    cases h
    exact .none
  | (other, j) :: ms =>
    cases h with
    | cons hj hms =>
      rw [Json.member?_cons, Json.member?_cons]
      split
      next => exact .some (valueOfJson_iff_of_reordered j hj)
      next => exact readsAlike_of_reordered ms hms name
termination_by structural ms

end

/-- Members are read by name. The same instances are made of JSON values that differ at most in the
order of the members of objects. And when an instance is made of a JSON value, each object that is
read on the way, the outermost one included, goes with the instance that is made of it: its members,
apart from the one that names the type, are those of fields, and a field without a member is as in a
fresh instance. This instance is what is found there in the one that is made of all. -/
theorem ofJson_reads_by_name (r : Registry) (declared : String) :
    (∀ j j' i, j.Reordered j' → (r.ofJson declared j = .ok i ↔ r.ofJson declared j' = .ok i)) ∧
    ∀ j i, r.ofJson declared j = .ok i → ∀ path declared' members,
      r.Leads (.nested declared) j path (.nested declared') (.object members) →
        ∃ i', r.ofJson declared' (.object members) = .ok i' ∧ r.Fills declared' members i' ∧
          ∀ w, (Value.nested i).at? path = some w → w = .nested i' := by
  refine ⟨fun j j' i h => ?_, fun j i h path declared' members => exists_fills_of_leads h⟩
  rw [ofJson_eq_ok_iff, ofJson_eq_ok_iff]
  exact valueOfJson_iff_of_reordered j h _ _

/-- A task among the replies of another, both with their members in another order, is made the same,
and has no replies itself, because there is no member for them. -/
theorem ofJson_reads_by_name_task :
    let reply : List (String × Json) := [("$type", .text "Task"), ("done", .bool true)]
    let j : Json := .object [("$type", .text "Task"), ("replies", .array [.object reply])]
    let j' : Json := .object
      [("replies", .array [.object [("done", .bool true), ("$type", .text "Task")]]),
        ("$type", .text "Task")]
    let task : Instance := .record .task [.list [], .scalar (.bool true)]
    let i : Instance := .record .task [.list [.nested task], .scalar (.bool false)]
    j.Reordered j' ∧ notes.ofJson "Note" j = .ok i ∧ notes.ofJson "Note" j' = .ok i ∧
      (Value.nested i).at? [.field 0, .item 0] = some (.nested task) ∧
      notes.Fills "Note" reply task := by
  intro reply j j' task i
  have hreply : Reordered (.object reply)
      (.object [("done", .bool true), ("$type", .text "Task")]) :=
    .object (.cons (.same _) (.cons (.same _) .nil)) (.swap _ _ _) (by decide)
  have hj : j.Reordered j' :=
    .object (.cons (.same _) (.cons (.array (.cons hreply .nil)) .nil)) (.swap _ _ _) (by decide)
  have hi : notes.ofJson "Note" j = .ok i := rfl
  have hpath : notes.Leads (.nested "Note") j [.field 0, .item 0] (.nested "Note")
      (.object reply) := by
    let d : Descriptor :=
      ⟨"Task", some "Note", RecordShape.task.fields, (Record.fresh .task).toInstance⟩
    exact .cons (.field (d := d) ⟨rfl, rfl⟩ rfl rfl) (.cons (.item rfl) (.nil _ _))
  obtain ⟨horder, hdown⟩ := ofJson_reads_by_name notes "Note"
  obtain ⟨i', -, hfills, hfound⟩ := hdown j i hi _ "Note" reply hpath
  cases hfound (.nested task) rfl
  exact ⟨hj, hi, (horder j j' i hj).1 hi, rfl, hfills⟩

end Registry

end TagWire
