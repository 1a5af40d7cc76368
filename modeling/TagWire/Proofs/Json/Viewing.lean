import Mathlib.Data.List.Forall2
import TagWire.Json.View
import TagWire.Proofs.Registry.Native
import TagWire.Proofs.Schema.Drafting
import TagWire.Proofs.Schema.Storing

/-!
# The view of an instance

What the view of an instance looks like when the names of its fields are in order: an object with
the tag first and then one member for each field, named as the field and in the order of the fields
(`Instance.toJson_eq_ok_iff`). No member takes the place of another, since the names of fields are
apart and none of them is the name under which the tag stands.
-/

namespace TagWire

/-! ## Names of fields -/

/-- The fields of a type that has been built have names of their own. -/
theorem Draft.nodup_of_build {draft : Draft} {d : Descriptor} (h : draft.build = .ok d) :
    (d.fields.map Field.name).Nodup := by
  obtain ⟨horder, -, hfields⟩ := inOrder_of_build h
  rw [hfields]
  exact horder.nodup_names

/-- Whether every registered type was built of a draft. -/
def Registry.Built (r : Registry) : Prop := ∀ d ∈ r.types, ∃ draft : Draft, draft.build = .ok d

/-- A type that has been built has a tag. -/
theorem Registry.Built.tag_ne_empty {r : Registry} (h : r.Built) {d : Descriptor}
    (hd : d ∈ r.types) : d.tag ≠ "" := by
  obtain ⟨draft, hdraft⟩ := h d hd
  obtain ⟨horder, htag, -⟩ := Draft.inOrder_of_build hdraft
  rw [htag]
  exact horder.tag_ne_empty

/-- Whether the fields of a type have names of their own, none of which is that of the tag. -/
def Descriptor.Viewable (d : Descriptor) : Prop :=
  (Json.typeName :: d.fields.map Field.name).Nodup

/-- The types of a registry that has been built are viewable if no field has the name of the tag. -/
theorem Registry.Built.viewable {r : Registry} (h : r.Built) {d : Descriptor} (hd : d ∈ r.types)
    (htype : ∀ f ∈ d.fields, f.name ≠ Json.typeName) : d.Viewable := by
  obtain ⟨draft, hdraft⟩ := h d hd
  refine List.nodup_cons.2 ⟨fun hmem => ?_, Draft.nodup_of_build hdraft⟩
  obtain ⟨f, hf, hname⟩ := List.mem_map.1 hmem
  exact htype f hf hname

/-! ## Members -/

namespace Json

/-- A member of a new name is put at the end. -/
theorem putMember_of_not_mem {name : String} {value : Json} {members : List (String × Json)}
    (h : name ∉ members.map Prod.fst) :
    putMember name value members = members ++ [(name, value)] := by
  induction members with
  | nil => rfl
  | cons m members ih =>
    rw [List.map_cons, List.mem_cons, not_or] at h
    have hname : ¬(m.1 == name) = true := by simpa using Ne.symm h.1
    rw [putMember, if_neg hname, ih h.2, List.cons_append]

/-- Members of new names are put at the end. -/
theorem putMembers_of_nodup {members new : List (String × Json)}
    (h : ((members ++ new).map Prod.fst).Nodup) : putMembers members new = members ++ new := by
  induction new generalizing members with
  | nil => exact (List.append_nil members).symm
  | cons m new ih =>
    have hm : m.1 ∉ members.map Prod.fst := by
      rw [List.map_append, List.map_cons] at h
      exact fun hmem => (List.nodup_append.1 h).2.2 _ hmem _ (.head _) rfl
    have hstep : putMembers members (m :: new) = putMembers (putMember m.1 m.2 members) new := rfl
    rw [hstep, putMember_of_not_mem hm, ih (by simpa using h), List.append_assoc]
    rfl

/-- Among members of different names, the one that has the name of a member put before them takes
the place of that one. -/
theorem putMembers_of_split {name : String} {value : Json} {before after : List (String × Json)}
    {m : String × Json} (hname : m.1 = name)
    (h : ((before ++ m :: after).map Prod.fst).Nodup) :
    putMembers [(name, value)] (before ++ m :: after) = m :: (before ++ after) := by
  subst hname
  have hnodup : ((m :: (before ++ after)).map Prod.fst).Nodup :=
    (List.perm_middle.map Prod.fst).nodup_iff.1 h
  have hbefore : (([(m.1, value)] ++ before).map Prod.fst).Nodup := by
    simp only [List.map_cons, List.map_append, List.nodup_cons, List.nodup_append,
      List.mem_append, not_or] at hnodup
    exact List.nodup_cons.2 ⟨hnodup.1.1, hnodup.2.1⟩
  have hstep : putMembers [(m.1, value)] (before ++ m :: after) =
      putMembers (putMember m.1 m.2 (putMembers [(m.1, value)] before)) after := by
    rw [putMembers, List.foldl_append]
    rfl
  have hplace : putMember m.1 m.2 ([(m.1, value)] ++ before) = m :: before :=
    if_pos (beq_self_eq_true _)
  rw [hstep, putMembers_of_nodup hbefore, hplace, putMembers_of_nodup hnodup]
  rfl

/-- Whether members stand for the values of fields in a row: each has the name of its field, and
the field, its value and the member are as `P` says. -/
inductive Members (P : Field → Value → Json → Prop) :
    List Field → List Value → List (String × Json) → Prop
  | nil (vs : List Value) : Members P [] vs []
  | cons {f : Field} {v : Value} {j : Json} {fs : List Field} {vs : List Value}
      {ms : List (String × Json)} :
      P f v j → Members P fs vs ms → Members P (f :: fs) (v :: vs) ((f.name, j) :: ms)

namespace Members

variable {P Q : Field → Value → Json → Prop} {fs : List Field} {vs : List Value}
  {ms : List (String × Json)}

/-- The members have the names of the fields. -/
theorem names (h : Members P fs vs ms) : ms.map Prod.fst = fs.map Field.name := by
  induction h with
  | nil vs => rfl
  | cons _ _ ih => rw [List.map_cons, List.map_cons, ih]

/-- What follows from a property of members holds where the property does. -/
theorem mono (hPQ : ∀ f v j, P f v j → Q f v j) (h : Members P fs vs ms) : Members Q fs vs ms := by
  induction h with
  | nil vs => exact .nil vs
  | cons hp _ ih => exact .cons (hPQ _ _ _ hp) ih

/-- Where there are as many values as fields, the values and the members stand in the same row. -/
theorem forall₂ {P : Value → Json → Prop} (h : Members (fun _ v j => P v j) fs vs ms)
    (hlength : vs.length = fs.length) : List.Forall₂ (fun v m => P v m.2) vs ms := by
  induction h with
  | nil vs =>
    rw [List.eq_nil_of_length_eq_zero hlength]
    exact .nil
  | cons hp _ ih => exact .cons hp (ih (Nat.succ.inj hlength))

/-- The values may be given in another form. -/
theorem map {g : Value → Value} (h : Members (fun f v j => Q f (g v) j) fs vs ms) :
    Members Q fs (vs.map g) ms := by
  induction h with
  | nil vs => exact .nil _
  | cons hq _ ih => exact .cons hq ih

end Members

end Json

/-! ## Views -/

section
variable (r : Registry)

/-- The views of items stand in a row. -/
theorem Value.itemsToJson_eq_ok_iff {vs : List Value} {js : List Json} :
    Value.itemsToJson r vs = .ok js ↔ List.Forall₂ (fun v j => v.toJson r = .ok j) vs js := by
  induction vs generalizing js with
  | nil =>
    rw [Value.itemsToJson, Except.ok.injEq, List.forall₂_nil_left_iff, eq_comm]
  | cons v vs ih =>
    rw [Value.itemsToJson]
    simp only [Except.bind_eq_ok, ih]
    refine ⟨?_, ?_⟩
    · intro h
      obtain ⟨j, hj, js, hjs, h⟩ := h
      cases h
      exact .cons hj hjs
    · intro h
      cases h with
      | cons hj hjs => exact ⟨_, hj, _, hjs, rfl⟩

/-- The views of entries stand in a row, each as a pair. -/
theorem Value.entriesToJson_eq_ok_iff {es : List (Value × Value)} {js : List Json} :
    Value.entriesToJson r es = .ok js ↔ List.Forall₂ (fun e j => ∃ key value,
      e.1.toJson r = .ok key ∧ e.2.toJson r = .ok value ∧ j = .array [key, value]) es js := by
  induction es generalizing js with
  | nil =>
    rw [Value.entriesToJson, Except.ok.injEq, List.forall₂_nil_left_iff, eq_comm]
  | cons e es ih =>
    rw [Value.entriesToJson]
    simp only [Except.bind_eq_ok, ih]
    refine ⟨?_, ?_⟩
    · intro h
      obtain ⟨key, hkey, value, hvalue, js, hjs, h⟩ := h
      cases h
      exact .cons ⟨key, value, hkey, hvalue, rfl⟩ hjs
    · intro h
      cases h with
      | cons he hjs =>
        obtain ⟨key, value, hkey, hvalue, rfl⟩ := he
        exact ⟨key, hkey, value, hvalue, _, hjs, rfl⟩

/-- The views of the values of fields are members in the order of the fields. -/
theorem Value.fieldsToJson_eq_ok_iff {tag : String} {fs : List Field} {vs : List Value}
    {ms : List (String × Json)} : Value.fieldsToJson r tag fs vs = .ok ms ↔
      Json.Members (fun _ v j => v.toJson r = .ok j) fs vs ms := by
  induction fs generalizing vs ms with
  | nil =>
    rw [Value.fieldsToJson, Except.ok.injEq]
    refine ⟨?_, ?_⟩
    · intro h
      subst h
      exact .nil vs
    · intro h
      cases h
      rfl
  | cons f fs ih =>
    cases vs with
    | nil =>
      rw [Value.fieldsToJson]
      refine ⟨?_, ?_⟩ <;> intro h <;> cases h
    | cons v vs =>
      rw [Value.fieldsToJson]
      simp only [Except.bind_eq_ok, ih]
      refine ⟨?_, ?_⟩
      · intro h
        obtain ⟨j, hj, ms, hms, h⟩ := h
        cases h
        exact .cons hj hms
      · intro h
        cases h with
        | cons hj hms => exact ⟨_, hj, _, hms, rfl⟩

/-- The view of an instance has the members of its fields, put behind its tag. -/
theorem Instance.toJson_eq_ok_iff_put {i : Instance} {d : Descriptor}
    (hd : r.lookupInstance i = .ok d) {j : Json} : i.toJson r = .ok j ↔
      ∃ ms, Json.Members (fun _ v j => v.toJson r = .ok j) d.fields i.values ms ∧
        j = .object (Json.putMembers [(Json.typeName, .text d.tag)] ms) := by
  rw [Instance.toJson, hd]
  simp only [Except.bind_eq_ok, Value.fieldsToJson_eq_ok_iff]
  refine exists_congr fun ms => and_congr_right fun _ => ?_
  exact ⟨fun h => (Except.ok.inj h).symm, fun h => congrArg Except.ok h.symm⟩

/-- The view of an instance of a viewable type is its tag and then its fields. -/
theorem Instance.toJson_eq_ok_iff {i : Instance} {d : Descriptor} (hd : r.lookupInstance i = .ok d)
    (hview : d.Viewable) {j : Json} : i.toJson r = .ok j ↔
      ∃ ms, Json.Members (fun _ v j => v.toJson r = .ok j) d.fields i.values ms ∧
        j = .object ((Json.typeName, .text d.tag) :: ms) := by
  rw [Instance.toJson_eq_ok_iff_put r hd]
  refine exists_congr fun ms => and_congr_right fun hms => ?_
  have hnodup : (([(Json.typeName, Json.text d.tag)] ++ ms).map Prod.fst).Nodup := by
    rw [List.map_append, hms.names]
    exact hview
  rw [Json.putMembers_of_nodup hnodup]
  rfl

end

end TagWire
