import TagWire.Proofs.Codec.Canonical
import TagWire.Proofs.Json.RoundTrip

/-!
# What a view tells of an instance

Whatever is decoded has a view, and so has every instance nested in it, at any depth
(`Registry.toJson_of_decode`). The view has a member for each field, named as the field, in the
order of the fields, and in front of them one for the tag. The names of fields are apart, but
nothing keeps a field from having the name under which the tag stands: the member of such a field
takes the place of the tag, and the view tells no more what it is a view of
(`Registry.toJson_without_tag`).
-/

namespace TagWire

open TagWire.Localization (EntityType)

/-! ## Nested instances -/

/-- Whether an instance is nested in a value, at any depth of instances, lists and maps. -/
inductive Value.Holds : Value → Instance → Prop
  | here (i : Instance) : Holds (.nested i) i
  | nested {i j : Instance} {v : Value} : v ∈ i.values → Holds v j → Holds (.nested i) j
  | list {items : List Value} {v : Value} {j : Instance} :
      v ∈ items → Holds v j → Holds (.list items) j
  | key {entries : List (Value × Value)} {e : Value × Value} {j : Instance} :
      e ∈ entries → Holds e.1 j → Holds (.map entries) j
  | value {entries : List (Value × Value)} {e : Value × Value} {j : Instance} :
      e ∈ entries → Holds e.2 j → Holds (.map entries) j

namespace Codec

variable {c : Codec} (hc : c.registry.Native)
include hc

/-- Each value of an instance that conforms fits a field. -/
theorem Conforms.exists_fits_of_mem {i : Instance} {depth : Nat} (h : c.Conforms i depth)
    (hi : i.Native c.registry) : ∀ v ∈ i.values, ∃ f, c.Fits f v depth := by
  obtain ⟨-, d, hd, -, hfit⟩ := conforms_iff.1 h
  exact hfit.exists_of_mem (storeAll_values hc hd hi hfit).1

/-- What is nested in a value that fits conforms, and is native if the value is, by induction on the
place where it is nested. -/
theorem Fits.conforms_of_holds {v : Value} {j : Instance} (hj : v.Holds j) {f : Field} {depth : Nat}
    (hfit : c.Fits f v depth) (hnative : v.Native c.registry) :
    (∃ depth, c.Conforms j depth) ∧ j.Native c.registry := by
  induction hj generalizing f depth with
  | here i =>
    obtain ⟨_, _, -, -, -, hi⟩ := fits_nested.1 hfit
    exact ⟨⟨_, hi⟩, hnative⟩
  | @nested i _ v hv _ ih =>
    obtain ⟨_, _, -, -, -, hi⟩ := fits_nested.1 hfit
    have hnative : i.Native c.registry := hnative
    obtain ⟨g, hg⟩ := hi.exists_fits_of_mem hc hnative v hv
    exact ih hg (hnative.values v hv)
  | list hv _ ih =>
    obtain ⟨_, -, -, -, hitems⟩ := fits_list.1 hfit
    exact ih (hitems _ hv) (Value.everywhere_list.1 hnative _ hv)
  | key he _ ih =>
    obtain ⟨_, _, -, -, -, hentries⟩ := fits_map.1 hfit
    exact ih (hentries _ he).1 (Value.everywhere_map.1 hnative _ he).1
  | value he _ ih =>
    obtain ⟨_, _, -, -, -, hentries⟩ := fits_map.1 hfit
    exact ih (hentries _ he).2 (Value.everywhere_map.1 hnative _ he).2

/-! ## Views of what fits -/

/-- An instance that conforms has a view if its values have: a member for each field, in the order
of the fields, put behind the tag. -/
theorem Conforms.exists_members {i : Instance} {depth : Nat} (h : c.Conforms i depth)
    (hi : i.Native c.registry) (hviews : ∀ v ∈ i.values, ∃ j, v.toJson c.registry = .ok j) :
    ∃ d ms, c.registry.lookupInstance i = .ok d ∧
      Json.Members (fun _ v j => v.toJson c.registry = .ok j) d.fields i.values ms ∧
      i.values.length = d.fields.length ∧
      i.toJson c.registry = .ok (.object (Json.putMembers [(Json.typeName, .text d.tag)] ms)) := by
  obtain ⟨-, d, hd, -, hfit⟩ := conforms_iff.1 h
  have hlength := (storeAll_values hc hd hi hfit).1
  have hfields : FieldsFit (fun _ v => ∃ j, v.toJson c.registry = .ok j) d.fields i.values :=
    fieldsFit_iff.2 ⟨(fieldsFit_iff.1 hfit).1, fun k _ v _ hv => hviews v (List.mem_of_getElem? hv)⟩
  obtain ⟨ms, hms⟩ := Json.exists_members hfields
  exact ⟨d, ms, hd, hms, hlength, (Instance.toJson_eq_ok_iff_put _ hd).2 ⟨ms, hms, rfl⟩⟩

/-- A native value that fits has a view, by induction over the values of instances. -/
theorem Fits.exists_toJson {v : Value} {f : Field} {depth : Nat} (hfit : c.Fits f v depth)
    (hnative : v.Native c.registry) : ∃ j, v.toJson c.registry = .ok j := by
  induction v using Value.valuesInduction generalizing f depth with
  | null | scalar _ | string _ | bytes _ | enum _ => exact ⟨_, by rw [Value.toJson]⟩
  | list items ih =>
    obtain ⟨_, -, -, -, hitems⟩ := fits_list.1 hfit
    have hnative := Value.everywhere_list.1 hnative
    obtain ⟨js, hjs⟩ := exists_forall₂ fun v hv => ih v hv (hitems v hv) (hnative v hv)
    exact ⟨.array js, by rw [Value.toJson, (Value.itemsToJson_eq_ok_iff _).2 hjs]; rfl⟩
  | map entries ih =>
    obtain ⟨_, _, -, -, -, hentries⟩ := fits_map.1 hfit
    have hnative := Value.everywhere_map.1 hnative
    have hpair : ∀ e ∈ entries, ∃ j : Json, ∃ key value, e.1.toJson c.registry = .ok key ∧
        e.2.toJson c.registry = .ok value ∧ j = .array [key, value] := by
      intro e he
      obtain ⟨key, hkey⟩ := (ih e he).1 (hentries e he).1 (hnative e he).1
      obtain ⟨value, hvalue⟩ := (ih e he).2 (hentries e he).2 (hnative e he).2
      exact ⟨_, key, value, hkey, hvalue, rfl⟩
    obtain ⟨js, hjs⟩ := exists_forall₂ hpair
    exact ⟨.array js, by rw [Value.toJson, (Value.entriesToJson_eq_ok_iff _).2 hjs]; rfl⟩
  | nested i ih =>
    obtain ⟨_, _, -, -, -, hi⟩ := fits_nested.1 hfit
    have hnative : i.Native c.registry := hnative
    have hviews (v : Value) (hv : v ∈ i.values) : ∃ j, v.toJson c.registry = .ok j := by
      obtain ⟨_, hg⟩ := hi.exists_fits_of_mem hc hnative v hv
      exact ih v hv hg (hnative.values v hv)
    obtain ⟨_, _, -, -, -, hview⟩ := hi.exists_members hc hnative hviews
    exact ⟨_, by rw [Value.toJson, hview]⟩

end Codec

/-! ## Decoded instances -/

namespace Registry

open Json (typeName putMembers)

/-- Every instance that is nested in a decoded one, itself among them, conforms and is native. -/
theorem conforms_of_decode {r : Registry} (hr : r.Native) {l : Limits} {bytes : List UInt8}
    {i j : Instance} (h : (Codec.mk r l).decode bytes = .ok i) (hj : (Value.nested i).Holds j) :
    (∃ depth, (Codec.mk r l).capped.Conforms j depth) ∧ j.Native r := by
  rw [← Codec.decode_capped] at h
  obtain ⟨raw, hnative, hraw, rfl, -⟩ := (Codec.decode_iff hr (Codec.maxLength_capped_le _)).1 h
  have hi : (Codec.mk r l).capped.Conforms (raw.received r) 1 := hraw.received
  obtain ⟨f, hf⟩ := hi.exists_fits
  exact hf.conforms_of_holds hr hj hnative.received

/-- Over types that have been built, of records and of localization, every instance that is decoded
has a view, and so has every instance nested in it. The view has a member for each field, named as
the field and holding the view of its value, in the order of the fields. If no field has the name
under which the tag stands, the tag stands in front of them; if a field has, its member stands in
front of the others instead of the tag. -/
theorem toJson_of_decode {r : Registry} (hr : r.Native) (hbuilt : r.Built) {l : Limits}
    {bytes : List UInt8} {i j : Instance} (h : (Codec.mk r l).decode bytes = .ok i)
    (hj : (Value.nested i).Holds j) :
    ∃ d ms, r.lookupInstance j = .ok d ∧ ms.map Prod.fst = d.fields.map Field.name ∧
      List.Forall₂ (fun v m => v.toJson r = .ok m.2) j.values ms ∧
      ((∀ f ∈ d.fields, f.name ≠ typeName) →
        j.toJson r = .ok (.object ((typeName, .text d.tag) :: ms))) ∧
      ∀ before m after, ms = before ++ m :: after → m.1 = typeName →
        j.toJson r = .ok (.object (m :: (before ++ after))) := by
  obtain ⟨⟨depth, hconforms⟩, hnative⟩ := conforms_of_decode hr h hj
  obtain ⟨d, ms, hd, hms, hlength, hview⟩ := hconforms.exists_members hr hnative fun v hv =>
    have ⟨_, hf⟩ := hconforms.exists_fits_of_mem hr hnative v hv
    hf.exists_toJson hr (hnative.values v hv)
  have hview : j.toJson r = .ok (.object (putMembers [(typeName, .text d.tag)] ms)) := hview
  obtain ⟨draft, hdraft⟩ := hbuilt d (mem_of_get? (hr.get?_of_lookupInstance hd)).1
  have hnodup : (ms.map Prod.fst).Nodup := hms.names ▸ Draft.nodup_of_build hdraft
  refine ⟨d, ms, hd, hms.names, hms.forall₂ hlength, ?_, ?_⟩
  · intro htype
    have hother : typeName ∉ ms.map Prod.fst := by
      rw [hms.names, List.mem_map]
      rintro ⟨f, hf, hname⟩
      exact htype f hf hname
    have hput : putMembers [(typeName, .text d.tag)] ms = (typeName, .text d.tag) :: ms :=
      Json.putMembers_of_nodup (List.nodup_cons.2 ⟨hother, hnodup⟩)
    rw [hview, hput]
  · intro before m after hsplit hname
    subst hsplit
    rw [hview, Json.putMembers_of_split hname hnodup]

/-- The user of the request in a folder is viewed with its tag in front. -/
theorem toJson_of_decode_folderOf : ∃ bytes i,
    (Codec.mk Codec.folderRegistry {}).decode bytes = .ok i ∧
      (Value.nested i).Holds (.entity (.user {})) ∧ ∃ ms,
        (Instance.entity (.user {})).toJson Codec.folderRegistry =
          .ok (.object ((typeName, .text "User") :: ms)) ∧ ms.map Prod.fst = ["userId"] := by
  have hnative : (Codec.folderOf "a").Native Codec.folderRegistry :=
    ⟨⟨Codec.folder, rfl, rfl, rfl⟩, ⟨trivial, trivial⟩, trivial, trivial⟩
  have hencode : (Codec.mk Codec.folderRegistry {}).encode (Codec.folderOf "a") = .ok _ := rfl
  have hdecode := (Codec.decode_iff Codec.native_folderRegistry (by decide)).2
    ⟨_, hnative, ((Codec.encode_eq_ok _).1 hencode).1, rfl, rfl⟩
  have hrequest : (Value.nested (.entity (.streamRequest { fileName := some "a" }))).Holds
      (.entity (.user {})) :=
    .nested (v := .nested (.entity (.user {}))) (.tail _ (.tail _ (.tail _ (.head _)))) (.here _)
  have hholds : (Value.nested ((Codec.folderOf "a").received Codec.folderRegistry)).Holds
      (.entity (.user {})) :=
    .nested (.head _) (.list (.head _) hrequest)
  obtain ⟨d, ms, hd, hnames, -, htag, -⟩ :=
    toJson_of_decode Codec.native_folderRegistry Codec.built_folderRegistry hdecode hholds
  cases hd
  exact ⟨_, _, hdecode, hholds, ms, htag (by decide), hnames⟩

/-- A field may have the name under which the tag stands. Then the view of an instance that is
decoded has no tag in front. -/
theorem toJson_without_tag : ∃ (draft : Draft) (d : Descriptor) (r : Registry) (i : Instance),
    draft.withRecords.build = .ok d ∧ (∅ : Registry).register d = .ok r ∧
      (Codec.mk r {}).decode [1, 0, 0, 0, 0x54, 7, 0, 0, 0] = .ok i ∧
      ∀ ms, i.toJson r ≠ .ok (.object ((typeName, .text d.tag) :: ms)) := by
  refine ⟨{ tag := "T", fields := [⟨"$type", .scalar .i32, false⟩] }, _, _, _, rfl, rfl, rfl, ?_⟩
  intro ms h
  obtain ⟨ms', hms, hobject⟩ := (Instance.toJson_eq_ok_iff_put _ rfl).1 h
  cases hms with
  | cons hv hrest =>
    cases hrest
    rw [Value.toJson] at hv
    cases hv
    cases hobject

end Registry

end TagWire
