import TagWire.Proofs.Catalog.Staging

/-!
# Well-formed catalogs

A catalog is `Catalog.WellFormed` for a registry if each of its types is `TypeEntry.Declarable`
behind those before it, and what their fields refer to is there in the end. The first of these is
what it takes to stage all types (`Catalog.exists_stage_iff`), the second what validation asks of
the result (`Catalog.validate_of_stage`). So a catalog is registered exactly if it is well-formed,
and otherwise refused for something that is wrong with it (`Catalog.registerInto_all_or_nothing`).
-/

namespace TagWire

open TagWire.Localization (EntityType)

/-- Whether a type can be declared behind others in a catalog for a registry. -/
structure TypeEntry.Declarable (r : Registry) (before : List TypeEntry) (t : TypeEntry) : Prop where
  tag_ne_empty : t.tag ≠ ""
  tag_not_registered : t.tag ∉ r.tags
  tag_not_declared : t.tag ∉ before.map TypeEntry.tag
  /-- The parent is registered or declared before. -/
  parent_known : ∀ parentTag, t.extends? = some parentTag →
    parentTag ∈ r.tags ∨ parentTag ∈ before.map TypeEntry.tag
  /-- Every field has a type. -/
  resolvable : ∀ f ∈ t.fields, f.type.Resolvable
  /-- The names of the fields, inherited ones included, are not empty and distinct. -/
  names_in_order : ∃ names, t.FieldNames r before names ∧ "" ∉ names ∧ names.Nodup

/-- The errors that the types of a catalog are never at fault for: a catalog that cannot be read,
parents that do not go with their types or do not end, and fresh instances that are not of the type.
-/
inductive CatalogError.Misplaced : CatalogError → Prop
  | unreadable (path : String) (fault : FileFault) : Misplaced (.unreadable path fault)
  | document (fault : DocumentFault) : Misplaced (.document fault)
  | incompatibleParent (tag parent : String) :
      Misplaced (.registry (.incompatibleParent tag parent))
  | inheritanceCycle (tag : String) :
      Misplaced (.registry (.invalidDescriptor tag .inheritanceCycle))
  | conflictingBinding (tag existing : String) (type : EntityType) :
      Misplaced (.registry (.conflictingBinding tag existing type))
  | foreignRecords (tag other : String) :
      Misplaced (.registry (.invalidDescriptor tag (.foreignRecords other)))
  | noPrototype (tag : String) : Misplaced (.registry (.invalidDescriptor tag .noPrototype))

/-- What holds of every element of a list and of those before it holds of one element more and all
those before. -/
theorem List.forall_split_concat {α : Type} {P : List α → α → Prop} {as : List α} {a : α} :
    (∀ before b after, as ++ [a] = before ++ b :: after → P before b) ↔
      (∀ before b after, as = before ++ b :: after → P before b) ∧ P as a := by
  refine ⟨fun h => ⟨fun before b after has => ?_, h as a [] rfl⟩, fun h => ?_⟩
  · exact h before b (after ++ [a]) (by rw [has, List.append_assoc, List.cons_append])
  · intro before b after has
    rcases List.eq_nil_or_concat after with rfl | ⟨after', x, rfl⟩
    · obtain ⟨rfl, hb⟩ := List.append_inj' has rfl
      cases hb
      exact h.2
    · rw [List.concat_eq_append, ← List.cons_append, ← List.append_assoc] at has
      obtain ⟨has, -⟩ := List.append_inj' has rfl
      exact h.1 before b after' has

namespace Catalog

/-- Whether a catalog goes with a registry: each type can be declared behind those before it, so
that no two have the same tag, and every tag that a field refers to is registered or declared
anywhere. -/
structure WellFormed (c : Catalog) (r : Registry) : Prop where
  declarable : ∀ before t after, c.types = before ++ t :: after → t.Declarable r before
  mentioned_known : ∀ t ∈ c.types, ∀ f ∈ t.fields, ∀ g, f.resolve t.tag = .ok g →
    ∀ tag, g.kind.Mentions tag → tag ∈ r.tags ∨ tag ∈ c.tags

variable {r s : Registry} {c : Catalog} {types : List TypeEntry} {t : TypeEntry}

/-! ## Which types can be declared -/

/-- The tags that are registered are those that are listed. -/
theorem contains_iff_mem_tags {tag : String} : r.contains tag = true ↔ tag ∈ r.tags := by
  rw [Registry.contains_iff, Registry.tags, List.mem_map]

/-- Behind types in a row, the tags that were there and theirs are registered. -/
theorem contains_of_stage (h : stage r types = (s, .ok ())) {tag : String} :
    s.contains tag = true ↔ tag ∈ r.tags ∨ tag ∈ types.map TypeEntry.tag := by
  rw [contains_iff_mem_tags, tags_of_stage h, List.mem_append]

/-- Behind types in a row, no other tags are registered than those that were there and theirs. -/
theorem not_contains_of_stage (h : stage r types = (s, .ok ())) {tag : String} :
    s.contains tag = false ↔ tag ∉ r.tags ∧ tag ∉ types.map TypeEntry.tag := by
  rw [← Bool.not_eq_true, contains_of_stage h, not_or]

/-- Behind types in a row, a type is registered exactly if it can be declared behind them. -/
theorem exists_register_iff (h : stage r types = (s, .ok ())) :
    (∃ s', t.register s = .ok s') ↔ t.Declarable r types := by
  refine ⟨fun hregister => ?_, fun hdeclarable => ?_⟩
  · obtain ⟨s', ht⟩ := hregister
    obtain ⟨d, hd, horder, hreg⟩ := TypeEntry.register_eq_ok_iff.1 ht
    obtain ⟨hparent, hresolvable⟩ := TypeEntry.exists_declares_iff.1 ⟨d, hd⟩
    have hnew := (Registry.types_of_register hreg).2
    rw [hd.tag_eq, not_contains_of_stage h] at hnew
    refine ⟨?_, hnew.1, hnew.2, ?_, hresolvable, ?_⟩
    · rw [← hd.tag_eq]
      exact horder.tag_ne_empty
    · exact fun parentTag hextends => (contains_of_stage h).1 (hparent parentTag hextends)
    · exact ⟨_, (fieldNames_iff h hd).2 rfl, horder.name_ne_empty, horder.nodup_names⟩
  · have hparent : ∀ parentTag, t.extends? = some parentTag → s.contains parentTag = true :=
      fun parentTag hextends => (contains_of_stage h).2 (hdeclarable.parent_known _ hextends)
    obtain ⟨d, hd⟩ := TypeEntry.exists_declares_iff.2 ⟨hparent, hdeclarable.resolvable⟩
    have hnew : s.contains t.tag ≠ true := Bool.eq_false_iff.1 <|
      (not_contains_of_stage h).2 ⟨hdeclarable.tag_not_registered, hdeclarable.tag_not_declared⟩
    obtain ⟨names, hnames, hempty, hnodup⟩ := hdeclarable.names_in_order
    obtain rfl := (fieldNames_iff h hd).1 hnames
    have horder : d.draft.InOrder := by
      refine ⟨?_, ?_, hempty, hnodup⟩
      · show d.tag ≠ ""
        rw [hd.tag_eq]
        exact hdeclarable.tag_ne_empty
      · show d.parent? ≠ some d.tag
        rw [hd.parent?_eq, hd.tag_eq]
        exact fun hextends => hnew (hparent t.tag hextends)
    have hreg := hd.register_eq
    rw [if_neg hnew] at hreg
    exact ⟨_, TypeEntry.register_eq_ok_iff.2 ⟨d, hd, horder, hreg⟩⟩

/-- Types are registered in a row exactly if each can be declared behind those before it. -/
theorem exists_stage_iff : (∃ s, stage r types = (s, .ok ())) ↔
    ∀ before t after, types = before ++ t :: after → t.Declarable r before := by
  induction types using List.reverseRecOn with
  | nil =>
    refine ⟨fun _ before t after h => ?_, fun _ => ⟨r, rfl⟩⟩
    cases before <;> cases h
  | append_singleton types t ih =>
    rw [List.forall_split_concat, ← ih]
    refine ⟨fun h => ?_, fun h => ?_⟩
    · obtain ⟨s, h⟩ := h
      obtain ⟨s₀, htypes, ht⟩ := stage_concat_eq_ok.1 h
      exact ⟨⟨s₀, htypes⟩, (exists_register_iff htypes).1 ⟨s, ht⟩⟩
    · obtain ⟨⟨s₀, htypes⟩, hdeclarable⟩ := h
      obtain ⟨s, ht⟩ := (exists_register_iff htypes).2 hdeclarable
      exact ⟨s, stage_concat_eq_ok.2 ⟨s₀, htypes, ht⟩⟩

/-! ## Registration -/

/-- What a catalog may be refused for, and the error that reports it: a type that its registry, with
the types declared before, does not take, or a tag that is neither registered nor declared. -/
inductive Refused (c : Catalog) (r : Registry) : CatalogError → Prop
  | entry {before after : List TypeEntry} {t : TypeEntry} {s : Registry} {e : CatalogError} :
      c.types = before ++ t :: after → stage r before = (s, .ok ()) → t.Refused s e → Refused c r e
  | unresolvedReference {t : TypeEntry} {s : Registry} {d : Descriptor} {g : Field} {tag : String} :
      t ∈ c.types → stage r c.types = (s, .ok ()) → t.Declares s d → g ∈ d.fields →
      g.kind.Mentions tag → tag ∉ r.tags → tag ∉ c.tags →
      Refused c r (.registry (.unresolvedReference t.tag g.name tag))

/-- A registry is extended by the types of a catalog, which are refused one by one or as a whole. -/
theorem extend_eq (c : Catalog) (r : Registry) : c.extend r =
    match stage r c.types with
    | (s, .ok ()) =>
      match s.validate with
      | .ok () => .ok s
      | .error cause => .error (.registry cause)
    | (_, .error e) => .error e := by
  unfold extend
  rcases stage r c.types with ⟨s, e | ⟨⟩⟩
  · rfl
  · dsimp only
    rcases s.validate with cause | ⟨⟩ <;> rfl

/-- A catalog extends a registry if all of its types are registered and the result is valid. -/
theorem extend_eq_ok_iff : c.extend r = .ok s ↔
    stage r c.types = (s, .ok ()) ∧ s.validate = .ok () := by
  rw [extend_eq]
  refine ⟨fun h => ?_, fun h => ?_⟩
  · split at h
    next s₀ hstage =>
      split at h
      next hvalid =>
        cases h
        exact ⟨hstage, hvalid⟩
      next => cases h
    next => cases h
  · rw [h.1]
    dsimp only
    rw [h.2]

/-- What a catalog is refused for is what one of its types is refused for, or what is wrong with the
result. -/
theorem of_extend_eq_error {e : CatalogError} (h : c.extend r = .error e) :
    (∃ s, stage r c.types = (s, .error e)) ∨ ∃ s cause, stage r c.types = (s, .ok ()) ∧
      s.validate = .error cause ∧ e = .registry cause := by
  rw [extend_eq] at h
  split at h
  next s hstage =>
    split at h
    next => cases h
    next cause hcause =>
      cases h
      exact .inr ⟨s, cause, hstage, hcause, rfl⟩
  next s _ hstage =>
    cases h
    exact .inl ⟨s, hstage⟩

/-- Behind the types of a catalog, a registry that was valid is valid exactly if what the fields of
these types refer to is registered or declared. -/
theorem validate_of_stage (hsound : r.Sound) (hvalid : r.validate = .ok ())
    (h : stage r c.types = (s, .ok ())) : s.validate = .ok () ↔
      ∀ t ∈ c.types, ∀ f ∈ t.fields, ∀ g, f.resolve t.tag = .ok g →
        ∀ tag, g.kind.Mentions tag → tag ∈ r.tags ∨ tag ∈ c.tags := by
  have hrooted := hsound.rooted_of_validate hvalid
  obtain ⟨hsound', hrooted'⟩ := sound_and_rooted_of_stage hsound hrooted h
  rw [hrooted'.validate_eq_ok_iff hsound']
  refine ⟨fun hall t ht f hf g hresolve tag hmention => ?_, fun hall d hd g hg tag hmention => ?_⟩
  · -- The field is one of the type that is declared.
    obtain ⟨new, hnew, hdeclares⟩ := declares_of_stage h
    obtain ⟨d, hd, hdeclares⟩ := List.Forall₂.exists_of_mem_left hdeclares ht
    obtain ⟨inherited, own, -, hown, hfields⟩ := hdeclares.fields_eq
    obtain ⟨g', hg', hresolve'⟩ := List.Forall₂.exists_of_mem_left hown hf
    rw [hresolve] at hresolve'
    cases hresolve'
    refine (contains_of_stage h).1 (hall d ?_ g ?_ tag hmention)
    · rw [hnew]
      exact List.mem_append_right _ hd
    · rw [hfields]
      exact List.mem_append_right _ hg'
  · rw [contains_of_stage h]
    rcases mem_fields_of_stage h hd hg with ⟨e, he, hg⟩ | ⟨t, ht, f, hf, hresolve⟩
    · have hcontains := (hrooted.validate_eq_ok_iff hsound).1 hvalid e he g hg tag hmention
      exact .inl (contains_iff_mem_tags.1 hcontains)
    · exact hall t ht f hf g hresolve tag hmention

/-- A registry that is valid can be extended by a catalog exactly if this is well-formed. -/
theorem exists_extend_iff (hsound : r.Sound) (hvalid : r.validate = .ok ()) :
    (∃ s, c.extend r = .ok s) ↔ c.WellFormed r := by
  refine ⟨fun h => ?_, fun h => ?_⟩
  · obtain ⟨s, h⟩ := h
    obtain ⟨hstage, hvalid'⟩ := extend_eq_ok_iff.1 h
    exact ⟨exists_stage_iff.1 ⟨s, hstage⟩, (validate_of_stage hsound hvalid hstage).1 hvalid'⟩
  · obtain ⟨s, hstage⟩ := exists_stage_iff.2 h.declarable
    have hvalid' := (validate_of_stage hsound hvalid hstage).2 h.mentioned_known
    exact ⟨s, extend_eq_ok_iff.2 ⟨hstage, hvalid'⟩⟩

/-- What is reported about a catalog is wrong with it. -/
theorem refused_of_extend (hsound : r.Sound) (hvalid : r.validate = .ok ()) {e : CatalogError}
    (h : c.extend r = .error e) : c.Refused r e := by
  rcases of_extend_eq_error h with ⟨s, hstage⟩ | ⟨s, cause, hstage, hcause, rfl⟩
  · obtain ⟨before, t, after, htypes, hbefore, ht⟩ := of_stage_eq_error hstage
    exact .entry htypes hbefore (TypeEntry.refused_of_register ht)
  · have hrooted := hsound.rooted_of_validate hvalid
    obtain ⟨hsound', hrooted'⟩ := sound_and_rooted_of_stage hsound hrooted hstage
    obtain ⟨d, hd, g, hg, tag, hmention, hnot, rfl⟩ := hrooted'.of_validate_eq_error hcause
    have hunknown := (not_contains_of_stage hstage).1 hnot
    obtain ⟨new, hnew, hdeclares⟩ := declares_of_stage hstage
    rw [hnew, List.mem_append] at hd
    rcases hd with hd | hd
    · -- A type that was there refers only to what was there.
      have hcontains := (hrooted.validate_eq_ok_iff hsound).1 hvalid d hd g hg tag hmention
      exact absurd (contains_iff_mem_tags.1 hcontains) hunknown.1
    · obtain ⟨t, ht, hdt⟩ := List.Forall₂.exists_of_mem_right hdeclares hd
      rw [hdt.tag_eq]
      exact .unresolvedReference ht hstage hdt hg hmention hunknown.1 hunknown.2

/-- No catalog is refused for what its types cannot be at fault for. -/
theorem Refused.not_misplaced {e : CatalogError} (h : c.Refused r e) : ¬e.Misplaced := by
  intro hmisplaced
  cases h with
  | entry _ _ ht =>
    cases ht with
    | invalidDescriptor _ hdefect => cases hmisplaced <;> cases hdefect
    | _ => cases hmisplaced
  | unresolvedReference => cases hmisplaced

/-- In a valid registry that a program has come to, a catalog is registered as a whole or not at
all, and it is exactly if it is well-formed. Then its types are behind those that were there, in
order and as they are declared, and the registry is valid again. Otherwise the registry is as it
was, and the error reports something that is wrong with the catalog: never an incompatible parent,
for one. -/
theorem registerInto_all_or_nothing {tables : Registry.Tables} (h : r.Reachable tables)
    (hvalid : r.validate = .ok ()) (c : Catalog) :
    ((c.registerInto r).2 = .ok () ↔ c.WellFormed r) ∧
    (∀ s, c.registerInto r = (s, .ok ()) →
      (∃ new, s.types = r.types ++ new ∧
        List.Forall₂ (fun t d => t.Declares s d) c.types new) ∧
      s.tags = r.tags ++ c.tags ∧ (∀ tag d, r.get? tag = some d → s.get? tag = some d) ∧
      s.validate = .ok ()) ∧
    ∀ s e, c.registerInto r = (s, .error e) → s = r ∧ c.Refused r e ∧ ¬e.Misplaced := by
  have hsound := h.sound.1
  refine ⟨?_, ?_, ?_⟩
  · rw [← exists_extend_iff hsound hvalid, registerInto]
    cases c.extend r <;> simp
  · intro s hs
    have hextend : c.extend r = .ok s := by
      unfold registerInto at hs
      split at hs
      next hextend =>
        cases hs
        exact hextend
      next => cases hs
    obtain ⟨hstage, hvalid'⟩ := extend_eq_ok_iff.1 hextend
    exact ⟨declares_of_stage hstage, tags_of_stage hstage,
      fun _ _ => Registry.get?_of_grown (types_prefix_of_stage hstage), hvalid'⟩
  · intro s e hs
    unfold registerInto at hs
    split at hs
    next => cases hs
    next hextend =>
      cases hs
      have hrefused := refused_of_extend hsound hvalid hextend
      exact ⟨rfl, hrefused, hrefused.not_misplaced⟩

/-- A parent that is declared behind its type is not known, though a field could refer to it. -/
example : registerInto { types := [⟨"Page", some "Node", []⟩, ⟨"Node", none, []⟩] } ∅ =
    (∅, .error (.registry (.unknownParent "Page" "Node"))) := rfl

/-- A catalog of folders that hold nodes, and of the pages on their covers, which are declared
behind them. -/
def folders : Catalog where
  types := [
    ⟨"Node", some "User", [⟨"title", .name "string?", false⟩]⟩,
    ⟨"Folder", some "Node", [
      ⟨"items", .composite (some (.name " Node ")) none none none, false⟩,
      ⟨"cover", .composite none none none (some "Page"), true⟩]⟩,
    ⟨"Page", none, [⟨"side", .composite none none (some ["left", "right"]) none, false⟩]⟩]

/-- Folders are registered where users are. -/
theorem registerInto_all_or_nothing_folders : ∃ (r : Registry) (s : Registry),
    r.tags = ["User"] ∧ r.validate = .ok () ∧ folders.registerInto r = (s, .ok ()) ∧
      folders.WellFormed r ∧ s.tags = ["User", "Node", "Folder", "Page"] ∧
      s.validate = .ok () := by
  have hreach := Registry.Reachable.empty.call EntityType.user.descriptor
  obtain ⟨hiff, hok, -⟩ := registerInto_all_or_nothing hreach rfl folders
  have hresult : (folders.registerInto (Registry.registerAll ∅ [EntityType.user.descriptor]).1).2 =
      .ok () := rfl
  obtain ⟨-, htags, -, hvalid⟩ := hok _ (Prod.ext rfl hresult)
  exact ⟨_, _, rfl, rfl, Prod.ext rfl hresult, hiff.1 hresult, htags, hvalid⟩

end Catalog

end TagWire
