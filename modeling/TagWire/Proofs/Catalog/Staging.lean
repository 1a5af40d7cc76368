import TagWire.Proofs.Catalog.Declaration

/-!
# Types of a catalog in a row

Entries of a catalog are staged: each is registered in what the entries before it have led to, which
is the registry that was there with the declared types behind (`Catalog.declares_of_stage`). Nothing
can go wrong in it that has not been wrong before (`Catalog.sound_and_rooted_of_stage`). The names
of the fields of a further type can be told from the entries alone, as parents have to be declared
before (`Catalog.fieldNames_iff`).
-/

namespace TagWire

/-- Whether a type that is declared behind others, in a catalog for a registry, has fields of the
given names: those that it inherits, from a registered type or from one declared before, and then
its own. -/
inductive TypeEntry.FieldNames (r : Registry) :
    List TypeEntry → TypeEntry → List String → Prop
  | alone {before : List TypeEntry} {t : TypeEntry} : t.extends? = none →
      FieldNames r before t (t.fields.map FieldEntry.name)
  | registered {before : List TypeEntry} {t : TypeEntry} {parentTag : String}
      {parent : Descriptor} : t.extends? = some parentTag → r.get? parentTag = some parent →
      FieldNames r before t (parent.fields.map Field.name ++ t.fields.map FieldEntry.name)
  | declared {before after : List TypeEntry} {parent t : TypeEntry} {names : List String} :
      t.extends? = some parent.tag → FieldNames r before parent names →
      FieldNames r (before ++ parent :: after) t (names ++ t.fields.map FieldEntry.name)

/-- The names of the fields of a type do not depend on what is declared behind it. -/
theorem TypeEntry.FieldNames.concat {r : Registry} {before : List TypeEntry} {t u : TypeEntry}
    {names : List String} (h : t.FieldNames r before names) :
    t.FieldNames r (before ++ [u]) names := by
  cases h with
  | alone hextends => exact .alone hextends
  | registered hextends hget => exact .registered hextends hget
  | declared hextends hparent =>
    rw [List.append_assoc]
    exact .declared hextends hparent

namespace Catalog

variable {r s : Registry} {types : List TypeEntry} {t : TypeEntry} {d : Descriptor}

/-! ## One after the other -/

/-- Types are registered if the first of them is, and then the others. -/
theorem stage_cons_eq_ok : stage r (t :: types) = (s, .ok ()) ↔
    ∃ s₀, t.register r = .ok s₀ ∧ stage s₀ types = (s, .ok ()) := by
  rw [stage]
  cases t.register r <;> simp

/-- Types are registered if some of them are, and then the others. -/
theorem stage_append_eq_ok {before after : List TypeEntry} :
    stage r (before ++ after) = (s, .ok ()) ↔
      ∃ s₀, stage r before = (s₀, .ok ()) ∧ stage s₀ after = (s, .ok ()) := by
  induction before generalizing r with
  | nil => simp [stage]
  | cons t before ih =>
    rw [List.cons_append, stage, stage]
    cases t.register r with
    | ok r' => exact ih
    | error e => simp

/-- One type more is registered if those before it are, and then it is. -/
theorem stage_concat_eq_ok : stage r (types ++ [t]) = (s, .ok ()) ↔
    ∃ s₀, stage r types = (s₀, .ok ()) ∧ t.register s₀ = .ok s := by
  rw [stage_append_eq_ok]
  refine exists_congr fun s₀ => and_congr_right fun _ => ?_
  rw [stage_cons_eq_ok]
  simp [stage]

/-- The type that is refused is the first that the registry does not take. -/
theorem of_stage_eq_error {e : CatalogError} (h : stage r types = (s, .error e)) :
    ∃ before t after, types = before ++ t :: after ∧ stage r before = (s, .ok ()) ∧
      t.register s = .error e := by
  induction types generalizing r with
  | nil => cases h
  | cons t types ih =>
    rw [stage] at h
    cases ht : t.register r with
    | ok r' =>
      rw [ht] at h
      obtain ⟨before, u, after, rfl, hbefore, hu⟩ := ih h
      refine ⟨t :: before, u, after, rfl, ?_, hu⟩
      rw [stage, ht]
      exact hbefore
    | error e' =>
      rw [ht] at h
      cases h
      exact ⟨[], t, types, rfl, rfl, ht⟩

/-! ## What they lead to -/

/-- What is registered in a row is put behind what is there, each type as it is declared. -/
theorem declares_of_stage (h : stage r types = (s, .ok ())) : ∃ new, s.types = r.types ++ new ∧
    List.Forall₂ (fun t d => t.Declares s d) types new := by
  induction types using List.reverseRecOn generalizing s with
  | nil =>
    cases h
    exact ⟨[], (List.append_nil _).symm, .nil⟩
  | append_singleton types t ih =>
    obtain ⟨s₀, htypes, ht⟩ := stage_concat_eq_ok.1 h
    obtain ⟨new, hnew, hdeclares⟩ := ih htypes
    obtain ⟨d, hd, -, hreg⟩ := TypeEntry.register_eq_ok_iff.1 ht
    obtain ⟨hs, -⟩ := Registry.types_of_register hreg
    have hgrown : s₀.types <+: s.types := hs ▸ List.prefix_append ..
    refine ⟨new ++ [d], by rw [hs, hnew, List.append_assoc], ?_⟩
    exact List.rel_append (hdeclares.imp fun _ _ => (·.of_grown hgrown))
      (.cons (hd.of_grown hgrown) .nil)

/-- What is registered in a row is registered behind what is there. -/
theorem types_prefix_of_stage (h : stage r types = (s, .ok ())) : r.types <+: s.types := by
  obtain ⟨new, hnew, -⟩ := declares_of_stage h
  exact ⟨new, hnew.symm⟩

/-- Tags are put behind those that are there as they are declared. -/
theorem tags_of_stage (h : stage r types = (s, .ok ())) :
    s.tags = r.tags ++ types.map TypeEntry.tag := by
  obtain ⟨new, hnew, hdeclares⟩ := declares_of_stage h
  have htags := List.Forall₂.map_eq hdeclares fun _ _ hd => hd.tag_eq
  rw [Registry.tags, hnew, List.map_append, htags]
  rfl

/-- Types in a row keep a registry sound and rooted. -/
theorem sound_and_rooted_of_stage (hsound : r.Sound) (hrooted : r.Rooted)
    (h : stage r types = (s, .ok ())) : s.Sound ∧ s.Rooted := by
  induction types using List.reverseRecOn generalizing s with
  | nil =>
    cases h
    exact ⟨hsound, hrooted⟩
  | append_singleton types t ih =>
    obtain ⟨s₀, htypes, ht⟩ := stage_concat_eq_ok.1 h
    obtain ⟨hsound, hrooted⟩ := ih htypes
    obtain ⟨d, hd, -, hreg⟩ := TypeEntry.register_eq_ok_iff.1 ht
    refine ⟨hsound.register hreg, hrooted.register hreg fun tag htag => ?_⟩
    rw [hd.parent?_eq] at htag
    exact (TypeEntry.exists_declares_iff.1 ⟨d, hd⟩).1 tag htag

/-- A field of a type that is registered in a row comes from one that was there, or is spelled by an
entry. -/
theorem mem_fields_of_stage (h : stage r types = (s, .ok ())) (hd : d ∈ s.types) {g : Field}
    (hg : g ∈ d.fields) : (∃ e ∈ r.types, g ∈ e.fields) ∨
      ∃ t ∈ types, ∃ f ∈ t.fields, f.resolve t.tag = .ok g := by
  induction types using List.reverseRecOn generalizing s d with
  | nil =>
    cases h
    exact .inl ⟨d, hd, hg⟩
  | append_singleton types t ih =>
    obtain ⟨s₀, htypes, ht⟩ := stage_concat_eq_ok.1 h
    have hold {e : Descriptor} (he : e ∈ s₀.types) (hg : g ∈ e.fields) :
        (∃ e ∈ r.types, g ∈ e.fields) ∨
          ∃ u ∈ types ++ [t], ∃ f ∈ u.fields, f.resolve u.tag = .ok g := by
      refine (ih htypes he hg).imp_right fun hown => ?_
      obtain ⟨u, hu, hf⟩ := hown
      exact ⟨u, List.mem_append_left _ hu, hf⟩
    obtain ⟨e, he, -, hreg⟩ := TypeEntry.register_eq_ok_iff.1 ht
    rw [(Registry.types_of_register hreg).1, List.mem_append, List.mem_singleton] at hd
    rcases hd with hd | rfl
    · exact hold hd hg
    · obtain ⟨inherited, own, hinherited, hown, hfields⟩ := he.fields_eq
      rw [hfields, List.mem_append] at hg
      rcases hg with hg | hg
      · rcases TypeEntry.inherited?_eq_some_iff.1 hinherited with
          ⟨-, rfl⟩ | ⟨parentTag, parent, -, hget, rfl⟩
        · cases hg
        · exact hold (Registry.mem_of_get? hget).1 hg
      · obtain ⟨f, hf, hresolve⟩ := List.Forall₂.exists_of_mem_right hown hg
        exact .inr ⟨t, List.mem_concat_self, f, hf, hresolve⟩

/-! ## Names of fields -/

/-- A type that is declared behind types in a row has the fields of the given names exactly if these
are the names of its fields. -/
theorem fieldNames_iff (h : stage r types = (s, .ok ())) (hd : t.Declares s d)
    {names : List String} :
    t.FieldNames r types names ↔ names = d.fields.map Field.name := by
  refine ⟨fun hnames => ?_, ?_⟩
  · induction hnames generalizing s d with
    | alone hextends =>
      rcases hd.names_eq with ⟨-, hnames⟩ | ⟨_, _, hextends', -⟩
      · exact hnames.symm
      · rw [hextends] at hextends'
        cases hextends'
    | registered hextends hget =>
      rw [hd.names_of_parent hextends (Registry.get?_of_grown (types_prefix_of_stage h) hget)]
    | declared hextends hparent ih =>
      -- The parent is found under its tag ever since it has been registered.
      obtain ⟨s₀, hbefore, hrest⟩ := stage_append_eq_ok.1 h
      obtain ⟨s₁, hu, hafter⟩ := stage_cons_eq_ok.1 hrest
      obtain ⟨e, he, -, hreg⟩ := TypeEntry.register_eq_ok_iff.1 hu
      have hget : s₁.get? e.tag = some e := by rw [Registry.get?_of_register hreg, if_pos rfl]
      rw [he.tag_eq] at hget
      rw [ih hbefore he, hd.names_of_parent hextends
        (Registry.get?_of_grown (types_prefix_of_stage hafter) hget)]
  · rintro rfl
    induction types using List.reverseRecOn generalizing s t d with
    | nil =>
      cases h
      rcases hd.names_eq with ⟨hextends, hnames⟩ | ⟨_, _, hextends, hget, hnames⟩
      · rw [hnames]
        exact .alone hextends
      · rw [hnames]
        exact .registered hextends hget
    | append_singleton types u ih =>
      obtain ⟨s₀, htypes, hu⟩ := stage_concat_eq_ok.1 h
      obtain ⟨e, he, -, hreg⟩ := TypeEntry.register_eq_ok_iff.1 hu
      rcases hd.names_eq with ⟨hextends, hnames⟩ | ⟨parentTag, parent, hextends, hget, hnames⟩
      · rw [hnames]
        exact .alone hextends
      · have hparent := hget
        rw [Registry.get?_of_register hreg] at hparent
        split at hparent
        next htag =>
          cases hparent
          rw [hnames]
          exact .declared (by rw [hextends, htag, he.tag_eq]) (ih htypes he)
        next =>
          refine (ih htypes (hd.of_parent fun parentTag' parent' hextends' hget' => ?_)).concat
          rw [hextends] at hextends'
          cases hextends'
          rw [hparent, ← hget, hget']

end Catalog

end TagWire
