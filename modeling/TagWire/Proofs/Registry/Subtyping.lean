import Mathlib.Order.Defs.Unbundled
import TagWire.Proofs.Registry.Validity

/-!
# Subtyping

Assignability is the inheritance closure of any registry. It can also be found by following parents
until a tag comes again (`Registry.search`), however long the way is and even if it goes round in a
circle: only registered tags have parents, so the way is longer than the list of types by one at
most (`Registry.Visited.search_eq`). In a valid registry it orders the registered tags, and a type
has the fields of every type that it may stand for in front of its own
(`Registry.isAssignable_isPartialOrder`).
-/

namespace TagWire.Registry

variable {r : Registry} {tag target : String}

/-! ## The search -/

/-- Whether a target is met on the way along the parents of a tag, which ends where a tag comes that
has been visited. It is `none` if there is no answer after so many tags. -/
def search (r : Registry) (target : String) : Nat → List String → String → Option Bool
  | 0, _, _ => none
  | n + 1, visited, tag =>
    if tag = target then some true
    else if tag ∈ visited then some false
    else
      match r.parent? tag with
      | none => some false
      | some parent => r.search target n (tag :: visited) parent

/-- What is true of the tags that a search has visited when it comes to the next one. -/
structure Visited (r : Registry) (target : String) (visited : List String) (tag : String) :
    Prop where
  nodup : visited.Nodup
  /-- They are registered. -/
  subset_tags : visited ⊆ r.tags
  not_mem : target ∉ visited
  /-- Their parents have been visited, or come next. -/
  closed {t parent : String} : t ∈ visited → r.Extends t parent → parent ∈ tag :: visited

namespace Visited

/-- At first no tag has been visited. -/
theorem nil : r.Visited target [] tag :=
  ⟨List.nodup_nil, List.nil_subset _, List.not_mem_nil, fun h => absurd h List.not_mem_nil⟩

variable {visited : List String} (h : r.Visited target visited tag)
include h

/-- The search visits a tag that is new and goes on to its parent. -/
theorem cons {parent : String} (htarget : tag ≠ target) (hnew : tag ∉ visited)
    (hparent : r.parent? tag = some parent) : r.Visited target (tag :: visited) parent where
  nodup := List.nodup_cons.2 ⟨hnew, h.nodup⟩
  subset_tags := by
    obtain ⟨d, hd, rfl⟩ := contains_iff.1 (contains_of_parent? hparent)
    exact List.cons_subset.2 ⟨List.mem_map_of_mem hd, h.subset_tags⟩
  not_mem hmem := (List.mem_cons.1 hmem).elim (fun heq => htarget heq.symm) h.not_mem
  closed {t p} ht hp := by
    rcases List.mem_cons.1 ht with rfl | ht
    · obtain rfl : parent = p := Option.some.inj (hparent.symm.trans hp)
      exact List.mem_cons_self
    · exact List.mem_cons_of_mem _ (h.closed ht hp)

/-- There are no more visited tags than types. -/
theorem length_le : visited.length ≤ r.size :=
  (h.nodup.subperm h.subset_tags).length_le.trans_eq (List.length_map _)

/-- From a tag that comes again only visited tags are met, so the target is not. -/
theorem not_inherits (hmem : tag ∈ visited) : ¬r.Inherits tag target := by
  intro hinherits
  have hvisited : ∀ t, r.Inherits tag t → t ∈ visited := by
    intro t ht
    induction ht with
    | refl => exact hmem
    | tail _ hparent ih =>
      rcases List.mem_cons.1 (h.closed ih hparent) with rfl | hparent
      · exact hmem
      · exact hparent
  exact h.not_mem (hvisited target hinherits)

end Visited

/-- A tag that is not the target inherits from it if its parent does. -/
theorem inherits_iff_of_parent? {parent : String} (htarget : tag ≠ target)
    (hparent : r.parent? tag = some parent) : r.Inherits tag target ↔ r.Inherits parent target := by
  refine ⟨?_, fun h => .head hparent h⟩
  intro h
  rcases h.cases_head with rfl | ⟨p, hp, h⟩
  · exact absurd rfl htarget
  · obtain rfl : parent = p := Option.some.inj (hparent.symm.trans hp)
    exact h

/-- A tag without a parent inherits from itself only. -/
theorem inherits_iff_of_parent?_none (hparent : r.parent? tag = none) :
    r.Inherits tag target ↔ tag = target := by
  refine ⟨?_, fun h => h ▸ .refl⟩
  intro h
  rcases h.cases_head with rfl | ⟨p, hp, -⟩
  · rfl
  · cases hparent.symm.trans hp

/-- The search finds what is assignable, if it may look at one tag more than there are types. Each
tag that it visits is one less to look at. -/
theorem Visited.search_eq {n : Nat} {visited : List String} (h : r.Visited target visited tag)
    (hn : r.size < n + visited.length) :
    r.search target n visited tag = some (r.isAssignable tag target) := by
  induction n generalizing visited tag with
  | zero => exact absurd h.length_le (by omega)
  | succ n ih =>
    rw [search]
    split
    next htag =>
      subst htag
      exact congrArg some (isAssignable_iff.2 .refl).symm
    next htarget =>
      split
      next hmem =>
        exact congrArg some (Bool.eq_false_iff.2 fun hto =>
          h.not_inherits hmem (isAssignable_iff.1 hto)).symm
      next hnew =>
        cases hparent : r.parent? tag with
        | none =>
          exact congrArg some (Bool.eq_false_iff.2 fun hto =>
            htarget ((inherits_iff_of_parent?_none hparent).1 (isAssignable_iff.1 hto))).symm
        | some parent =>
          have hsame : r.isAssignable tag target = r.isAssignable parent target := by
            rw [Bool.eq_iff_iff, isAssignable_iff, isAssignable_iff,
              inherits_iff_of_parent? htarget hparent]
          rw [hsame]
          exact ih (h.cons htarget hnew hparent) (by rw [List.length_cons]; omega)

/-! ## Valid registries -/

section
variable (hvalid : r.validate = .ok ())
include hvalid

/-- In a valid registry what is found is in order. -/
theorem inOrder_of_validate {d : Descriptor} (hd : r.get? tag = some d) : r.InOrder d :=
  (checkType_eq_ok_iff (get?_tag_of_get? hd)).1
    (checkTypes_eq_ok_iff.1 hvalid d (mem_of_get? hd).1)

/-- What a registered type inherits from is registered, and its fields come first. -/
theorem fields_prefix_of_inherits {d : Descriptor} (hd : r.get? tag = some d)
    (h : r.Inherits tag target) : ∃ e, r.get? target = some e ∧ e.fields <+: d.fields := by
  induction h with
  | refl => exact ⟨d, hd, List.prefix_rfl⟩
  | @tail t parent _ hparent ih =>
    obtain ⟨e, he, hprefix⟩ := ih
    obtain ⟨e', he', hparent⟩ := Option.bind_eq_some_iff.1 hparent
    obtain rfl : e = e' := Option.some.inj (he.symm.trans he')
    have hinOrder := inOrder_of_validate hvalid he
    obtain ⟨p, hp⟩ := Option.isSome_iff_exists.1 (hinOrder.contains_parent hparent)
    exact ⟨p, hp, (hinOrder.starts hparent hp).trans hprefix⟩

/-- Two tags, one of them registered, that inherit from each other are the same. -/
theorem inherits_antisymm (hcontains : r.contains tag = true) (h : r.Inherits tag target)
    (h' : r.Inherits target tag) : tag = target := by
  rcases h.cases_head with rfl | ⟨parent, hparent, hrest⟩
  · rfl
  · obtain ⟨d, hd⟩ := Option.isSome_iff_exists.1 hcontains
    have hround : r.Circular d.tag := by
      rw [(mem_of_get? hd).2]
      exact ⟨tag, .refl, .head' hparent (hrest.trans h')⟩
    exact absurd hround (inOrder_of_validate hvalid hd).not_circular

end

/-- Types stand where a type is declared that no, one or more steps to a parent lead to, and a
search along the parents comes to an end and finds this out. If the registry is valid, this orders
the registered tags, and the fields of a type start with those of each that it may stand for. -/
theorem isAssignable_isPartialOrder (r : Registry) :
    (∀ tag target,
      (r.isAssignable tag target = true ↔ Relation.ReflTransGen r.Extends tag target) ∧
      ∀ n > r.size, r.search target n [] tag = some (r.isAssignable tag target)) ∧
    (r.validate = .ok () →
      IsPartialOrder {tag : String // r.contains tag = true}
        (fun tag target => r.isAssignable tag target = true) ∧
      ∀ tag target d e, r.get? tag = some d → r.get? target = some e →
        r.isAssignable tag target = true → e.fields <+: d.fields) := by
  refine ⟨fun tag target => ⟨isAssignable_iff, fun n hn => Visited.nil.search_eq hn⟩, ?_⟩
  intro hvalid
  refine ⟨{ refl := ?_, trans := ?_, antisymm := ?_ }, ?_⟩
  · exact fun tag => isAssignable_iff.2 .refl
  · exact fun a b c hab hbc =>
      isAssignable_iff.2 ((isAssignable_iff.1 hab).trans (isAssignable_iff.1 hbc))
  · exact fun a b hab hba => Subtype.ext
      (inherits_antisymm hvalid a.2 (isAssignable_iff.1 hab) (isAssignable_iff.1 hba))
  · intro tag target d e hd he hto
    obtain ⟨e', he', hprefix⟩ := fields_prefix_of_inherits hvalid hd (isAssignable_iff.1 hto)
    rw [he] at he'
    cases he'
    exact hprefix

/-- A get request has the fields of a stream request in front of its own, as it may stand for one.
-/
theorem isAssignable_isPartialOrder_getRequest : ∃ d e,
    (registerLocalization ∅).1.get? "LocalizationStreamGetRequest" = some d ∧
    (registerLocalization ∅).1.get? "LocalizationStreamRequest" = some e ∧
    e.fields <+: d.fields :=
  ⟨_, _, rfl, rfl, ((isAssignable_isPartialOrder (registerLocalization ∅).1).2 rfl).2
    "LocalizationStreamGetRequest" "LocalizationStreamRequest" _ _ rfl rfl (by decide)⟩

end TagWire.Registry
