import Mathlib.Data.Finset.Card
import Mathlib.Logic.Relation
import TagWire.Proofs.Registry.Registration

/-!
# Inheritance

A tag `Inherits` from every tag that parents lead to from it, also where parents are not registered
or go round in a circle. The registry follows parents for as many steps as it has types. That is
enough: on a longer way some tag comes twice, as only registered tags have parents
(`Registry.exists_ancestor?_eq`). So what is assignable is what inherits
(`Registry.isAssignable_iff`), and parents that do not end go round (`Registry.isCyclic_iff`).
-/

namespace TagWire.Registry

/-- Whether the type of a tag extends another one directly. -/
def Extends (r : Registry) (tag parent : String) : Prop := r.parent? tag = some parent

/-- Whether no, one or more steps from a registered type to its parent lead from one tag to another.
-/
def Inherits (r : Registry) : String → String → Prop := Relation.ReflTransGen r.Extends

/-- Whether the parents of a tag come back to one that has been there. -/
def Circular (r : Registry) (tag : String) : Prop :=
  ∃ t, r.Inherits tag t ∧ Relation.TransGen r.Extends t t

/-- The tag that so many steps lead to. -/
def ancestor? (r : Registry) : Nat → String → Option String
  | 0, tag => some tag
  | n + 1, tag => (r.parent? tag).bind (r.ancestor? n)

variable {r : Registry} {tag target : String}

/-- A tag with a parent is registered. -/
theorem contains_of_parent? {parent : String} (h : r.parent? tag = some parent) :
    r.contains tag = true := by
  obtain ⟨d, hd, -⟩ := Option.bind_eq_some_iff.1 h
  rw [contains, hd]
  rfl

/-! ## Steps -/

/-- Some steps and then others. -/
theorem ancestor?_add (m n : Nat) (tag : String) :
    r.ancestor? (m + n) tag = (r.ancestor? m tag).bind (r.ancestor? n) := by
  induction m generalizing tag with
  | zero => rw [Nat.zero_add, ancestor?, Option.bind_some]
  | succ m ih =>
    rw [Nat.add_right_comm, ancestor?, ancestor?, Option.bind_assoc]
    exact congrArg _ (funext ih)

/-- One step is one to the parent. -/
theorem ancestor?_one (tag : String) : r.ancestor? 1 tag = r.parent? tag :=
  Option.bind_fun_some _

/-- What some steps lead to is also reached by the first of them and then the others. -/
theorem exists_ancestor?_of_le {m n : Nat} (h : m ≤ n) (hn : r.ancestor? n tag = some target) :
    ∃ t, r.ancestor? m tag = some t ∧ r.ancestor? (n - m) t = some target := by
  rw [← Nat.add_sub_cancel' h, ancestor?_add] at hn
  exact Option.bind_eq_some_iff.1 hn

/-- A tag inherits from what some number of steps leads to. -/
theorem inherits_iff : r.Inherits tag target ↔ ∃ n, r.ancestor? n tag = some target := by
  refine ⟨?_, ?_⟩
  · intro h
    induction h with
    | refl => exact ⟨0, rfl⟩
    | @tail t parent _ hparent ih =>
      obtain ⟨n, hn⟩ := ih
      exact ⟨n + 1, by rw [ancestor?_add, hn, Option.bind_some, ancestor?_one, hparent]⟩
  · intro h
    obtain ⟨n, hn⟩ := h
    induction n generalizing tag with
    | zero =>
      cases hn
      exact .refl
    | succ n ih =>
      obtain ⟨parent, hparent, hn⟩ := Option.bind_eq_some_iff.1 hn
      exact .head hparent (ih hn)

/-- Tags come back to where some number of steps, not none, leads back to. -/
theorem transGen_extends_iff : Relation.TransGen r.Extends tag target ↔
    ∃ n, r.ancestor? (n + 1) tag = some target := by
  rw [Relation.TransGen.head'_iff]
  refine ⟨?_, ?_⟩
  · intro h
    obtain ⟨parent, hparent, h⟩ := h
    obtain ⟨n, hn⟩ := inherits_iff.1 h
    exact ⟨n, Option.bind_eq_some_iff.2 ⟨parent, hparent, hn⟩⟩
  · intro h
    obtain ⟨n, hn⟩ := h
    obtain ⟨parent, hparent, hn⟩ := Option.bind_eq_some_iff.1 hn
    exact ⟨parent, hparent, inherits_iff.2 ⟨n, hn⟩⟩

/-- The registry finds what it reaches in so many steps or fewer. -/
theorem reaches_eq_true_iff {n : Nat} :
    r.reaches n tag target = true ↔ ∃ k ≤ n, r.ancestor? k tag = some target := by
  induction n generalizing tag with
  | zero => simp [reaches, ancestor?]
  | succ n ih =>
    rw [reaches, Bool.or_eq_true, beq_iff_eq]
    refine ⟨?_, ?_⟩
    · intro h
      rcases h with rfl | h
      · exact ⟨0, Nat.zero_le _, rfl⟩
      · cases hparent : r.parent? tag with
        | none => simp [hparent] at h
        | some parent =>
          rw [hparent] at h
          obtain ⟨k, hk, h⟩ := ih.1 h
          exact ⟨k + 1, Nat.succ_le_succ hk, Option.bind_eq_some_iff.2 ⟨parent, hparent, h⟩⟩
    · intro h
      obtain ⟨k, hk, h⟩ := h
      cases k with
      | zero => exact .inl (Option.some.inj h)
      | succ k =>
        obtain ⟨parent, hparent, h⟩ := Option.bind_eq_some_iff.1 h
        rw [hparent]
        exact .inr (ih.2 ⟨k, Nat.le_of_succ_le_succ hk, h⟩)

/-- Parents end within so many steps if one step more leads nowhere. -/
theorem chainEnds_eq_true_iff {n : Nat} :
    r.chainEnds n tag = true ↔ r.ancestor? (n + 1) tag = none := by
  induction n generalizing tag with
  | zero => rw [chainEnds, Nat.zero_add, ancestor?_one, Option.isNone_iff_eq_none]
  | succ n ih =>
    rw [chainEnds, ancestor?]
    cases hparent : r.parent? tag with
    | none => simp
    | some parent => exact ih

/-! ## As many steps as types -/

/-- If one step more can be made than there are types, some tag has come twice. -/
theorem exists_ancestor?_eq (h : r.ancestor? (r.size + 1) tag = some target) :
    ∃ i j t, i < j ∧ j ≤ r.size ∧ r.ancestor? i tag = some t ∧ r.ancestor? j tag = some t := by
  -- All tags on the way have parents, so they are among the registered ones.
  have hsome : ∀ k ≤ r.size, ∃ t, r.ancestor? k tag = some t ∧ t ∈ r.tags := by
    intro k hk
    obtain ⟨t, ht, hrest⟩ := exists_ancestor?_of_le (Nat.le_succ_of_le hk) h
    rw [Nat.succ_sub hk] at hrest
    obtain ⟨parent, hparent, -⟩ := Option.bind_eq_some_iff.1 hrest
    obtain ⟨d, hd, rfl⟩ := contains_iff.1 (contains_of_parent? hparent)
    exact ⟨d.tag, ht, List.mem_map_of_mem hd⟩
  have hcard : r.tags.toFinset.card < (Finset.range (r.size + 1)).card := by
    rw [Finset.card_range]
    exact Nat.lt_succ_of_le ((List.toFinset_card_le _).trans_eq (List.length_map _))
  have hmaps : ∀ k ∈ Finset.range (r.size + 1),
      (r.ancestor? k tag).getD tag ∈ r.tags.toFinset := by
    intro k hk
    obtain ⟨t, ht, hmem⟩ := hsome k (Finset.mem_range_succ_iff.1 hk)
    rw [ht]
    exact List.mem_toFinset.2 hmem
  obtain ⟨i, hi, j, hj, hne, heq⟩ := Finset.exists_ne_map_eq_of_card_lt_of_maps_to hcard hmaps
  have hi := Finset.mem_range_succ_iff.1 hi
  have hj := Finset.mem_range_succ_iff.1 hj
  obtain ⟨t, ht, -⟩ := hsome i hi
  obtain ⟨t', ht', -⟩ := hsome j hj
  simp only [ht, ht', Option.getD_some] at heq
  subst heq
  rcases Nat.lt_or_gt_of_ne hne with hlt | hlt
  · exact ⟨i, j, t, hlt, hj, ht, ht'⟩
  · exact ⟨j, i, t, hlt, hi, ht', ht⟩

/-- What some steps lead to, no more steps than there are types lead to. -/
theorem exists_ancestor?_le_size {n : Nat} (h : r.ancestor? n tag = some target) :
    ∃ k ≤ r.size, r.ancestor? k tag = some target := by
  induction n using Nat.strongRecOn with
  | ind n ih =>
  rcases Nat.lt_or_ge r.size n with hn | hn
  · -- A way that comes twice to a tag can be cut short between.
    obtain ⟨last, hlast, -⟩ := exists_ancestor?_of_le (Nat.succ_le_of_lt hn) h
    obtain ⟨i, j, t, hij, hj, hti, htj⟩ := exists_ancestor?_eq hlast
    obtain ⟨t', htj', hrest⟩ := exists_ancestor?_of_le (hj.trans hn.le) h
    obtain rfl : t = t' := Option.some.inj (htj.symm.trans htj')
    refine ih (i + (n - j)) (by omega) ?_
    rw [ancestor?_add, hti, Option.bind_some, hrest]
  · exact ⟨n, hn, h⟩

/-- An instance may stand where the type that is declared is one that its own type inherits from. -/
theorem isAssignable_iff : r.isAssignable tag target = true ↔ r.Inherits tag target := by
  rw [isAssignable, reaches_eq_true_iff, inherits_iff]
  refine ⟨?_, ?_⟩
  · intro h
    obtain ⟨k, -, h⟩ := h
    exact ⟨k, h⟩
  · intro h
    obtain ⟨n, hn⟩ := h
    exact exists_ancestor?_le_size hn

/-- On a circle every number of steps can be made. -/
theorem exists_ancestor?_of_transGen (h : Relation.TransGen r.Extends tag tag) (n : Nat) :
    ∃ t, r.ancestor? n tag = some t := by
  obtain ⟨m, hm⟩ := transGen_extends_iff.1 h
  induction n using Nat.strongRecOn with
  | ind n ih =>
  rcases Nat.lt_or_ge m n with hn | hn
  · obtain ⟨t, ht⟩ := ih (n - (m + 1)) (by omega)
    refine ⟨t, ?_⟩
    rw [← Nat.add_sub_cancel' (Nat.succ_le_of_lt hn), ancestor?_add, hm, Option.bind_some, ht]
  · obtain ⟨t, ht, -⟩ := exists_ancestor?_of_le (Nat.le_succ_of_le hn) hm
    exact ⟨t, ht⟩

/-- Parents that do not end go round in a circle. -/
theorem isCyclic_iff : r.isCyclic tag = true ↔ r.Circular tag := by
  rw [isCyclic, Bool.not_eq_true', Bool.eq_false_iff, Ne, chainEnds_eq_true_iff, ← Ne,
    Option.ne_none_iff_exists']
  refine ⟨?_, ?_⟩
  · intro h
    obtain ⟨last, hlast⟩ := h
    obtain ⟨i, j, t, hij, -, hti, htj⟩ := exists_ancestor?_eq hlast
    obtain ⟨t', hti', hround⟩ := exists_ancestor?_of_le hij.le htj
    obtain rfl : t = t' := Option.some.inj (hti.symm.trans hti')
    refine ⟨t, inherits_iff.2 ⟨i, hti⟩, transGen_extends_iff.2 ⟨j - i - 1, ?_⟩⟩
    rwa [Nat.sub_add_cancel (Nat.sub_pos_of_lt hij)]
  · intro h
    obtain ⟨t, ht, hround⟩ := h
    obtain ⟨n, hn⟩ := inherits_iff.1 ht
    obtain ⟨last, hlast⟩ := exists_ancestor?_of_transGen hround (r.size + 1)
    have hlong : r.ancestor? (n + (r.size + 1)) tag = some last := by
      rw [ancestor?_add, hn, Option.bind_some, hlast]
    obtain ⟨t', ht', -⟩ := exists_ancestor?_of_le (Nat.le_add_left _ n) hlong
    exact ⟨t', ht'⟩

end TagWire.Registry
