import Mathlib.Data.List.Induction
import TagWire.Proofs.Schema.Steps
import TagWire.Schema.Conversion

/-!
# Maps by ascending keys

The data that can be keys of a map are compared by a linear order (`Target.isLinear_compare`), so
`Target.sortEntries` makes a map of a list of entries: its keys ascend strictly
(`Target.IsLinear.ascending_sortEntries`), and in it are those entries which no later one with the
same key replaces (`Target.IsLinear.mem_sortEntries_iff`). A list whose keys ascend already stays as
it is (`Target.IsLinear.sortEntries_eq_self`).
-/

namespace TagWire.Target

/-! ## Linear orders -/

section
variable {α β : Type}

/-- Whether a comparison is that of a linear order, in which only what is the same is equal. -/
structure IsLinear (cmp : α → α → Ordering) : Prop where
  trans : Std.TransCmp cmp
  lawful : Std.LawfulEqCmp cmp

variable {cmp : α → α → Ordering} {cmp' : β → β → Ordering}

namespace IsLinear

/-- Comparing by something that tells everything apart. -/
theorem on (h : IsLinear cmp') {f : α → β} (hf : ∀ a b, f a = f b → a = b) :
    IsLinear fun a b => cmp' (f a) (f b) := by
  obtain ⟨_, _⟩ := h
  exact ⟨{ eq_swap := Std.OrientedCmp.eq_swap, isLE_trans := Std.TransCmp.isLE_trans },
    { compare_self := Std.ReflCmp.compare_self
      eq_of_compare := fun h => hf _ _ (Std.LawfulEqCmp.eq_of_compare h) }⟩

/-- Comparing lists lexicographically. -/
theorem lists (h : IsLinear cmp) : IsLinear (compareLists cmp) := by
  have heq : compareLists cmp = List.compareLex cmp := by
    funext as bs
    induction as generalizing bs with
    | nil => cases bs <;> rfl
    | cons a as ih =>
      cases bs with
      | nil => rfl
      | cons b bs => rw [compareLists, ih, List.compareLex_cons_cons]
  obtain ⟨_, _⟩ := h
  rw [heq]
  exact ⟨inferInstance, inferInstance⟩

/-- Comparing pairs by their first components first. -/
theorem pairs (h : IsLinear cmp) (h' : IsLinear cmp') :
    IsLinear fun (p q : α × β) => (cmp p.1 q.1).then (cmp' p.2 q.2) := by
  obtain ⟨_, _⟩ := h
  obtain ⟨_, _⟩ := h'
  have hfst : Std.TransCmp fun (p q : α × β) => cmp p.1 q.1 :=
    { eq_swap := Std.OrientedCmp.eq_swap, isLE_trans := Std.TransCmp.isLE_trans }
  have hsnd : Std.TransCmp fun (p q : α × β) => cmp' p.2 q.2 :=
    { eq_swap := Std.OrientedCmp.eq_swap, isLE_trans := Std.TransCmp.isLE_trans }
  refine ⟨inferInstanceAs (Std.TransCmp (compareLex _ _)), ?_⟩
  refine { compare_self := by simp [Std.ReflCmp.compare_self], eq_of_compare := fun {p q} h => ?_ }
  obtain ⟨hfst, hsnd⟩ := Ordering.then_eq_eq.1 h
  exact Prod.ext (Std.LawfulEqCmp.eq_of_compare hfst) (Std.LawfulEqCmp.eq_of_compare hsnd)

end IsLinear

end

/-- The data of a scalar kind, other than floats, are compared by a linear order. -/
theorem isLinear_compare_scalar {k : ScalarKind} (h : (scalar k).isOrdered = true) :
    IsLinear k.compare := by
  have hint : IsLinear fun (a b : Int) => Ord.compare a b := ⟨inferInstance, inferInstance⟩
  have hnat : IsLinear fun (a b : Nat) => Ord.compare a b := ⟨inferInstance, inferInstance⟩
  cases k with
  | bool => exact hnat.on (f := Bool.toNat) (by decide)
  | i8 => exact hint.on fun a b => Int8.toInt_inj.1
  | i16 => exact hint.on fun a b => Int16.toInt_inj.1
  | i32 => exact hint.on fun a b => Int32.toInt_inj.1
  | i64 => exact hint.on fun a b => Int64.toInt_inj.1
  | u8 => exact hnat.on fun a b => UInt8.toNat_inj.1
  | u16 => exact hnat.on fun a b => UInt16.toNat_inj.1
  | u32 => exact hnat.on fun a b => UInt32.toNat_inj.1
  | u64 => exact hnat.on fun a b => UInt64.toNat_inj.1
  | char => exact hnat.on fun a b => Char.toNat_inj.1
  | f32 | f64 => cases h

/-- Data that can be keys of a map are compared by a linear order, by induction on the target. -/
theorem isLinear_compare {t : Target} (h : t.isOrdered = true) : IsLinear t.compare := by
  induction t with
  | scalar k => exact isLinear_compare_scalar h
  | string =>
    have hnat : IsLinear fun (a b : Nat) => Ord.compare a b := ⟨inferInstance, inferInstance⟩
    have hchar : IsLinear fun (a b : Char) => Ord.compare a.toNat b.toNat :=
      hnat.on fun a b => Char.toNat_inj.1
    exact hchar.lists.on fun a b => String.toList_inj.1
  | value | nested | tree | level => cases h
  | option t ih =>
    -- Options are compared like lists of at most one element.
    have heq : (option t).compare = fun a b => compareLists t.compare a.toList b.toList := by
      funext a b
      cases a with
      | none => cases b <;> rfl
      | some a =>
        cases b with
        | none => rfl
        | some b =>
          rw [compare, Option.toList_some, Option.toList_some, compareLists, compareLists]
          exact Ordering.then_eq.symm
    rw [heq]
    refine (ih h).lists.on fun a b hab => ?_
    cases a <;> cases b <;> simp_all
  | list t ih => exact (ih h).lists
  | map k t ihk iht =>
    obtain ⟨hk, ht⟩ := Bool.and_eq_true_iff.1 h
    exact ((ihk hk).pairs (iht ht)).lists

/-! ## The last ones of a kind -/

section
variable {α β : Type} {same : α → α → Prop} {same' : β → β → Prop}

/-- Whether an element of a list is the last one of those that are the same in some sense. -/
def IsLast (same : α → α → Prop) (as : List α) (a : α) : Prop :=
  ∃ before after, as = before ++ a :: after ∧ ∀ b ∈ after, ¬same b a

/-- The last one of a kind is one of all. -/
theorem IsLast.mem {as : List α} {a : α} (h : IsLast same as a) : a ∈ as := by
  obtain ⟨before, after, rfl, -⟩ := h
  simp

/-- A further element is the last one of its kind, of the others those of another kind. -/
theorem isLast_concat {as : List α} {a b : α} :
    IsLast same (as ++ [b]) a ↔ a = b ∨ IsLast same as a ∧ ¬same b a := by
  refine ⟨?_, ?_⟩
  · rintro ⟨before, after, has, hafter⟩
    rcases List.eq_nil_or_concat after with rfl | ⟨after, c, rfl⟩
    · obtain ⟨-, hb⟩ := List.append_inj' has rfl
      cases hb
      exact .inl rfl
    · rw [List.concat_eq_append] at has hafter
      rw [← List.cons_append, ← List.append_assoc] at has
      obtain ⟨rfl, hb⟩ := List.append_inj' has rfl
      cases hb
      obtain ⟨hafter, hlast⟩ := List.forall_mem_append.1 hafter
      exact .inr ⟨⟨before, after, rfl, hafter⟩, hlast b (List.mem_singleton_self b)⟩
  · rintro (rfl | ⟨⟨before, after, rfl, hafter⟩, hne⟩)
    · exact ⟨as, [], rfl, nofun⟩
    · refine ⟨before, after ++ [b], by simp, ?_⟩
      exact List.forall_mem_append.2 ⟨hafter, List.forall_mem_singleton.2 hne⟩

/-- Of lists that go together, what is the last one of its kind on the right goes with what is so on
the left, if what goes together is of the same kinds. -/
theorem IsLast.of_forall₂ {R : α → β → Prop} {as : List α} {bs : List β}
    (h : List.Forall₂ R as bs)
    (hsame : ∀ a b a' b', R a b → R a' b' → same a a' → same' b b') {b : β}
    (hb : IsLast same' bs b) : ∃ a, IsLast same as a ∧ R a b := by
  obtain ⟨before, after, rfl, hafter⟩ := hb
  obtain ⟨a, as', hab, hrest, htail⟩ :=
    List.forall₂_cons_right_iff.1 (List.forall₂_drop_append as before _ h)
  refine ⟨a, ⟨as.take before.length, as', ?_, fun c hc hsameAs => ?_⟩, hab⟩
  · rw [← htail, List.take_append_drop]
  · obtain ⟨d, hd, hcd⟩ := List.Forall₂.exists_of_mem_left hrest hc
    exact hafter d hd (hsame c d a b hcd hab hsameAs)

end

/-! ## Entries -/

section
variable {κ α : Type} {cmp : κ → κ → Ordering}

/-- Whether the keys of entries ascend strictly. -/
def Ascending (cmp : κ → κ → Ordering) (es : List (κ × α)) : Prop :=
  es.Pairwise fun e f => cmp e.1 f.1 = .lt

/-- Whether an entry is the last one of its key. -/
abbrev IsLastOf (es : List (κ × α)) (e : κ × α) : Prop := IsLast (fun f e => f.1 = e.1) es e

variable {es : List (κ × α)} {e : κ × α}

namespace IsLinear

variable (h : IsLinear cmp)
include h

/-- Only the same keys are equal. -/
theorem eq_iff {a b : κ} : cmp a b = .eq ↔ a = b := by
  obtain ⟨-, _⟩ := h
  exact Std.LawfulEqCmp.compare_eq_iff_eq

/-- A key is above another if that is below it. -/
theorem gt_iff {a b : κ} : cmp a b = .gt ↔ cmp b a = .lt := by
  obtain ⟨_, -⟩ := h
  exact Std.OrientedCmp.gt_iff_lt

/-- What is below a key is below what is above it. -/
theorem lt_trans {a b c : κ} (hab : cmp a b = .lt) (hbc : cmp b c = .lt) : cmp a c = .lt := by
  obtain ⟨_, -⟩ := h
  exact Std.TransCmp.lt_trans hab hbc

/-- What is below a key is another key. -/
theorem ne_of_lt {a b : κ} (hab : cmp a b = .lt) : a ≠ b := by
  intro heq
  rw [h.eq_iff.2 heq] at hab
  cases hab

/-- A map has an entry that is put into it, and the others but for one of the same key. -/
theorem mem_insertEntry_iff (hes : Ascending cmp es) {k : κ} {a : α} :
    e ∈ insertEntry cmp k a es ↔ e = (k, a) ∨ e ∈ es ∧ k ≠ e.1 := by
  induction es with
  | nil => simp [insertEntry]
  | cons f es ih =>
    obtain ⟨k', b⟩ := f
    obtain ⟨habove, hes⟩ := List.pairwise_cons.1 hes
    rw [insertEntry]
    split
    next hlt =>
      have hne : ∀ f ∈ (k', b) :: es, k ≠ f.1 := List.forall_mem_cons.2
        ⟨h.ne_of_lt hlt, fun f hf => h.ne_of_lt (h.lt_trans hlt (habove f hf))⟩
      rw [List.mem_cons, and_iff_left_of_imp (hne e)]
    next heq =>
      obtain rfl := h.eq_iff.1 heq
      have hne : ∀ f ∈ es, k ≠ f.1 := fun f hf => h.ne_of_lt (habove f hf)
      grind
    next hgt =>
      have hne : k ≠ k' := (h.ne_of_lt (h.gt_iff.1 hgt)).symm
      have := ih hes
      grind

/-- A map stays one when an entry is put into it. -/
theorem ascending_insertEntry (hes : Ascending cmp es) (k : κ) (a : α) :
    Ascending cmp (insertEntry cmp k a es) := by
  induction es with
  | nil => exact List.pairwise_singleton _ _
  | cons f es ih =>
    obtain ⟨k', b⟩ := f
    obtain ⟨habove, hrest⟩ := List.pairwise_cons.1 hes
    rw [insertEntry]
    split
    next hlt =>
      exact List.pairwise_cons.2 ⟨List.forall_mem_cons.2
        ⟨hlt, fun f hf => h.lt_trans hlt (habove f hf)⟩, hes⟩
    next heq =>
      obtain rfl := h.eq_iff.1 heq
      exact List.pairwise_cons.2 ⟨habove, hrest⟩
    next hgt =>
      refine List.pairwise_cons.2 ⟨fun f hf => ?_, ih hrest⟩
      rcases (h.mem_insertEntry_iff hrest).1 hf with rfl | ⟨hf, -⟩
      · exact h.gt_iff.1 hgt
      · exact habove f hf

/-- An entry above all others is put behind them. -/
theorem insertEntry_of_forall_lt {k : κ} {a : α} (hes : ∀ e ∈ es, cmp e.1 k = .lt) :
    insertEntry cmp k a es = es ++ [(k, a)] := by
  induction es with
  | nil => rfl
  | cons f es ih =>
    obtain ⟨hf, hes⟩ := List.forall_mem_cons.1 hes
    rw [insertEntry, h.gt_iff.2 hf, ih hes, List.cons_append]

end IsLinear

/-- A further entry is put into the map of the others. -/
theorem sortEntries_concat : sortEntries cmp (es ++ [e]) =
    insertEntry cmp e.1 e.2 (sortEntries cmp es) := by
  rw [sortEntries, List.foldl_append, ← sortEntries]
  rfl

namespace IsLinear

variable (h : IsLinear cmp)
include h

/-- The keys of a map ascend strictly. -/
theorem ascending_sortEntries (es : List (κ × α)) : Ascending cmp (sortEntries cmp es) := by
  induction es using List.reverseRecOn with
  | nil => exact .nil
  | append_singleton es e ih =>
    rw [sortEntries_concat]
    exact h.ascending_insertEntry ih e.1 e.2

/-- A map has the last entry of each key. -/
theorem mem_sortEntries_iff : e ∈ sortEntries cmp es ↔ IsLastOf es e := by
  induction es using List.reverseRecOn with
  | nil => simp [sortEntries, IsLast]
  | append_singleton es f ih =>
    rw [sortEntries_concat, h.mem_insertEntry_iff (h.ascending_sortEntries es), ih]
    exact isLast_concat.symm

/-- Entries whose keys ascend strictly are a map already. -/
theorem sortEntries_eq_self (hes : Ascending cmp es) : sortEntries cmp es = es := by
  induction es using List.reverseRecOn with
  | nil => rfl
  | append_singleton es e ih =>
    obtain ⟨hbefore, -, hlast⟩ := List.pairwise_append.1 hes
    rw [sortEntries_concat, ih hbefore]
    exact h.insertEntry_of_forall_lt fun f hf => hlast f hf e (List.mem_singleton_self e)

end IsLinear

end

end TagWire.Target
