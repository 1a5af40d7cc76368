import Mathlib.Data.List.Sort
import TagWire.Proofs.Schema.Sorting
import TagWire.Proofs.Schema.Storing

/-!
# Conversions there and back

What a value becomes that is taken to data of a target and back. Targets that are not made of others
take exactly what their data are given back as (`Target.ofValue_eq_ok_iff_of_isLeaf`); for the
others it is said once what a success is made of (`Target.ofValue_option_eq_ok_iff`,
`ofValue_list_eq_ok_iff`, `ofValue_map_eq_ok_iff`), and all else goes by induction on the target.
The way back changes nothing but maps (`Target.toValue_of_mapFree`), which it tidies
(`Target.tidied_iff`), and a second conversion finds the data of the first
(`Target.ofValue_toValue`). What a target asks of a value is asked of its parts one by one
(`Target.exists_ofValue_iff`).
-/

namespace TagWire

open TagWire.Localization (Choice Level Tree)

/-! ## Scalars -/

namespace ScalarKind

variable {k : ScalarKind}

/-- Exactly the scalar that data are given back as is taken as these data. -/
theorem ofScalar?_eq_some_iff {s : Scalar} {a : k.Carrier} :
    k.ofScalar? s = some a ↔ s = k.toScalar a := by
  cases k <;> cases s <;> simp [ofScalar?, toScalar]

/-- Exactly the scalars of a kind are data of it. -/
theorem exists_toScalar_iff {s : Scalar} : (∃ a, s = k.toScalar a) ↔ s.kind = k := by
  cases k <;> cases s <;> simp [toScalar, Scalar.kind]

end ScalarKind

namespace Target

variable {t k : Target} {v w : Value}

/-! ## Targets -/

/-- Whether the keys of every map in a target have an order of their own. -/
def KeysOrdered : Target → Prop
  | option t | list t => t.KeysOrdered
  | map k t => k.isOrdered = true ∧ k.KeysOrdered ∧ t.KeysOrdered
  | scalar _ | string | value | nested | tree | level => True

/-- Whether a target has no maps in it. -/
def MapFree : Target → Prop
  | option t | list t => t.MapFree
  | map _ _ => False
  | scalar _ | string | value | nested | tree | level => True

/-- Whether a target is not made of others. -/
def IsLeaf : Target → Prop
  | option _ | list _ | map _ _ => False
  | scalar _ | string | value | nested | tree | level => True

/-- Whether a value has the shape that a target has on the outside. -/
def Admits : Target → Value → Prop
  | scalar k, v => ∃ s : Scalar, s.kind = k ∧ v = .scalar s
  | string, v => ∃ s, v = .string s
  | value, _ => True
  | nested, v => ∃ i, v = .nested i
  | tree, v => ∃ t : Tree, v = .enum (Choice.wireName t)
  | level, v => ∃ l : Level, v = .enum (Choice.wireName l)
  | option _, _ => True
  | list _, v => ∃ items, v = .list items
  | map _ _, v => ∃ entries, v = .map entries

/-- Whether a target demands of a value that a part of it fits a part of the target. -/
inductive Demands : Target → Value → Target → Value → Prop
  | here (t : Target) (v : Value) : Demands t v t v
  | some {t s : Target} {v w : Value} (hv : v ≠ .null) (h : Demands t v s w) :
    Demands (option t) v s w
  | item {t s : Target} {vs : List Value} {v w : Value} (hmem : v ∈ vs) (h : Demands t v s w) :
    Demands (list t) (.list vs) s w
  | key {k t s : Target} {es : List (Value × Value)} {e : Value × Value} {w : Value} (hmem : e ∈ es)
    (h : Demands k e.1 s w) : Demands (map k t) (.map es) s w
  | value {k t s : Target} {es : List (Value × Value)} {e : Value × Value} {w : Value}
    (hmem : e ∈ es) (h : Demands t e.2 s w) : Demands (map k t) (.map es) s w

/-- Whether two values are the same key. -/
def SameKey (k : Target) (v w : Value) : Prop := ∃ x, k.ofValue v = .ok x ∧ k.ofValue w = .ok x

/-- Whether a value is a key below another. -/
def Below (k : Target) (v w : Value) : Prop :=
  ∃ x y, k.ofValue v = .ok x ∧ k.ofValue w = .ok y ∧ k.compare x y = .lt

/-- Whether a value is another in which the maps of a target are tidied up: the entries stand by
ascending keys, and of those with the same key the last one is left. -/
def Tidied : Target → Value → Value → Prop
  | option t, v, w => v = .null ∧ w = .null ∨ v ≠ .null ∧ t.Tidied v w
  | list t, v, w => ∃ vs ws, v = .list vs ∧ w = .list ws ∧ List.Forall₂ t.Tidied vs ws
  | map k t, v, w => ∃ es fs, v = .map es ∧ w = .map fs ∧
      fs.Pairwise (fun e f => k.Below e.1 f.1) ∧
      ∀ f, f ∈ fs ↔ ∃ e, IsLast (fun e f => k.SameKey e.1 f.1) es e ∧
        k.Tidied e.1 f.1 ∧ t.Tidied e.2 f.2
  | scalar _, v, w | string, v, w | value, v, w | nested, v, w | tree, v, w | level, v, w => w = v

/-! ## What a success is made of -/

/-- A target that is not made of others takes exactly what its data are given back as. -/
theorem ofValue_eq_ok_iff_of_isLeaf (ht : t.IsLeaf) {x : t.Carrier} :
    t.ofValue v = .ok x ↔ v = t.toValue x := by
  cases t with
  | scalar k =>
    cases v with
    | scalar s =>
      rw [toValue, ofValue, Value.scalar.injEq, ← ScalarKind.ofScalar?_eq_some_iff]
      cases k.ofScalar? s <;> simp
    | _ => simp [ofValue, toValue]
  | string => cases v <;> simp [ofValue, toValue, Value.toText]
  | value => simp [ofValue, toValue]
  | nested => cases v <;> simp [ofValue, toValue, Value.toInstance]
  | tree => exact Value.toTree_eq_ok
  | level => exact Value.toLevel_eq_ok
  | option | list | map => exact ht.elim

/-- A value that such a target takes is what its data are given back as. -/
theorem eq_toValue_of_isLeaf {x : t.Carrier} (h : t.ofValue v = .ok x) (ht : t.IsLeaf) :
    v = t.toValue x :=
  (ofValue_eq_ok_iff_of_isLeaf ht).1 h

/-- Null and what the target of an option takes are taken as an option. -/
theorem ofValue_option_eq_ok_iff {x : Option t.Carrier} :
    (option t).ofValue v = .ok x ↔
      v = .null ∧ x = none ∨ v ≠ .null ∧ ∃ y, t.ofValue v = .ok y ∧ some y = x := by
  cases v with
  | null => simp [ofValue, Value.optional, eq_comm]
  | _ => simp [ofValue, Value.optional, Except.map_eq_ok]

/-- Converting every element is a step on each. -/
theorem convertAll_eq_mapM {α β : Type} (f : α → Except FieldError β) (as : List α) :
    convertAll f as = as.mapM f := by
  induction as with
  | nil => rfl
  | cons a as ih => rw [convertAll, ih, List.mapM_cons]

/-- Lists of what the target of a list takes are taken as a list. -/
theorem ofValue_list_eq_ok_iff {xs : List t.Carrier} :
    (list t).ofValue v = .ok xs ↔
      ∃ vs, v = .list vs ∧ List.Forall₂ (fun v x => t.ofValue v = .ok x) vs xs := by
  cases v with
  | list vs => simp [ofValue, convertAll_eq_mapM, Except.mapM_eq_ok_iff]
  | _ => simp [ofValue]

/-- Whether key and value of an entry are converted. -/
def Converts (k t : Target) (e : Value × Value) (p : k.Carrier × t.Carrier) : Prop :=
  k.ofValue e.1 = .ok p.1 ∧ t.ofValue e.2 = .ok p.2

/-- An entry of a map as it is given back. -/
def toEntry (k t : Target) (p : k.Carrier × t.Carrier) : Value × Value :=
  (k.toValue p.1, t.toValue p.2)

/-- Maps of what the targets of a map take are taken as a map. -/
theorem ofValue_map_eq_ok_iff {x : List (k.Carrier × t.Carrier)} :
    (map k t).ofValue v = .ok x ↔ ∃ es ps, v = .map es ∧
      List.Forall₂ (k.Converts t) es ps ∧ sortEntries k.compare ps = x := by
  cases v with
  | map es =>
    have hentry (e : Value × Value) (p : k.Carrier × t.Carrier) :
        (∃ a, k.ofValue e.1 = .ok a ∧ ∃ b, t.ofValue e.2 = .ok b ∧ (a, b) = p) ↔
          k.Converts t e p := by
      obtain ⟨a, b⟩ := p
      simp [Converts]
    simp only [ofValue, convertAll_eq_mapM, Except.bind_eq_ok, Except.mapM_eq_ok_iff, pure,
      Except.pure, Except.ok.injEq, hentry, Value.map.injEq, exists_and_left, exists_eq_left']
  | _ => simp [ofValue]

/-! ## There and back -/

/-- Exactly null becomes null. -/
theorem toValue_eq_null_iff {x : t.Carrier} (h : t.ofValue v = .ok x) :
    t.toValue x = .null ↔ v = .null := by
  induction t with
  | scalar | string | value | nested | tree | level =>
    rw [eq_toValue_of_isLeaf h trivial]
  | option t ih =>
    rcases ofValue_option_eq_ok_iff.1 h with ⟨rfl, rfl⟩ | ⟨hv, y, hy, rfl⟩
    · exact iff_of_true rfl rfl
    · exact ih hy
  | list t =>
    obtain ⟨vs, rfl, -⟩ := ofValue_list_eq_ok_iff.1 h
    exact iff_of_false nofun nofun
  | map k t =>
    obtain ⟨es, ps, rfl, -⟩ := ofValue_map_eq_ok_iff.1 h
    exact iff_of_false nofun nofun

/-- Without maps nothing changes. -/
theorem toValue_of_mapFree (ht : t.MapFree) {x : t.Carrier} (h : t.ofValue v = .ok x) :
    t.toValue x = v := by
  induction t generalizing v with
  | scalar | string | value | nested | tree | level =>
    exact (eq_toValue_of_isLeaf h trivial).symm
  | option t ih =>
    rcases ofValue_option_eq_ok_iff.1 h with ⟨rfl, rfl⟩ | ⟨hv, y, hy, rfl⟩
    · rfl
    · exact ih ht hy
  | list t ih =>
    obtain ⟨vs, rfl, hvs⟩ := ofValue_list_eq_ok_iff.1 h
    have hback := List.Forall₂.map_eq (f := id) hvs fun v x hx => ih ht hx
    rw [toValue, hback, List.map_id]
  | map k t => exact ht.elim

section
variable {es : List (Value × Value)} {ps : List (k.Carrier × t.Carrier)} {p : k.Carrier × t.Carrier}

/-- What is in a map has been made of an entry. -/
theorem Converts.of_mem_sortEntries (hk : k.isOrdered = true)
    (h : List.Forall₂ (k.Converts t) es ps) (hp : p ∈ sortEntries k.compare ps) :
    ∃ e ∈ es, k.Converts t e p := by
  obtain ⟨before, after, rfl, -⟩ := (isLinear_compare hk).mem_sortEntries_iff.1 hp
  exact List.Forall₂.exists_of_mem_right h (by simp)

/-- An entry is made one thing. -/
theorem Converts.eq {e : Value × Value} {q : k.Carrier × t.Carrier} (hp : k.Converts t e p)
    (hq : k.Converts t e q) : p = q :=
  Prod.ext (Except.ok.inj (hp.1.symm.trans hq.1)) (Except.ok.inj (hp.2.symm.trans hq.2))

/-- Entries have the same key if what is made of them has. -/
theorem Converts.sameKey_iff {e f : Value × Value} {q : k.Carrier × t.Carrier}
    (hp : k.Converts t e p) (hq : k.Converts t f q) : k.SameKey e.1 f.1 ↔ p.1 = q.1 := by
  simp [SameKey, hp.1, hq.1, eq_comm]

/-- What is in a map has been made of the last entry of its key. -/
theorem Converts.mem_sortEntries_iff (hk : k.isOrdered = true)
    (h : List.Forall₂ (k.Converts t) es ps) :
    p ∈ sortEntries k.compare ps ↔
      ∃ e, IsLast (fun e f => k.SameKey e.1 f.1) es e ∧ k.Converts t e p := by
  rw [(isLinear_compare hk).mem_sortEntries_iff]
  refine ⟨IsLast.of_forall₂ h fun e p f q hp hq => (Converts.sameKey_iff hp hq).1, ?_⟩
  rintro ⟨e, he, hep⟩
  obtain ⟨q, hq, heq⟩ := IsLast.of_forall₂ (R := flip (k.Converts t)) h.flip
    (fun p e q f hp hq => (Converts.sameKey_iff hp hq).2) he
  exact heq.eq hep ▸ hq

end

/-- The data of a conversion are those that are found again when they are given back. -/
theorem ofValue_toValue (ht : t.KeysOrdered) {x : t.Carrier} (h : t.ofValue v = .ok x) :
    t.ofValue (t.toValue x) = .ok x := by
  induction t generalizing v with
  | scalar | string | value | nested | tree | level =>
    exact eq_toValue_of_isLeaf h trivial ▸ h
  | option t ih =>
    rcases ofValue_option_eq_ok_iff.1 h with ⟨rfl, rfl⟩ | ⟨hv, y, hy, rfl⟩
    · rfl
    · exact ofValue_option_eq_ok_iff.2
        (.inr ⟨(toValue_eq_null_iff hy).not.2 hv, y, ih ht hy, rfl⟩)
  | list t ih =>
    obtain ⟨vs, rfl, hvs⟩ := ofValue_list_eq_ok_iff.1 h
    refine ofValue_list_eq_ok_iff.2 ⟨_, rfl, ?_⟩
    refine List.forall₂_map_left_iff.2 (List.forall₂_same.2 fun x hx => ?_)
    obtain ⟨v, -, hv⟩ := List.Forall₂.exists_of_mem_right hvs hx
    exact ih ht hv
  | map k t ihk iht =>
    obtain ⟨hk, hkeys, ht⟩ := ht
    obtain ⟨es, ps, rfl, hps, rfl⟩ := ofValue_map_eq_ok_iff.1 h
    have hlinear := isLinear_compare hk
    refine ofValue_map_eq_ok_iff.2 ⟨_, _, rfl, ?_,
      hlinear.sortEntries_eq_self (hlinear.ascending_sortEntries ps)⟩
    refine List.forall₂_map_left_iff.2 (List.forall₂_same.2 fun p hp => ?_)
    -- What is in the map has been converted before, so it is found again.
    obtain ⟨e, -, he⟩ := Converts.of_mem_sortEntries hk hps hp
    exact ⟨ihk hkeys he.1, iht ht he.2⟩

/-- Of two keys only one is below the other. -/
theorem asymm_below (hk : k.isOrdered = true) :
    Std.Asymm fun e f : Value × Value => k.Below e.1 f.1 := by
  refine ⟨?_⟩
  rintro e f ⟨x, y, hx, hy, hlt⟩ ⟨y', x', hy', hx', hgt⟩
  obtain rfl := Except.ok.inj (hx.symm.trans hx')
  obtain rfl := Except.ok.inj (hy.symm.trans hy')
  rw [(isLinear_compare hk).gt_iff.2 hlt] at hgt
  cases hgt

/-- The keys of a map that is given back ascend as those of the map do. -/
theorem pairwise_below (hk : k.isOrdered = true) (hkeys : k.KeysOrdered)
    {es : List (Value × Value)} {ps : List (k.Carrier × t.Carrier)}
    (h : List.Forall₂ (k.Converts t) es ps) :
    ((sortEntries k.compare ps).map (k.toEntry t)).Pairwise fun e f => k.Below e.1 f.1 := by
  have hfound {p} (hp : p ∈ sortEntries k.compare ps) : k.ofValue (k.toValue p.1) = .ok p.1 := by
    obtain ⟨e, -, he⟩ := Converts.of_mem_sortEntries hk h hp
    exact ofValue_toValue hkeys he.1
  refine List.pairwise_map.2 ?_
  refine ((isLinear_compare hk).ascending_sortEntries ps).imp_of_mem fun {p q} hp hq hlt => ?_
  exact ⟨p.1, q.1, hfound hp, hfound hq, hlt⟩

/-- The way back tidies up the maps, and nothing else is the value tidied up. -/
theorem tidied_iff (ht : t.KeysOrdered) {x : t.Carrier} (h : t.ofValue v = .ok x) :
    t.Tidied v w ↔ w = t.toValue x := by
  induction t generalizing v w with
  | scalar | string | value | nested | tree | level =>
    obtain rfl := eq_toValue_of_isLeaf h trivial
    exact Iff.rfl
  | option t ih =>
    rcases ofValue_option_eq_ok_iff.1 h with ⟨rfl, rfl⟩ | ⟨hv, y, hy, rfl⟩
    · simp [Tidied, toValue]
    · simp [Tidied, toValue, hv, ih ht hy]
  | list t ih =>
    obtain ⟨vs, rfl, hvs⟩ := ofValue_list_eq_ok_iff.1 h
    have hitems {ws : List Value} : List.Forall₂ t.Tidied vs ws ↔ ws = x.map t.toValue :=
      List.Forall₂.forall₂_iff_eq_map hvs fun v x hx w => ih ht hx
    simp [Tidied, toValue, hitems]
  | map k t ihk iht =>
    obtain ⟨hk, hkeys, ht⟩ := ht
    obtain ⟨es, ps, rfl, hps, rfl⟩ := ofValue_map_eq_ok_iff.1 h
    have hmem (f : Value × Value) :
        f ∈ (sortEntries k.compare ps).map (k.toEntry t) ↔
          ∃ e, IsLast (fun e f => k.SameKey e.1 f.1) es e ∧
            k.Tidied e.1 f.1 ∧ t.Tidied e.2 f.2 := by
      rw [List.mem_map]
      refine ⟨?_, ?_⟩
      · rintro ⟨p, hp, rfl⟩
        obtain ⟨e, he, hep⟩ := (Converts.mem_sortEntries_iff hk hps).1 hp
        exact ⟨e, he, (ihk hkeys hep.1).2 rfl, (iht ht hep.2).2 rfl⟩
      · rintro ⟨e, he, hkey, hvalue⟩
        obtain ⟨p, -, hep⟩ := List.Forall₂.exists_of_mem_left hps he.mem
        exact ⟨p, (Converts.mem_sortEntries_iff hk hps).2 ⟨e, he, hep⟩,
          (Prod.ext ((ihk hkeys hep.1).1 hkey) ((iht ht hep.2).1 hvalue)).symm⟩
    have hsorted := pairwise_below hk hkeys hps
    refine ⟨?_, ?_⟩
    · rintro ⟨_, fs, ⟨⟩, rfl, hfs, hlast⟩
      -- Lists with the same entries by ascending keys are the same list.
      have := asymm_below hk
      rw [hfs.eq_of_mem_iff hsorted fun f => (hlast f).trans (hmem f).symm]
      rfl
    · rintro rfl
      exact ⟨_, _, rfl, rfl, hsorted, hmem⟩

/-! ## What a target asks for -/

/-- Whether a value has at each place the shape that a target demands there. -/
def Suits (t : Target) (v : Value) : Prop := ∀ s w, t.Demands v s w → s.Admits w

/-- A target that is not made of others takes the values that suit it. -/
theorem exists_ofValue_iff_of_isLeaf (ht : t.IsLeaf) : (∃ x, t.ofValue v = .ok x) ↔ t.Suits v := by
  have hadmits : t.Admits v ↔ ∃ x : t.Carrier, v = t.toValue x := by
    cases t with
    | scalar k =>
      refine ⟨?_, ?_⟩
      · rintro ⟨s, hs, rfl⟩
        obtain ⟨a, rfl⟩ := ScalarKind.exists_toScalar_iff.2 hs
        exact ⟨a, rfl⟩
      · rintro ⟨a, rfl⟩
        exact ⟨k.toScalar a, ScalarKind.exists_toScalar_iff.1 ⟨a, rfl⟩, rfl⟩
    | value => exact iff_of_true trivial ⟨v, rfl⟩
    | string | nested | tree | level => exact Iff.rfl
    | option | list | map => exact ht.elim
  rw [exists_congr fun x => ofValue_eq_ok_iff_of_isLeaf ht, ← hadmits]
  refine ⟨fun h s w hdemands => ?_, fun h => h t v (.here t v)⟩
  cases hdemands with
  | here => exact h
  | _ => exact ht.elim

/-- An option asks of what is not null what its target does. -/
theorem suits_option_iff : (option t).Suits v ↔ v ≠ .null → t.Suits v := by
  refine ⟨fun h hv s w hdemands => h s w (.some hv hdemands), fun h s w hdemands => ?_⟩
  cases hdemands with
  | here => trivial
  | some hv hdemands => exact h hv s w hdemands

/-- A list target asks for a list, and of each item what its own target does. -/
theorem suits_list_iff : (list t).Suits v ↔ ∃ vs, v = .list vs ∧ ∀ w ∈ vs, t.Suits w := by
  refine ⟨fun h => ?_, ?_⟩
  · obtain ⟨vs, rfl⟩ := h _ _ (.here _ _)
    exact ⟨vs, rfl, fun w hw s u hdemands => h s u (.item hw hdemands)⟩
  · rintro ⟨vs, rfl, hvs⟩ s w hdemands
    cases hdemands with
    | here => exact ⟨vs, rfl⟩
    | item hmem hdemands => exact hvs _ hmem s w hdemands

/-- A map target asks for a map, and of each key and value what their targets do. -/
theorem suits_map_iff : (map k t).Suits v ↔
    ∃ es, v = .map es ∧ ∀ e ∈ es, k.Suits e.1 ∧ t.Suits e.2 := by
  refine ⟨fun h => ?_, ?_⟩
  · obtain ⟨es, rfl⟩ := h _ _ (.here _ _)
    exact ⟨es, rfl, fun e he => ⟨fun s w hdemands => h s w (.key he hdemands),
      fun s w hdemands => h s w (.value he hdemands)⟩⟩
  · rintro ⟨es, rfl, hes⟩ s w hdemands
    cases hdemands with
    | here => exact ⟨es, rfl⟩
    | key hmem hdemands => exact (hes _ hmem).1 s w hdemands
    | value hmem hdemands => exact (hes _ hmem).2 s w hdemands

/-- A target takes the values that suit it, by induction on the target. -/
theorem exists_ofValue_iff : (∃ x, t.ofValue v = .ok x) ↔ t.Suits v := by
  induction t generalizing v with
  | scalar | string | value | nested | tree | level => exact exists_ofValue_iff_of_isLeaf trivial
  | option t ih =>
    rw [suits_option_iff, ← ih]
    refine ⟨?_, fun h => ?_⟩
    · rintro ⟨x, hx⟩ hv
      rcases ofValue_option_eq_ok_iff.1 hx with ⟨hnull, -⟩ | ⟨-, y, hy, -⟩
      · exact absurd hnull hv
      · exact ⟨y, hy⟩
    · by_cases hv : v = .null
      · exact ⟨none, ofValue_option_eq_ok_iff.2 (.inl ⟨hv, rfl⟩)⟩
      · obtain ⟨y, hy⟩ := h hv
        exact ⟨some y, ofValue_option_eq_ok_iff.2 (.inr ⟨hv, y, hy, rfl⟩)⟩
  | list t ih =>
    simp only [suits_list_iff, ← ih]
    refine ⟨?_, ?_⟩
    · rintro ⟨xs, hxs⟩
      obtain ⟨vs, rfl, hvs⟩ := ofValue_list_eq_ok_iff.1 hxs
      refine ⟨vs, rfl, fun w hw => ?_⟩
      obtain ⟨x, -, hx⟩ := List.Forall₂.exists_of_mem_left hvs hw
      exact ⟨x, hx⟩
    · rintro ⟨vs, rfl, hvs⟩
      obtain ⟨xs, hxs⟩ := exists_forall₂ hvs
      exact ⟨xs, ofValue_list_eq_ok_iff.2 ⟨vs, rfl, hxs⟩⟩
  | map k t ihk iht =>
    simp only [suits_map_iff, ← ihk, ← iht]
    refine ⟨?_, ?_⟩
    · rintro ⟨x, hx⟩
      obtain ⟨es, ps, rfl, hps, -⟩ := ofValue_map_eq_ok_iff.1 hx
      refine ⟨es, rfl, fun e he => ?_⟩
      obtain ⟨p, -, hkey, hvalue⟩ := List.Forall₂.exists_of_mem_left hps he
      exact ⟨⟨p.1, hkey⟩, p.2, hvalue⟩
    · rintro ⟨es, rfl, hes⟩
      obtain ⟨ps, hps⟩ := exists_forall₂ (R := k.Converts t) fun e he => by
        obtain ⟨⟨a, ha⟩, b, hb⟩ := hes e he
        exact ⟨(a, b), ha, hb⟩
      exact ⟨_, ofValue_map_eq_ok_iff.2 ⟨es, ps, rfl, hps, rfl⟩⟩

/-- Conversions are retractions. What a value is taken to is found again when it is given back;
without maps what is given back is the value, and in general it is the one value that is the former
with its maps tidied up. And a conversion fails exactly if some part of the value has not the shape
that the target demands of it. -/
theorem ofValue_retraction (t : Target) (ht : t.KeysOrdered) (v : Value) :
    (∀ x, t.ofValue v = .ok x → t.ofValue (t.toValue x) = .ok x ∧
      (t.MapFree → t.toValue x = v) ∧ ∀ w, t.Tidied v w ↔ w = t.toValue x) ∧
    ((∃ e, t.ofValue v = .error e) ↔ ∃ s w, t.Demands v s w ∧ ¬s.Admits w) := by
  refine ⟨fun x hx => ?_, ?_⟩
  · exact ⟨ofValue_toValue ht hx, fun hfree => toValue_of_mapFree hfree hx,
      fun w => tidied_iff ht hx⟩
  · have hfails : (∃ e, t.ofValue v = .error e) ↔ ¬∃ x, t.ofValue v = .ok x := by
      cases t.ofValue v <;> simp
    rw [hfails, exists_ofValue_iff, Suits]
    simp only [not_forall, exists_prop]

/-- A map from lists to texts or null has a key twice. The later entry is left, behind that of a
lower key. And another map is refused, which has a number where a text is to be. -/
theorem ofValue_retraction_repeated :
    (map (list (scalar .i32)) (option string)).KeysOrdered ∧
      (map (list (scalar .i32)) (option string)).Tidied
        (.map [(.list [.scalar (.i32 2)], .string "b"), (.list [], .null),
          (.list [.scalar (.i32 2)], .string "a")])
        (.map [(.list [], .null), (.list [.scalar (.i32 2)], .string "a")]) ∧
      ∃ s w, (map (list (scalar .i32)) (option string)).Demands
        (.map [(.list [], .scalar (.i32 1))]) s w ∧ ¬s.Admits w := by
  have hkeys : (map (list (scalar .i32)) (option string)).KeysOrdered := ⟨rfl, trivial, trivial⟩
  refine ⟨hkeys, ?_, (ofValue_retraction _ hkeys _).2.1 ⟨_, rfl⟩⟩
  exact (((ofValue_retraction _ hkeys _).1 [([], none), ([2], some "a")] rfl).2.2 _).2 rfl

end Target

end TagWire
