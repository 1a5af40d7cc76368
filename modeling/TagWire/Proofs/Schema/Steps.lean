import Mathlib.Data.List.Forall2

/-!
# Steps that may fail

What it takes for two steps in a row to succeed, and for one step on each element of a list: then
the elements and what has been made of them are lists that go together.
-/

namespace TagWire

variable {ε ε' α β : Type}

/-! ## Two steps -/

/-- A success of two steps in a row is a success of each. -/
theorem Except.bind_eq_ok {x : Except ε α} {f : α → Except ε β} {b : β} :
    (x >>= f) = .ok b ↔ ∃ a, x = .ok a ∧ f a = .ok b := by
  refine ⟨?_, ?_⟩
  · intro h
    cases x with
    | error e => cases h
    | ok a => exact ⟨a, rfl, h⟩
  · intro h
    obtain ⟨a, rfl, h⟩ := h
    exact h

/-- A success that is put in another form is a success. -/
theorem Except.map_eq_ok {x : Except ε α} {f : α → β} {b : β} :
    x.map f = .ok b ↔ ∃ a, x = .ok a ∧ f a = b := by
  cases x <;> simp [Except.map]

/-- Applying a function fails only where there is nothing to apply it to. -/
theorem Except.map_eq_error {x : Except ε α} {f : α → β} {e : ε} :
    x.map f = .error e ↔ x = .error e := by
  cases x <;> simp [Except.map]

/-- A success that is put in another form is a success. -/
theorem Except.fmap_eq_ok {x : Except ε α} {f : α → β} {b : β} :
    f <$> x = .ok b ↔ ∃ a, x = .ok a ∧ f a = b :=
  Except.map_eq_ok

/-- A success is one in which errors are put in another form. -/
theorem Except.mapError_eq_ok {x : Except ε α} {g : ε → ε'} {a : α} :
    x.mapError g = .ok a ↔ x = .ok a := by
  cases x <;> simp [Except.mapError]

/-! ## Lists that go together -/

section
variable {R : α → β → Prop} {as : List α} {bs : List β}

/-- If each element of a list has a partner, so has the list. -/
theorem exists_forall₂ (h : ∀ a ∈ as, ∃ b, R a b) : ∃ bs, List.Forall₂ R as bs := by
  induction as with
  | nil => exact ⟨[], .nil⟩
  | cons a as ih =>
    obtain ⟨⟨b, hb⟩, has⟩ := List.forall_mem_cons.1 h
    obtain ⟨bs, hbs⟩ := ih has
    exact ⟨_, .cons hb hbs⟩

/-- What is on the right of lists that go together has something on the left that it goes with. -/
theorem List.Forall₂.exists_of_mem_right (h : List.Forall₂ R as bs) {b : β} (hb : b ∈ bs) :
    ∃ a ∈ as, R a b := by
  induction h with
  | nil => cases hb
  | cons hab _ ih =>
    rcases List.mem_cons.1 hb with rfl | hb
    · exact ⟨_, List.mem_cons_self .., hab⟩
    · obtain ⟨a, ha, hab⟩ := ih hb
      exact ⟨a, List.mem_cons_of_mem _ ha, hab⟩

/-- What is on the left of lists that go together has something on the right that it goes with. -/
theorem List.Forall₂.exists_of_mem_left (h : List.Forall₂ R as bs) {a : α} (ha : a ∈ as) :
    ∃ b ∈ bs, R a b :=
  List.Forall₂.exists_of_mem_right (List.Forall₂.flip (R := flip R) h) ha

/-- What is the same of elements that go together is the same of lists that go together. -/
theorem List.Forall₂.map_eq {γ : Type} {f : α → γ} {g : β → γ} (h : List.Forall₂ R as bs)
    (hR : ∀ a b, R a b → g b = f a) : bs.map g = as.map f := by
  induction h with
  | nil => rfl
  | cons hab _ ih => rw [List.map_cons, List.map_cons, hR _ _ hab, ih]

/-- At the place of something on the left of lists that go together is something on the right that
goes with it. -/
theorem List.Forall₂.exists_getElem? (h : List.Forall₂ R as bs) {n : Nat} {a : α}
    (ha : as[n]? = some a) : ∃ b, bs[n]? = some b ∧ R a b := by
  obtain ⟨hlt, rfl⟩ := List.getElem?_eq_some_iff.1 ha
  have hlt' : n < bs.length := h.length_eq ▸ hlt
  exact ⟨bs[n], List.getElem?_eq_getElem hlt', h.get hlt hlt'⟩

/-- What goes with the elements on the left of lists that go together, if that is in each case what
a function makes of the one on the right. -/
theorem List.Forall₂.forall₂_iff_eq_map {γ : Type} {S : α → γ → Prop} {f : β → γ} {cs : List γ}
    (h : List.Forall₂ R as bs) (hS : ∀ a b, R a b → ∀ c, S a c ↔ c = f b) :
    List.Forall₂ S as cs ↔ cs = bs.map f := by
  induction h generalizing cs with
  | nil => simp
  | cons hab _ ih => simp [List.forall₂_cons_left_iff, ih, hS _ _ hab]

end

/-! ## A step on each element -/

section
variable {f : α → Except ε β} {as : List α} {bs : List β}

/-- A list is mapped if each of its elements is. -/
theorem Except.mapM_eq_ok_iff :
    as.mapM f = .ok bs ↔ List.Forall₂ (fun a b => f a = .ok b) as bs := by
  induction as generalizing bs with
  | nil => simp [pure, Except.pure, eq_comm]
  | cons a as ih =>
    rw [List.mapM_cons, Except.bind_eq_ok, List.forall₂_cons_left_iff]
    refine exists_congr fun b => ?_
    rw [Except.bind_eq_ok]
    refine ⟨fun h => ?_, fun h => ?_⟩
    · obtain ⟨ha, bs', has, hbs⟩ := h
      cases hbs
      exact ⟨bs', ha, ih.1 has, rfl⟩
    · obtain ⟨bs', ha, has, rfl⟩ := h
      exact ⟨ha, bs', ih.2 has, rfl⟩

/-- What a list cannot be mapped for is what one of its elements cannot be mapped for. -/
theorem Except.of_mapM_eq_error {e : ε} (h : as.mapM f = .error e) :
    ∃ a ∈ as, f a = .error e := by
  induction as with
  | nil => cases h
  | cons a as ih =>
    rw [List.mapM_cons] at h
    cases ha : f a with
    | error e' =>
      rw [ha] at h
      cases h
      exact ⟨a, List.mem_cons_self .., ha⟩
    | ok b =>
      rw [ha] at h
      cases has : as.mapM f with
      | error e' =>
        rw [has] at h
        cases h
        obtain ⟨a', ha', hf⟩ := ih has
        exact ⟨a', List.mem_cons_of_mem _ ha', hf⟩
      | ok bs =>
        rw [has] at h
        cases h

end

end TagWire
