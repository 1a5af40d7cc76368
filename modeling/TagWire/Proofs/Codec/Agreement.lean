/-!
# Computations that agree

A second computation agrees with a first one if it answers what the first one answers, up to a
relation between the answers, and fails as the first one fails. Some errors of the first one are
excused: behind these the second may do anything. Results agree in this sense (`Except.Agrees`), and
computations that write or read do, wherever they start (`Agrees`), which sequencing keeps
(`Agrees.bind`).
-/

namespace TagWire

/-! ## Results that agree -/

section
variable {ε σ α β γ δ : Type} {excused : ε → Prop} {R : α → β → Prop}

/-- Whether the second result is related to the first, the errors of which may be excused. -/
inductive Except.Agrees (excused : ε → Prop) (R : α → β → Prop) : Except ε α → Except ε β → Prop
  | ok {a : α} {b : β} : R a b → Agrees excused R (.ok a) (.ok b)
  | error (e : ε) : Agrees excused R (.error e) (.error e)
  | excused {e : ε} (y : Except ε β) : excused e → Agrees excused R (.error e) y

/-- Whether the second result and the state behind it go with the first, the errors of which may be
excused. -/
inductive Result.Agrees (excused : ε → Prop) (R : α → β → Prop) :
    EStateM.Result ε σ α → EStateM.Result ε σ β → Prop
  | ok {a : α} {b : β} {s : σ} : R a b → Agrees excused R (.ok a s) (.ok b s)
  | error (e : ε) (s : σ) : Agrees excused R (.error e s) (.error e s)
  | excused {e : ε} {s : σ} (y : EStateM.Result ε σ β) :
      excused e → Agrees excused R (.error e s) y

/-- Whether the second computation goes as the first one does, wherever both start. -/
def Agrees (excused : ε → Prop) (R : α → β → Prop) (p : EStateM ε σ α) (q : EStateM ε σ β) : Prop :=
  ∀ s, Result.Agrees excused R (p s) (q s)

/-- A result agrees with itself. -/
theorem Except.Agrees.refl (x : Except ε α) : Agrees excused Eq x x := by
  cases x with
  | ok a => exact .ok rfl
  | error e => exact .error e

/-- Answers that are related in one way may be related in another. -/
theorem Except.Agrees.imp {S : α → β → Prop} {x : Except ε α} {y : Except ε β}
    (h : Agrees excused R x y) (hRS : ∀ a b, R a b → S a b) : Agrees excused S x y := by
  cases h with
  | ok hab => exact .ok (hRS _ _ hab)
  | error e => exact .error e
  | excused y he => exact .excused y he

/-- A success is answered by a related success. -/
theorem Except.Agrees.of_ok {x : Except ε α} {y : Except ε β} (h : Agrees excused R x y) {a : α}
    (hx : x = .ok a) : ∃ b, y = .ok b ∧ R a b := by
  cases h with
  | ok hab => cases hx; exact ⟨_, rfl, hab⟩
  | error | excused => cases hx

/-- An error that is not excused is answered by the same error. -/
theorem Except.Agrees.of_error {x : Except ε α} {y : Except ε β} (h : Agrees excused R x y) {e : ε}
    (hx : x = .error e) (he : ¬excused e) : y = .error e := by
  cases h with
  | ok => cases hx
  | error => cases hx; rfl
  | excused _ h => cases hx; exact absurd h he

/-- Where nothing is excused, results that agree up to equality are the same. -/
theorem Except.Agrees.eq {x y : Except ε α} (h : Agrees (fun _ => False) Eq x y) : x = y := by
  cases h with
  | ok hab => rw [hab]
  | error => rfl
  | excused _ h => exact h.elim

namespace Agrees

/-- Related answers agree. -/
theorem pure {a : α} {b : β} (h : R a b) :
    Agrees excused R (Pure.pure a : EStateM ε σ α) (Pure.pure b) :=
  fun _ => .ok h

/-- Failing alike agrees. -/
theorem throw (e : ε) :
    Agrees excused R (MonadExcept.throw e : EStateM ε σ α) (MonadExcept.throw e) :=
  fun s => .error e s

/-- Anything agrees with an excused failure. -/
theorem excuse {e : ε} (he : excused e) (q : EStateM ε σ β) :
    Agrees excused R (MonadExcept.throw e : EStateM ε σ α) q :=
  fun s => .excused (q s) he

/-- A computation agrees with itself, up to what is true of its answers. -/
theorem self {p : EStateM ε σ α} {R : α → α → Prop} (h : ∀ s a t, p s = .ok a t → R a a) :
    Agrees excused R p p := by
  intro s
  cases hp : p s with
  | ok a t => exact .ok (h s a t hp)
  | error e t => exact .error e t

/-- A computation agrees with itself. -/
theorem refl (p : EStateM ε σ α) : Agrees excused Eq p p := self fun _ _ _ _ => rfl

/-- One computation after the other. -/
theorem bind {p : EStateM ε σ α} {q : EStateM ε σ β} {f : α → EStateM ε σ γ}
    {g : β → EStateM ε σ δ} {S : γ → δ → Prop} (hp : Agrees excused R p q)
    (hf : ∀ a b, R a b → Agrees excused S (f a) (g b)) : Agrees excused S (p >>= f) (q >>= g) := by
  intro s
  have hs := hp s
  simp only [Bind.bind, EStateM.bind]
  generalize p s = x at hs ⊢
  generalize q s = y at hs ⊢
  cases hs with
  | ok hab => exact hf _ _ hab _
  | error e t => exact .error e t
  | excused _ he => exact .excused _ he

/-- Computations that start with the same one. -/
theorem after (p : EStateM ε σ α) {f : α → EStateM ε σ γ} {g : α → EStateM ε σ δ}
    {S : γ → δ → Prop} (h : ∀ a, Agrees excused S (f a) (g a)) :
    Agrees excused S (p >>= f) (p >>= g) :=
  (refl p).bind fun a _ hab => hab ▸ h a

end Agrees

end

end TagWire
