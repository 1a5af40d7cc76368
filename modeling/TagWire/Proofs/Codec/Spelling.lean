import TagWire.Proofs.Codec.Scalar
import TagWire.Proofs.Codec.Streaming
import TagWire.Proofs.Text.Utf8

/-!
# What a reading computation accepts

`Read.Spells` describes a reading computation completely as far as it succeeds: it answers exactly
if some bytes in front spell the answer, and it takes these. Sequencing computations appends
spellings (`Read.Spells.bind`), and each primitive has one spelling for each answer: the bytes that
the encoder writes. Both directions of this serve: what is written is read back, and what is read
was spelled as it would be written.
-/

namespace TagWire.Read

variable {α β : Type}

/-- A computation succeeds exactly on the spellings of its answers, whatever follows them. -/
def Spells (p : Read α) (R : α → List UInt8 → Prop) : Prop :=
  ∀ o bs a r, p ⟨o, bs⟩ = .ok a r ↔
    ∃ taken, R a taken ∧ bs = taken ++ r.rest ∧ r.offset = o + taken.length

namespace Spells

variable {p : Read α} {R : α → List UInt8 → Prop}

/-- Spellings may be described in other words. -/
theorem congr {S : α → List UInt8 → Prop} (h : Spells p R) (hRS : ∀ a bs, R a bs ↔ S a bs) :
    Spells p S := by
  intro o bs a r
  rw [h o bs a r]
  exact exists_congr fun taken => and_congr_left fun _ => hRS a taken

/-- An answer that is given at once is spelled by nothing. -/
theorem pure (a : α) : Spells (Pure.pure a : Read α) fun b bs => b = a ∧ bs = [] := by
  intro o bs b r
  refine ⟨?_, ?_⟩
  · intro h
    cases h
    exact ⟨[], ⟨rfl, rfl⟩, rfl, rfl⟩
  · intro h
    obtain ⟨taken, ⟨rfl, rfl⟩, hbs, hoff⟩ := h
    obtain ⟨offset, rest⟩ := r
    cases hbs
    cases hoff
    rfl

/-- Where a computation fails, nothing has a spelling. -/
theorem throw {e : CodecError} (h : ∀ a bs, ¬R a bs) :
    Spells (MonadExcept.throw e : Read α) R := by
  intro o bs a r
  refine ⟨?_, ?_⟩
  · intro hx
    cases hx
  · intro hx
    obtain ⟨taken, ha, -⟩ := hx
    exact absurd ha (h a taken)

/-- Spellings of one computation after the other are appended. The second needs to be described
only behind an answer that the first can give. -/
theorem bindOf {f : α → Read β} {S : α → β → List UInt8 → Prop} (hp : Spells p R)
    (hf : ∀ a bs, R a bs → Spells (f a) (S a)) :
    Spells (p >>= f) fun b bs => ∃ a bs₁ bs₂, R a bs₁ ∧ S a b bs₂ ∧ bs = bs₁ ++ bs₂ := by
  intro o bs b r
  rw [bind_eq_ok]
  refine ⟨?_, ?_⟩
  · intro h
    obtain ⟨a, ⟨o', rest⟩, h₁, h₂⟩ := h
    obtain ⟨bs₁, ha, rfl, rfl⟩ := (hp _ _ _ _).1 h₁
    obtain ⟨bs₂, hb, rfl, hoff⟩ := (hf a _ ha _ _ _ _).1 h₂
    refine ⟨bs₁ ++ bs₂, ⟨a, bs₁, bs₂, ha, hb, rfl⟩, (List.append_assoc _ _ _).symm, ?_⟩
    rw [hoff, List.length_append, Nat.add_assoc]
  · intro h
    obtain ⟨_, ⟨a, bs₁, bs₂, ha, hb, rfl⟩, rfl, hoff⟩ := h
    rw [List.length_append, ← Nat.add_assoc] at hoff
    exact ⟨a, ⟨o + bs₁.length, bs₂ ++ r.rest⟩,
      (hp _ _ _ _).2 ⟨bs₁, ha, List.append_assoc _ _ _, rfl⟩,
      (hf a _ ha _ _ _ _).2 ⟨bs₂, hb, rfl, hoff⟩⟩

/-- Spellings of one computation after the other are appended. -/
theorem bind {f : α → Read β} {S : α → β → List UInt8 → Prop} (hp : Spells p R)
    (hf : ∀ a, Spells (f a) (S a)) :
    Spells (p >>= f) fun b bs => ∃ a bs₁ bs₂, R a bs₁ ∧ S a b bs₂ ∧ bs = bs₁ ++ bs₂ :=
  hp.bindOf fun a _ _ => hf a

/-- An answer in another form is spelled the same. -/
theorem map (g : α → β) (hp : Spells p R) :
    Spells (do return g (← p)) fun b bs => ∃ a, R a bs ∧ g a = b := by
  refine (hp.bind fun a => .pure (g a)).congr fun b bs => ?_
  refine ⟨?_, ?_⟩
  · intro h
    obtain ⟨a, bs₁, bs₂, ha, ⟨rfl, rfl⟩, rfl⟩ := h
    exact ⟨a, by rwa [List.append_nil], rfl⟩
  · intro h
    obtain ⟨a, ha, rfl⟩ := h
    exact ⟨a, bs, [], ha, ⟨rfl, rfl⟩, (List.append_nil _).symm⟩

/-- Where an answer may be missing, both cases are spelled on. -/
theorem bindOption {p : Read (Option α)} {R : Option α → List UInt8 → Prop}
    {f : Option α → Read β} {N : β → List UInt8 → Prop} {S : α → β → List UInt8 → Prop}
    (hp : Spells p R) (hnone : Spells (f none) N) (hsome : ∀ a, Spells (f (some a)) (S a)) :
    Spells (p >>= f) fun b bs =>
      (∃ bs₁ bs₂, R none bs₁ ∧ N b bs₂ ∧ bs = bs₁ ++ bs₂) ∨
        ∃ a bs₁ bs₂, R (some a) bs₁ ∧ S a b bs₂ ∧ bs = bs₁ ++ bs₂ := by
  have hf : ∀ o, Spells (f o) fun b bs => o.elim (N b bs) fun a => S a b bs := by
    intro o
    cases o with
    | none => exact hnone
    | some a => exact hsome a
  exact (hp.bind hf).congr fun b bs => Option.exists

/-- A computation that knows where it starts spells its answers wherever that is. -/
theorem afterOffset {f : Nat → Read α} (h : ∀ o, Spells (f o) R) : Spells (offset >>= f) R := by
  intro o bs a r
  exact h o o bs a r

/-- A computation behind a check. -/
theorem ite {b : Prop} [Decidable b] {e : CodecError} (h : b → Spells p R) :
    Spells (if b then p else MonadExcept.throw e) fun a bs => b ∧ R a bs := by
  split
  next hb => exact (h hb).congr fun a bs => (and_iff_right hb).symm
  next hb => exact throw fun a bs h => hb h.1

/-- A computation that answers what has been found, or fails if nothing has, takes nothing. -/
theorem ofExcept {ε : Type} (x : Except ε α) (hok : ∀ a, x = .ok a → p = Pure.pure a)
    (herror : ∀ e, x = .error e → ∃ e', p = MonadExcept.throw e') :
    Spells p fun a bs => x = .ok a ∧ bs = [] := by
  cases x with
  | ok a =>
    rw [hok a rfl]
    exact (Spells.pure a).congr fun b bs => by rw [Except.ok.injEq, eq_comm]
  | error e =>
    obtain ⟨e', rfl⟩ := herror e rfl
    refine .throw fun b bs h => ?_
    cases h.1

end Spells

/-! ## Primitives -/

/-- Bytes are spelled by themselves. -/
theorem spells_bytes (n : Nat) : Spells (bytes n) fun b bs => b = bs ∧ bs.length = n := by
  intro o bs b r
  refine ⟨?_, ?_⟩
  · intro h
    rcases bytes_cases n bs with ⟨taken, more, rfl, hlen⟩ | hlt
    · rw [bytes_of_length_eq hlen] at h
      cases h
      exact ⟨b, ⟨rfl, hlen⟩, rfl, by rw [hlen]⟩
    · rw [bytes_of_length_lt hlt] at h
      cases h
  · intro h
    obtain ⟨taken, ⟨rfl, hlen⟩, rfl, hoff⟩ := h
    rw [bytes_of_length_eq hlen, ← hlen, ← hoff]

/-- A word is spelled by its bytes. -/
theorem spells_word (width : Nat) :
    Spells (word width) fun n bs => n < Word.bound width ∧ bs = Word.bytes width n := by
  refine ((spells_bytes width).map Word.ofBytes).congr fun n bs => ?_
  refine ⟨?_, ?_⟩
  · intro h
    obtain ⟨bs, ⟨rfl, rfl⟩, rfl⟩ := h
    exact ⟨Word.ofBytes_lt bs, (Word.bytes_ofBytes bs).symm⟩
  · intro h
    obtain ⟨hn, rfl⟩ := h
    exact ⟨_, ⟨rfl, Word.length_bytes width n⟩, Word.ofBytes_bytes hn⟩

/-- A scalar of a kind is spelled by its bytes. -/
theorem spells_scalar (k : ScalarKind) :
    Spells (scalar k) fun s bs => s.kind = k ∧ bs = s.bytes := by
  refine Spells.afterOffset fun start => ((spells_word k.size).bind fun n =>
    .ofExcept (k.ofWord n) (fun s h => by rw [h]) fun e h => ⟨_, by rw [h]⟩).congr fun s bs => ?_
  refine ⟨?_, ?_⟩
  · intro h'
    obtain ⟨n, _, _, ⟨hn, rfl⟩, ⟨hs, rfl⟩, rfl⟩ := h'
    obtain ⟨rfl, rfl⟩ := (ScalarKind.ofWord_eq_ok hn).1 hs
    exact ⟨rfl, List.append_nil _⟩
  · intro h'
    obtain ⟨rfl, rfl⟩ := h'
    exact ⟨s.toWord, s.bytes, [], ⟨s.toWord_lt, rfl⟩, ⟨s.ofWord_toWord, rfl⟩,
      (List.append_nil _).symm⟩

/-- A length is spelled by its word, and null by the word that is no length. -/
theorem spells_length {limit : UInt32} (hlimit : limit ≤ maxWireLength) :
    Spells (length limit) fun n? bs =>
      n?.elim (bs = Wire.null) fun n => n ≤ limit.toNat ∧ bs = Wire.count n := by
  -- The word of null is above every length that is allowed.
  have hlimit : limit.toNat ≤ 0xFFFFFFFE := UInt32.le_iff_toNat_le.1 hlimit
  have hword (n start : Nat) : Spells
      (if n = nullLength.toNat then Pure.pure none
        else if limit.toNat < n then MonadExcept.throw (.malformedLength start n limit.toNat)
        else Pure.pure (some n))
      fun n? bs => n?.elim (n = nullLength.toNat) (fun m => n = m ∧ m ≤ limit.toNat) ∧ bs = [] := by
    split
    next hnull =>
      refine (Spells.pure none).congr fun n? bs => and_congr_left fun _ => ?_
      cases n? with
      | none => simp [hnull]
      | some m =>
        refine iff_of_false (Option.some_ne_none m) fun h => ?_
        obtain ⟨hm, hle⟩ := h
        have : nullLength.toNat = 0xFFFFFFFF := rfl
        omega
    next hnull =>
    split
    next hlong =>
      refine .throw fun n? bs h => ?_
      cases n? with
      | none => exact hnull h.1
      | some m => exact absurd h.1.2 (by have := h.1.1; omega)
    next hshort =>
      refine (Spells.pure (some n)).congr fun n? bs => and_congr_left fun _ => ?_
      cases n? with
      | none => exact iff_of_false (Option.some_ne_none n).symm hnull
      | some m =>
        rw [Option.some.injEq]
        exact ⟨fun hm => ⟨hm.symm, by omega⟩, fun hm => hm.1.symm⟩
  refine Spells.afterOffset fun start =>
    ((spells_word 4).bind fun n => hword n start).congr fun n? bs => ?_
  refine ⟨?_, ?_⟩
  · intro h
    obtain ⟨n, _, _, ⟨-, rfl⟩, ⟨hn, rfl⟩, rfl⟩ := h
    rw [List.append_nil]
    cases n? with
    | none => exact congrArg (Word.bytes 4) hn
    | some m => exact ⟨hn.2, congrArg (Word.bytes 4) hn.1⟩
  · intro h
    cases n? with
    | none => exact ⟨_, _, [], ⟨by decide, rfl⟩, ⟨rfl, rfl⟩, by rw [List.append_nil]; exact h⟩
    | some m =>
      have hm : m < Word.bound 4 := Nat.lt_of_le_of_lt h.1 (by simp only [Word.bound]; omega)
      exact ⟨m, _, [], ⟨hm, rfl⟩, ⟨⟨rfl, h.1⟩, rfl⟩, by rw [List.append_nil]; exact h.2⟩

/-- A text of some length is spelled by its UTF-8 form. -/
theorem spells_text (n : Nat) :
    Spells (text n) fun s bs => bs = Text.Utf8.ofString s ∧ bs.length = n := by
  refine Spells.afterOffset fun start => ((spells_bytes n).bind fun bytes =>
    .ofExcept (Text.Utf8.toString? bytes) (fun s h => by rw [h])
      fun e h => ⟨_, by rw [h]⟩).congr fun s bs => ?_
  refine ⟨?_, ?_⟩
  · intro h'
    obtain ⟨_, bytes, _, ⟨rfl, hlen⟩, ⟨hs, rfl⟩, rfl⟩ := h'
    rw [List.append_nil]
    exact ⟨Text.Utf8.toString?_eq_ok.1 hs, hlen⟩
  · intro h'
    obtain ⟨rfl, hlen⟩ := h'
    exact ⟨_, _, [], ⟨rfl, hlen⟩, ⟨Text.Utf8.toString?_eq_ok.2 rfl, rfl⟩, (List.append_nil _).symm⟩

/-- A limit at the word of null bounds no more than one below it: the word is no length. -/
theorem length_withMaxLength (l : Limits) :
    length (l.withMaxLength l.maxLength).maxLength = length l.maxLength := by
  have hmin : (l.withMaxLength l.maxLength).maxLength =
      if l.maxLength ≤ maxWireLength then l.maxLength else maxWireLength := rfl
  rw [hmin]
  split
  next => rfl
  next habove =>
    have hmax : maxWireLength.toNat < l.maxLength.toNat := by
      rwa [UInt32.le_iff_toNat_le, Nat.not_le] at habove
    have hwire : maxWireLength.toNat = 0xFFFFFFFE := rfl
    have hnull : nullLength.toNat = 0xFFFFFFFF := rfl
    funext r
    have hoffset : offset r = .ok r.offset r := rfl
    unfold length
    rw [bind_of_ok hoffset, bind_of_ok hoffset]
    cases hword : word 4 r with
    | error e r' => rw [bind_of_error hword, bind_of_error hword]
    | ok n r' =>
      obtain ⟨_, ⟨hn, -⟩, -⟩ := (spells_word 4 _ _ _ _).1 hword
      have hn : n < 0x100000000 := hn
      rw [bind_of_ok hword, bind_of_ok hword]
      split
      next => rfl
      next hn0 => rw [if_neg (by omega), if_neg (by omega)]

end TagWire.Read
