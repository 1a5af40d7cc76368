import TagWire.Proofs.Codec.Streaming

/-!
# The position of a reader

The width of an item is known before the item is read: it is that of a scalar's kind, four bytes
for a length, and as many as are asked for of bytes or of a text. A computation `Read.Takes` so many
bytes if it moves the reader on by all of them, also where it finds fault with what they say, or by
none at all if fewer are left. Each call to a reader (`Read.Call`) takes the width of its item
(`Read.Call.takes_read`). So a reader stays in its bytes (`Reader.In`) and never moves back, however
many calls succeed or fail (`Reader.position_discipline`).
-/

namespace TagWire

/-- Whether an error finds fault with the content of an item that starts at an offset. -/
def CodecError.FaultsItemAt (start : Nat) : CodecError → Prop
  | .invalidData offset _ | .malformedLength offset _ _ => offset = start
  | _ => False

/-- A fault of an item is no truncation. -/
theorem CodecError.FaultsItemAt.isTruncation {start : Nat} {e : CodecError}
    (h : e.FaultsItemAt start) : e.isTruncation = false := by
  cases e with
  | truncated => cases h
  | _ => rfl

/-! ## Readers in some bytes -/

namespace Reader

variable {r : Reader} {b : List UInt8}

/-- Whether a reader stands somewhere in some bytes. -/
def In (r : Reader) (b : List UInt8) : Prop :=
  ∃ taken, b = taken ++ r.rest ∧ r.offset = taken.length

/-- The reader in front of some bytes stands in them. -/
theorem In.start (b : List UInt8) : (Reader.start b).In b := ⟨[], rfl, rfl⟩

/-- The bytes that are left are those behind the offset. -/
theorem In.drop_offset (h : r.In b) : b.drop r.offset = r.rest := by
  obtain ⟨taken, rfl, hoff⟩ := h
  rw [hoff, List.drop_left]

/-- The bytes in front of a reader and behind it are all. -/
theorem In.offset_add_remaining (h : r.In b) : r.offset + r.remaining = b.length := by
  obtain ⟨taken, rfl, hoff⟩ := h
  rw [hoff, List.length_append, remaining]

/-- What a reader has moved on from is not the end. -/
theorem In.lt_length (h : r.In b) {start : Nat} (hstart : start < r.offset) : start < b.length := by
  have hsum := h.offset_add_remaining
  omega

/-- The reader behind the next `n` bytes. -/
def skip (r : Reader) (n : Nat) : Reader := ⟨r.offset + n, r.rest.drop n⟩

/-- Behind bytes that are left a reader stands in the same bytes. -/
theorem In.skip {n : Nat} (h : r.In b) (hn : n ≤ r.remaining) : (r.skip n).In b := by
  obtain ⟨taken, rfl, hoff⟩ := h
  refine ⟨taken ++ r.rest.take n, ?_, ?_⟩
  · rw [List.append_assoc, Reader.skip, List.take_append_drop]
  · rw [List.length_append, List.length_take_of_le hn, Reader.skip, hoff]

/-- A reader is at the end if no bytes are left. -/
theorem isAtEnd_iff : r.isAtEnd = true ↔ r.remaining = 0 := by
  rw [isAtEnd, remaining, List.isEmpty_iff, List.length_eq_zero_iff]

end Reader

namespace Read

/-! ## Taking bytes -/

section

variable {α β : Type} {n : Nat}

/-- Whether a computation takes exactly `n` bytes, or none if fewer are left. If it finds fault with
them, it is behind them. -/
structure Takes (p : Read α) (n : Nat) : Prop where
  /-- Missing bytes are counted, and the reader stays. -/
  of_lt {r : Reader} : r.remaining < n → p r = .error (.truncated r.offset n r.remaining) r
  /-- Bytes that are there are taken. -/
  of_le {r : Reader} : n ≤ r.remaining → (∃ a, p r = .ok a (r.skip n)) ∨
    ∃ e, e.FaultsItemAt r.offset ∧ p r = .error e (r.skip n)

/-- A success moves the reader on by the bytes that are taken. -/
theorem Takes.offset_of_ok {p : Read α} (hp : Takes p n) {r r' : Reader} {a : α}
    (h : p r = .ok a r') : r'.offset = r.offset + n := by
  rcases Nat.lt_or_ge r.remaining n with hlt | hle
  · rw [hp.of_lt hlt] at h
    cases h
  · rcases hp.of_le hle with ⟨a, ha⟩ | ⟨e, -, ha⟩
    · rw [ha] at h
      cases h
      rfl
    · rw [ha] at h
      cases h

/-- Bytes are taken as they are. -/
theorem takes_bytes (n : Nat) : Takes (bytes n) n where
  of_lt h := bytes_of_length_lt h
  of_le {r} h := by
    refine .inl ⟨r.rest.take n, ?_⟩
    have htaken := bytes_of_length_eq (o := r.offset) (List.length_take_of_le h) (r.rest.drop n)
    rwa [List.take_append_drop] at htaken

/-- What is made of the bytes that are taken may be refused, with the offset in front of them. -/
theorem Takes.check {p : Read α} {f : Nat → α → Read β} (hp : Takes p n)
    (hf : ∀ start a, (∃ b, f start a = pure b) ∨ ∃ e, e.FaultsItemAt start ∧ f start a = throw e) :
    Takes (do f (← offset) (← p)) n where
  of_lt {r} h := by
    have hoffset : offset r = .ok r.offset r := rfl
    rw [bind_of_ok hoffset, bind_of_error (hp.of_lt h)]
  of_le {r} h := by
    have hoffset : offset r = .ok r.offset r := rfl
    rw [bind_of_ok hoffset]
    rcases hp.of_le h with ⟨a, ha⟩ | ⟨e, he, ha⟩
    · rw [bind_of_ok ha]
      rcases hf r.offset a with ⟨b, hb⟩ | ⟨e, he, hb⟩
      · exact .inl ⟨b, by rw [hb]; rfl⟩
      · exact .inr ⟨e, he, by rw [hb]; rfl⟩
    · exact .inr ⟨e, he, bind_of_error ha⟩

/-- An answer may be given in another form. -/
theorem Takes.map {p : Read α} (g : α → β) (hp : Takes p n) : Takes (do return g (← p)) n :=
  hp.check (f := fun _ a => pure (g a)) fun _ a => .inl ⟨g a, rfl⟩

/-- A word takes its width. -/
theorem takes_word (width : Nat) : Takes (word width) width := (takes_bytes width).map _

/-- A scalar takes the size of its kind. -/
theorem takes_scalar (k : ScalarKind) : Takes (scalar k) k.size := by
  refine (takes_word k.size).check fun start n => ?_
  cases k.ofWord n with
  | ok s => exact .inl ⟨s, rfl⟩
  | error fault => exact .inr ⟨.invalidData start fault, rfl, rfl⟩

/-- A length takes four bytes. -/
theorem takes_length (limit : UInt32) : Takes (length limit) 4 := by
  refine (takes_word 4).check fun start n => ?_
  split
  · exact .inl ⟨none, rfl⟩
  split
  · exact .inr ⟨.malformedLength start n limit.toNat, rfl, rfl⟩
  · exact .inl ⟨some n, rfl⟩

/-- A text takes as many bytes as are asked for. -/
theorem takes_text (n : Nat) : Takes (text n) n := by
  refine (takes_bytes n).check fun start bs => ?_
  cases Text.Utf8.toString? bs with
  | ok s => exact .inl ⟨s, rfl⟩
  | error fault => exact .inr ⟨.invalidData start (.invalidText fault), rfl, rfl⟩

end

/-! ## Calls -/

/-- A call to a reader, with its arguments. -/
inductive Call where
  | scalar (kind : ScalarKind)
  | length (limit : UInt32)
  | bytes (count : Nat)
  | text (count : Nat)

/-- What is answered to a call. -/
inductive Answer where
  | scalar (s : Scalar)
  | length (n? : Option Nat)
  | bytes (bs : List UInt8)
  | text (s : String)

namespace Call

/-- How many bytes the item of a call takes. -/
def width : Call → Nat
  | scalar .bool | scalar .i8 | scalar .u8 => 1
  | scalar .i16 | scalar .u16 => 2
  | scalar .i32 | scalar .u32 | scalar .f32 | scalar .char => 4
  | scalar .i64 | scalar .u64 | scalar .f64 => 8
  | length _ => 4
  | bytes n => n
  | text n => n

/-- Reads the item of a call. -/
def read : Call → Read Answer
  | scalar k => do return .scalar (← Read.scalar k)
  | length limit => do return .length (← Read.length limit)
  | bytes n => do return .bytes (← Read.bytes n)
  | text n => do return .text (← Read.text n)

/-- The size of a kind is the width of a scalar of the kind. -/
theorem width_scalar (k : ScalarKind) : (scalar k).width = k.size := by
  cases k <;> rfl

/-- A call takes the width of its item. -/
theorem takes_read (c : Call) : Takes c.read c.width := by
  cases c with
  | scalar k =>
    rw [width_scalar]
    exact (takes_scalar k).map _
  | length limit => exact (takes_length limit).map _
  | bytes n => exact (takes_bytes n).map _
  | text n => exact (takes_text n).map _

end Call

end Read

namespace Reader

open Read (Call)

/-- The reader that a call leaves behind, whether it succeeds or fails. -/
def after (r : Reader) (c : Call) : Reader :=
  match c.read r with
  | .ok _ r' => r'
  | .error _ r' => r'

/-- The reader that calls leave behind, one after the other. -/
def afterAll (r : Reader) (calls : List Call) : Reader := calls.foldl after r

variable {r : Reader} {b : List UInt8} {c : Call}

/-! ### One call -/

/-- A call for more bytes than are left leaves the reader where it is. -/
theorem after_of_lt (h : r.remaining < c.width) : r.after c = r := by
  rw [after, c.takes_read.of_lt h]

/-- A call for bytes that are left takes them, however it ends. -/
theorem after_of_le (h : c.width ≤ r.remaining) : r.after c = r.skip c.width := by
  rcases c.takes_read.of_le h with ⟨a, ha⟩ | ⟨e, -, ha⟩ <;> rw [after, ha]

/-- A call fails for want of bytes exactly if its item is wider than what is left. -/
theorem read_truncated_iff :
    (∃ e r', c.read r = .error e r' ∧ e.isTruncation = true) ↔ r.remaining < c.width := by
  rcases Nat.lt_or_ge r.remaining c.width with hlt | hle
  · exact iff_of_true ⟨_, _, c.takes_read.of_lt hlt, rfl⟩ hlt
  · refine iff_of_false ?_ (Nat.not_lt.2 hle)
    rintro ⟨e, r', herror, htruncation⟩
    rcases c.takes_read.of_le hle with ⟨a, ha⟩ | ⟨e', he', ha⟩
    · rw [ha] at herror
      cases herror
    · rw [ha] at herror
      cases herror
      rw [he'.isTruncation] at htruncation
      cases htruncation

/-- A call never moves the reader back. -/
theorem offset_le_after (r : Reader) (c : Call) : r.offset ≤ (r.after c).offset := by
  rcases Nat.lt_or_ge r.remaining c.width with hlt | hle
  · exact Nat.le_of_eq (congrArg Reader.offset (after_of_lt hlt)).symm
  · rw [after_of_le hle]
    exact Nat.le_add_right _ _

/-- A call leaves the reader in its bytes. -/
theorem In.after (h : r.In b) (c : Call) : (r.after c).In b := by
  rcases Nat.lt_or_ge r.remaining c.width with hlt | hle
  · rwa [after_of_lt hlt]
  · rw [after_of_le hle]
    exact h.skip hle

/-! ### Calls in a row -/

/-- Calls never move the reader back. -/
theorem offset_le_afterAll (r : Reader) (calls : List Call) :
    r.offset ≤ (r.afterAll calls).offset := by
  induction calls generalizing r with
  | nil => exact Nat.le_refl _
  | cons c calls ih => exact Nat.le_trans (r.offset_le_after c) (ih (r.after c))

/-- Calls leave the reader in its bytes. -/
theorem In.afterAll (h : r.In b) (calls : List Call) : (r.afterAll calls).In b := by
  induction calls generalizing r with
  | nil => exact h
  | cons c calls ih => exact ih (h.after c)

/-- Whatever calls a reader of some bytes has answered or refused, it stands in the bytes: what is
in front of it and what is left are all of them, and it is at the end exactly if nothing is left. It
has not moved back on the way. The next call fails for want of bytes exactly if its item is wider
than what is left; then it says so and leaves the reader where it is. Any other call moves the
reader on by the width of its item, whether it succeeds or finds fault with the content of the item,
which it reports with the offset in front of it. -/
theorem position_discipline (b : List UInt8) (calls : List Call) :
    let r := (start b).afterAll calls
    r.offset ≤ b.length ∧ r.offset + r.remaining = b.length ∧
    (r.isAtEnd = true ↔ r.remaining = 0) ∧
    (∀ earlier later, calls = earlier ++ later → ((start b).afterAll earlier).offset ≤ r.offset) ∧
    ∀ c : Call,
      ((∃ e r', c.read r = .error e r' ∧ e.isTruncation = true) ↔ r.remaining < c.width) ∧
      (r.remaining < c.width → c.read r = .error (.truncated r.offset c.width r.remaining) r) ∧
      (c.width ≤ r.remaining → ∃ r' : Reader, r'.offset = r.offset + c.width ∧
        ((∃ a, c.read r = .ok a r') ∨ ∃ e, e.FaultsItemAt r.offset ∧ c.read r = .error e r')) := by
  intro r
  have hin : r.In b := (In.start b).afterAll calls
  have hsum := hin.offset_add_remaining
  refine ⟨by omega, hsum, isAtEnd_iff, ?_, fun c => ?_⟩
  · rintro earlier later rfl
    have hlater : r = ((start b).afterAll earlier).afterAll later := List.foldl_append
    rw [hlater]
    exact offset_le_afterAll _ later
  · exact ⟨read_truncated_iff, c.takes_read.of_lt, fun hle => ⟨_, rfl, c.takes_read.of_le hle⟩⟩

end Reader

end TagWire
