import Mathlib.Data.List.Forall2
import TagWire.Proofs.Codec.Spelling

/-!
# Items in a row

What a writer puts onto the wire one after the other is read back one after the other by a reader
that knows of each item only its form: whether it is a scalar, and of which kind, or bytes or a text
behind their length, in the place of which there may be null (`Wire.items_read_back`). No item needs
a mark at its end, since a length is never the word of null and every other item has the width of
its form.
-/

namespace TagWire.Wire

open Read (Spells)

/-- An item on the wire. -/
inductive Item where
  | null
  | scalar (s : Scalar)
  | bytes (bs : List UInt8)
  | text (s : String)

/-- What a reader knows of an item. In the place of bytes and texts there may be null. -/
inductive Form where
  | scalar (kind : ScalarKind)
  | bytes
  | text

namespace Item

/-- The bytes of an item. -/
def wire : Item → List UInt8
  | null => Wire.null
  | scalar s => s.bytes
  | bytes bs => Wire.block bs
  | text s => Wire.text s

/-- Writes an item. -/
def write (i : Item) : Write Unit := Write.emit i.wire

/-- Writes items one after the other. -/
def writeAll (items : List Item) : Write Unit := items.forM write

end Item

namespace Form

/-- Reads an item of a form, with a limit for its length. -/
def read (limit : UInt32) : Form → Read Item
  | scalar k => do return .scalar (← Read.scalar k)
  | bytes => do
    match ← Read.length limit with
    | none => return .null
    | some n => return .bytes (← Read.bytes n)
  | text => do
    match ← Read.length limit with
    | none => return .null
    | some n => return .text (← Read.text n)

/-- Reads items of some forms one after the other. -/
def readAll (limit : UInt32) (forms : List Form) : Read (List Item) := forms.mapM (read limit)

/-- Whether an item is of a form, and no longer than a limit. -/
def Fits (limit : UInt32) : Form → Item → Prop
  | scalar k, .scalar s => s.kind = k
  | bytes, .bytes bs => bs.length ≤ limit.toNat
  | text, .text s => (Text.Utf8.ofString s).length ≤ limit.toNat
  | bytes, .null | text, .null => True
  | _, _ => False

end Form

/-! ## Writing -/

/-- Items are appended to the buffer. -/
theorem writeAll_eq (items : List Item) (buffer : Array UInt8) :
    Item.writeAll items buffer = .ok () (buffer ++ items.flatMap Item.wire) := by
  induction items generalizing buffer with
  | nil => exact congrArg (EStateM.Result.ok ()) (Array.ext' (by simp))
  | cons i items ih =>
    have hbuffer : buffer ++ i.wire ++ items.flatMap Item.wire =
        buffer ++ (i :: items).flatMap Item.wire := Array.ext' (by simp)
    exact (ih (buffer ++ i.wire)).trans (congrArg (EStateM.Result.ok ()) hbuffer)

/-! ## Reading -/

section

variable {limit : UInt32} (hlimit : limit ≤ maxWireLength)
include hlimit

/-- What is behind its length, or null in its place, is spelled as a block or as null. -/
theorem spells_prefixed {α : Type} {p : Nat → Read α} {form : α → List UInt8} (g : α → Item)
    (hp : ∀ n, Spells (p n) fun a bs => bs = form a ∧ bs.length = n) :
    Spells
      (do
        match ← Read.length limit with
        | none => return Item.null
        | some n => return g (← p n))
      fun i bs => i = .null ∧ bs = Wire.null ∨
        ∃ a, i = g a ∧ (form a).length ≤ limit.toNat ∧ bs = Wire.block (form a) := by
  refine ((Read.spells_length hlimit).bindOption (.pure Item.null) fun n => (hp n).map g).congr ?_
  intro i bs
  refine or_congr ⟨?_, ?_⟩ ⟨?_, ?_⟩
  · rintro ⟨_, _, rfl, ⟨rfl, rfl⟩, rfl⟩
    exact ⟨rfl, List.append_nil _⟩
  · rintro ⟨rfl, rfl⟩
    exact ⟨_, _, rfl, ⟨rfl, rfl⟩, (List.append_nil _).symm⟩
  · rintro ⟨_, _, _, ⟨hle, rfl⟩, ⟨a, ⟨rfl, rfl⟩, rfl⟩, rfl⟩
    exact ⟨a, rfl, hle, rfl⟩
  · rintro ⟨a, rfl, hle, rfl⟩
    exact ⟨_, _, _, ⟨hle, rfl⟩, ⟨a, ⟨rfl, rfl⟩, rfl⟩, rfl⟩

/-- An item of a form is spelled by its bytes. -/
theorem spells_read (f : Form) :
    Spells (f.read limit) fun i bs => f.Fits limit i ∧ bs = i.wire := by
  cases f with
  | scalar k =>
    refine ((Read.spells_scalar k).map Item.scalar).congr fun i bs => ?_
    cases i <;> simp [Form.Fits, Item.wire]
  | bytes =>
    have hbytes (n : Nat) : Spells (Read.bytes n) fun b bs => bs = b ∧ bs.length = n :=
      (Read.spells_bytes n).congr fun b bs => and_congr_left fun _ => eq_comm
    refine (spells_prefixed hlimit Item.bytes hbytes).congr fun i bs => ?_
    cases i <;> simp [Form.Fits, Item.wire]
  | text =>
    refine (spells_prefixed hlimit Item.text Read.spells_text).congr fun i bs => ?_
    cases i <;> simp [Form.Fits, Item.wire, Wire.text]

/-- Items of some forms are spelled by their bytes one after the other. -/
theorem spells_readAll (forms : List Form) :
    Spells (Form.readAll limit forms) fun items bs =>
      List.Forall₂ (Form.Fits limit) forms items ∧ bs = items.flatMap Item.wire := by
  induction forms with
  | nil =>
    refine (Spells.pure []).congr fun items bs => ?_
    rw [List.forall₂_nil_left_iff]
    refine and_congr_right ?_
    rintro rfl
    rfl
  | cons f forms ih =>
    rw [Form.readAll, List.mapM_cons]
    refine ((spells_read hlimit f).bind fun i => ih.map (i :: ·)).congr fun items bs => ?_
    rw [List.forall₂_cons_left_iff]
    refine ⟨?_, ?_⟩
    · rintro ⟨i, _, _, ⟨hi, rfl⟩, ⟨items, ⟨hitems, rfl⟩, rfl⟩, rfl⟩
      exact ⟨⟨i, items, hi, hitems, rfl⟩, rfl⟩
    · rintro ⟨⟨i, items, hi, hitems, rfl⟩, rfl⟩
      exact ⟨i, _, _, ⟨hi, rfl⟩, ⟨items, ⟨hitems, rfl⟩, rfl⟩, rfl⟩

end

/-- What a writer appends to a buffer, item by item, a reader of what has been appended reads back,
item by item: the same items, bit for bit, null in the place of null and nowhere else. After each of
them the reader has moved on by as many bytes as the buffer had grown by when the item was written,
and behind the last one it is at the end. What was in the buffer before stays in front. -/
theorem items_read_back {limit : UInt32} (hlimit : limit ≤ maxWireLength) {forms : List Form}
    {items : List Item} (hitems : List.Forall₂ (Form.Fits limit) forms items)
    (buffer : Array UInt8) :
    ∃ final, Item.writeAll items buffer = .ok () final ∧ buffer.toList <+: final.toList ∧
      ∀ k ≤ items.length, ∃ grown r, Item.writeAll (items.take k) buffer = .ok () grown ∧
        Form.readAll limit (forms.take k) (Reader.start (final.toList.drop buffer.size)) =
          .ok (items.take k) r ∧
        buffer.size + r.offset = grown.size ∧ (k = items.length → r.isAtEnd = true) := by
  refine ⟨_, writeAll_eq items buffer, by simp, fun k _ => ?_⟩
  -- Behind `k` items the reader has taken their bytes, and those of the other items are left.
  let r : Reader := ⟨((items.take k).flatMap Item.wire).length, (items.drop k).flatMap Item.wire⟩
  refine ⟨_, r, writeAll_eq (items.take k) buffer, ?_, ?_, ?_⟩
  · refine (spells_readAll hlimit (forms.take k) _ _ _ _).2
      ⟨_, ⟨List.forall₂_take k hitems, rfl⟩, ?_, (Nat.zero_add _).symm⟩
    rw [← List.flatMap_append, List.take_append_drop]
    simp
  · rw [← Array.length_toList, ← Array.length_toList, Array.toList_appendList, List.length_append]
  · rintro rfl
    simp [r, Reader.isAtEnd]

/-- A float that signals, null, nothing and a text, behind a byte that was there before. -/
theorem items_read_back_mixed :
    let items : List Item := [.scalar (.f32 ⟨0x7FA00001⟩), .null, .bytes [], .text "hé"]
    ∃ final r, Item.writeAll items #[7] = .ok () final ∧
      Form.readAll 3 [.scalar .f32, .text, .bytes, .text] (Reader.start (final.toList.drop 1)) =
        .ok items r ∧ 1 + r.offset = final.size ∧ r.isAtEnd = true := by
  intro items
  have htext : (Text.Utf8.ofString "hé").length ≤ (3 : UInt32).toNat := by decide
  have hitems : List.Forall₂ (Form.Fits 3) [.scalar .f32, .text, .bytes, .text] items :=
    .cons rfl (.cons trivial (.cons (Nat.zero_le _) (.cons htext .nil)))
  obtain ⟨final, hfinal, -, hprefix⟩ := items_read_back (by decide) hitems #[7]
  obtain ⟨grown, r, hgrown, hread, hsize, hend⟩ := hprefix 4 (Nat.le_refl 4)
  obtain rfl : final = grown := by
    rw [show items.take 4 = items from rfl, hfinal] at hgrown
    cases hgrown
    rfl
  exact ⟨final, r, hfinal, hread, hsize, hend rfl⟩

end TagWire.Wire
