import TagWire.Codec.Encoder

/-!
# Writing behind what is already there

The encoder never looks at the buffer that it writes to: put some bytes in front of the buffer, and
it runs as before, with those bytes in front of whatever it leaves. This holds of failures too,
which can come after tags, counts and presence bytes have already been written (`Write.OnlyAppends`,
by induction on the levels that may still be entered). So a message that is encoded into a buffer
depends on the instance alone, and cutting a buffer back to its old length after a failure gives the
old buffer (`Codec.encodeInto_eq`).
-/

namespace TagWire

namespace Write

variable {α β : Type}

/-- A result with bytes put in front of its buffer. -/
def behind (front : Array UInt8) :
    EStateM.Result CodecError (Array UInt8) α → EStateM.Result CodecError (Array UInt8) α
  | .ok a grown => .ok a (front ++ grown)
  | .error e grown => .error e (front ++ grown)

/-- Whether a computation runs alike behind any bytes put in front of its buffer, and leaves them
there, however it ends. -/
def OnlyAppends (w : Write α) : Prop :=
  ∀ front buffer, w (front ++ buffer) = behind front (w buffer)

namespace OnlyAppends

/-- Nothing is appended where nothing is written. -/
theorem pure (a : α) : OnlyAppends (Pure.pure a) := fun _ _ => rfl

/-- A failure leaves the buffer as it is. -/
theorem throw (e : CodecError) : OnlyAppends (MonadExcept.throw e : Write α) := fun _ _ => rfl

/-- Bytes are appended. -/
theorem emit (bytes : List UInt8) : OnlyAppends (emit bytes) := by
  intro front buffer
  change EStateM.Result.ok () (front ++ buffer ++ bytes) = .ok () (front ++ (buffer ++ bytes))
  exact congrArg _ (Array.ext' (by simp))

/-- A result that is given is not written. -/
theorem ofExcept (x : Except CodecError α) : OnlyAppends (ofExcept x) := by
  cases x with
  | ok a => exact pure a
  | error e => exact throw e

/-- One computation after the other. -/
theorem bind {w : Write α} {f : α → Write β} (hw : OnlyAppends w) (hf : ∀ a, OnlyAppends (f a)) :
    OnlyAppends (w >>= f) := by
  intro front buffer
  simp only [Bind.bind, EStateM.bind]
  rw [hw front buffer]
  cases w buffer with
  | ok a grown => exact hf a front grown
  | error e grown => rfl

/-- A computation that may be left out. -/
theorem ite {b : Prop} [Decidable b] {w w' : Write α} (hw : OnlyAppends w) (hw' : OnlyAppends w') :
    OnlyAppends (if b then w else w') := by
  split
  next => exact hw
  next => exact hw'

/-- A computation behind bytes that may be left out. -/
theorem after (b : Bool) (bytes : List UInt8) {w : Write α} (hw : OnlyAppends w) :
    OnlyAppends (do
      if b then Write.emit bytes
      w) := by
  cases b with
  | true => exact (emit bytes).bind fun _ => hw
  | false => exact hw

/-- From an empty buffer on, and so from any other. -/
theorem eq_behind {w : Write α} (hw : OnlyAppends w) (buffer : Array UInt8) :
    w buffer = behind buffer (w #[]) := by
  simpa using hw buffer #[]

end OnlyAppends

end Write

namespace Codec

open Write (OnlyAppends)

variable (c : Codec)

/-! ## The parts of a message -/

/-- A length is only checked. -/
theorem onlyAppends_checkLength (tag field : String) (length : Nat) :
    OnlyAppends (c.checkLength tag field length) :=
  .ite (.throw _) (.pure _)

/-- A block is appended. -/
theorem onlyAppends_writeBlock (tag field : String) (bytes : List UInt8) :
    OnlyAppends (c.writeBlock tag field bytes) :=
  (c.onlyAppends_checkLength tag field _).bind fun _ => .emit _

/-- A text is appended. -/
theorem onlyAppends_writeText (tag field : String) (s : String) :
    OnlyAppends (c.writeText tag field s) :=
  c.onlyAppends_writeBlock tag field _

/-- Fields are appended if each value is. -/
theorem onlyAppends_writeFields {write : Field → Value → Write Unit}
    (h : ∀ f v, OnlyAppends (write f v)) (tag : String) (index : Nat) (fs : List Field)
    (vs : List Value) : OnlyAppends (writeFields write tag index fs vs) := by
  induction fs generalizing index vs with
  | nil => exact .pure _
  | cons f fs ih =>
    cases vs with
    | nil => exact .throw _
    | cons v vs => exact (h f v).bind fun _ => ih (index + 1) vs

/-- Items are appended if each of them is. -/
theorem onlyAppends_writeItems {write : Value → Write Unit} (h : ∀ v, OnlyAppends (write v))
    (vs : List Value) : OnlyAppends (writeItems write vs) := by
  induction vs with
  | nil => exact .pure _
  | cons v vs ih => exact (h v).bind fun _ => ih

/-- Entries are appended if each key and each value is. -/
theorem onlyAppends_writeEntries {writeKey writeValue : Value → Write Unit}
    (hk : ∀ v, OnlyAppends (writeKey v)) (hv : ∀ v, OnlyAppends (writeValue v))
    (es : List (Value × Value)) : OnlyAppends (writeEntries writeKey writeValue es) := by
  induction es with
  | nil => exact .pure _
  | cons e es ih => exact (hk e.1).bind fun _ => (hv e.2).bind fun _ => ih

/-- A body is appended if each value is. -/
theorem onlyAppends_writeBody {write : Field → Value → Write Unit}
    (h : ∀ f v, OnlyAppends (write f v)) (d : Descriptor) (i : Instance) :
    OnlyAppends (c.writeBody write d i) :=
  (c.onlyAppends_writeText _ _ _).bind fun _ => onlyAppends_writeFields h d.tag 0 d.fields i.values

/-- What is written with a level entered is appended if it is so with one level less. -/
theorem onlyAppends_enter {w : Nat → Write Unit} {levels : Nat}
    (h : ∀ n, n + 1 = levels → OnlyAppends (w n)) :
    OnlyAppends (match levels with | 0 => throw c.tooDeep | n + 1 => w n) := by
  cases levels with
  | zero => exact .throw _
  | succ n => exact h n rfl

/-- A value is appended, by induction on the levels that may still be entered. -/
theorem onlyAppends_writeValue (levels : Nat) (tag owner : String) (f : Field) (v : Value) :
    OnlyAppends (c.writeValue levels tag owner f v) := by
  induction levels using Nat.strongRecOn generalizing tag owner f v with
  | ind levels ih =>
  have hin (n : Nat) (hn : n + 1 = levels) (tag owner : String) (f : Field) (v : Value) :
      OnlyAppends (c.writeValue n tag owner f v) :=
    ih n (by omega) tag owner f v
  unfold writeValue
  split
  next => exact .ite (.emit _) (.throw _)
  next hv =>
  split
  next k _ =>
    -- The presence byte stands in front even where no scalar follows.
    refine .after _ _ ?_
    split
    next s => exact .ite (.emit _) (.throw _)
    next => exact .throw _
  next s _ => exact c.onlyAppends_writeText tag owner s
  next b _ => exact c.onlyAppends_writeBlock tag owner b
  next e variant _ => exact .ite (c.onlyAppends_writeText tag owner variant) (.throw _)
  next declared i _ =>
    refine .bind (.ofExcept _) fun d => .ite ?_ (.throw _)
    exact c.onlyAppends_enter fun n hn => c.onlyAppends_writeBody (fun f => hin n hn d.tag f.name f)
      d i
  next element items _ =>
    exact c.onlyAppends_enter fun n hn => (c.onlyAppends_checkLength _ _ _).bind fun _ =>
      .bind (.emit _) fun _ => onlyAppends_writeItems (hin n hn tag owner element) items
  next key value entries _ =>
    exact c.onlyAppends_enter fun n hn => (c.onlyAppends_checkLength _ _ _).bind fun _ =>
      .bind (.emit _) fun _ => onlyAppends_writeEntries (hin n hn tag owner key)
        (hin n hn tag owner value) entries
  next => exact .throw _

/-! ## Messages -/

/-- A message is appended. -/
theorem onlyAppends_writeMessage (i : Instance) : OnlyAppends (c.writeMessage i) :=
  .bind (.ofExcept _) fun d => c.onlyAppends_enter fun n _ =>
    c.onlyAppends_writeBody (fun f => c.onlyAppends_writeValue n d.tag f.name f) d i

/-- Encoding into a buffer depends on the instance alone, and leaves the buffer as it was if it
fails: the message, if there is one, is put behind what the buffer holds, and its length is counted;
else the error is that of encoding the instance by itself. -/
theorem encodeInto_eq (buffer : List UInt8) (i : Instance) :
    c.encodeInto buffer i =
      match c.encode i with
      | .ok message => (buffer ++ message, .ok message.length)
      | .error e => (buffer, .error e) := by
  have h := (c.onlyAppends_writeMessage i).eq_behind buffer.toArray
  unfold encode encodeInto
  rw [h]
  cases c.writeMessage i #[] with
  | ok _ grown => simp [Write.behind]
  | error e grown => simp [Write.behind]

/-- The tag and the first text are written before the second one is missed. Neither stays. -/
example :
    let shape : RecordShape := ⟨"T", [⟨"a", .string, false⟩, ⟨"b", .string, false⟩]⟩
    let c : Codec := ⟨⟨[⟨"T", none, shape.fields, (Record.fresh shape).toInstance⟩]⟩, {}⟩
    c.encodeInto [7] (.record shape [.string "x", .null]) =
      ([7], .error (.encoding (.missingField "T" "b"))) := by
  rfl

end Codec

end TagWire
