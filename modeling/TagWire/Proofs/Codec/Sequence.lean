import TagWire.Proofs.Codec.RoundTrip

/-!
# Messages in a row

Nothing marks where a message ends and the next one begins; but a message is found in front of
whatever follows it, and takes exactly its own bytes (`Codec.decodePrefix_message_append`). So
instances that are encoded one after the other into one buffer are found again one after the other,
until the buffer is at its end (`Codec.decodeAll_encodeAllInto`).
-/

namespace TagWire.Codec

variable {c : Codec}

/-! ## All messages of a buffer -/

/-- Appends the messages of instances to a buffer, up to the first that has none, and counts the
bytes of each. -/
def encodeAllInto (c : Codec) (buffer : List UInt8) :
    List Instance → List UInt8 × Except CodecError (List Nat)
  | [] => (buffer, .ok [])
  | i :: is =>
    match c.encodeInto buffer i with
    | (grown, .error e) => (grown, .error e)
    | (grown, .ok n) =>
      let (final, counts) := c.encodeAllInto grown is
      (final, counts.map (n :: ·))

/-- A message takes some bytes. -/
theorem decodePrefix_pos {bytes : List UInt8} {i : Instance} {n : Nat}
    (h : c.decodePrefix bytes = .ok (i, n)) : 0 < n := by
  refine Nat.pos_of_ne_zero fun hn => ?_
  subst hn
  have hnone : c.decodePrefix [] = .ok (i, 0) := (decodePrefix_append h).2 []
  cases hnone

/-- The messages that some bytes are, one after the other, with the number of bytes that each takes.
-/
def decodeAll (c : Codec) (bytes : List UInt8) : Except CodecError (List (Instance × Nat)) :=
  if _ : bytes = [] then .ok []
  else
    match _ : c.decodePrefix bytes with
    | .error e => .error e
    | .ok (i, n) => (c.decodeAll (bytes.drop n)).map ((i, n) :: ·)
termination_by bytes.length
decreasing_by
  have hn := decodePrefix_pos ‹c.decodePrefix bytes = .ok (i, n)›
  have hlength := List.length_pos_iff.2 ‹bytes ≠ []›
  rw [List.length_drop]
  omega

/-- The first message is found, and then those behind it. -/
theorem decodeAll_of_decodePrefix {bytes : List UInt8} {i : Instance} {n : Nat}
    (h : c.decodePrefix bytes = .ok (i, n)) :
    c.decodeAll bytes = (c.decodeAll (bytes.drop n)).map ((i, n) :: ·) := by
  have hbytes : bytes ≠ [] := by
    intro hnil
    subst hnil
    cases h
  rw [decodeAll, dif_neg hbytes]
  split
  next e he => cases h.symm.trans he
  next j m hm => cases h.symm.trans hm; rfl

/-! ## Messages behind each other -/

/-- A buffer grows by the message of an instance that conforms at the root. -/
theorem encodeInto_eq_ok {buffer grown : List UInt8} {i : Instance} {n : Nat} :
    c.encodeInto buffer i = (grown, .ok n) ↔
      c.Conforms i 1 ∧ grown = buffer ++ c.registry.message i ∧
        n = (c.registry.message i).length := by
  have h := c.appends_writeMessage i buffer.toArray
  unfold encodeInto
  cases hw : c.writeMessage i buffer.toArray with
  | ok _ written =>
    obtain ⟨hi, rfl⟩ := (h written).1 hw
    simp [hi, eq_comm]
  | error e written =>
    have hi : ¬c.Conforms i 1 := fun hi => by simpa [hw] using (h _).2 ⟨hi, rfl⟩
    simp [hi]

/-- A buffer grows by the messages of instances that conform at the root. -/
theorem encodeAllInto_eq {is : List Instance} (h : ∀ i ∈ is, c.Conforms i 1)
    (buffer : List UInt8) :
    c.encodeAllInto buffer is = (buffer ++ (is.map c.registry.message).flatten,
      .ok ((is.map c.registry.message).map List.length)) := by
  induction is generalizing buffer with
  | nil => rw [encodeAllInto, List.map_nil, List.flatten_nil, List.append_nil, List.map_nil]
  | cons i is ih =>
    obtain ⟨hi, his⟩ := List.forall_mem_cons.1 h
    rw [encodeAllInto, encodeInto_eq_ok.2 ⟨hi, rfl, rfl⟩]
    simp only [ih his, List.map_cons, List.flatten_cons, List.append_assoc]
    rfl

section
variable (hc : c.registry.Native) (hlength : c.limits.maxLength ≤ maxWireLength)
include hc hlength

/-- The message of a native instance is found in front of whatever follows. -/
theorem decodePrefix_message_append {i : Instance} (hi : i.Native c.registry)
    (hconforms : c.Conforms i 1) (rest : List UInt8) :
    c.decodePrefix (c.registry.message i ++ rest) =
      .ok (i.received c.registry, (c.registry.message i).length) :=
  (decodePrefix_iff hc hlength).2 ⟨i, hi, hconforms, rfl, by simp, by simp⟩

/-- The messages of native instances are found one after the other. -/
theorem decodeAll_messages {is : List Instance} (hnative : ∀ i ∈ is, i.Native c.registry)
    (hconforms : ∀ i ∈ is, c.Conforms i 1) :
    c.decodeAll (is.map c.registry.message).flatten =
      .ok (is.map fun i => (i.received c.registry, (c.registry.message i).length)) := by
  induction is with
  | nil => rw [List.map_nil, List.flatten_nil, decodeAll, dif_pos rfl, List.map_nil]
  | cons i is ih =>
    obtain ⟨hi, his⟩ := List.forall_mem_cons.1 hnative
    obtain ⟨hi', his'⟩ := List.forall_mem_cons.1 hconforms
    rw [List.map_cons, List.flatten_cons,
      decodeAll_of_decodePrefix (decodePrefix_message_append hc hlength hi hi' _), List.drop_left,
      ih his his']
    rfl

/-- Native instances that have a message each are encoded one after the other behind what is in a
buffer. What has been put there is all of their messages, from which they are found again in order,
normalized, each by as many bytes as have been counted when it was encoded. -/
theorem decodeAll_encodeAllInto {is : List Instance} (hnative : ∀ i ∈ is, i.Native c.registry)
    (haccepted : ∀ i ∈ is, ∃ buffer n, (c.encodeInto buffer i).2 = .ok n) (buffer : List UInt8) :
    ∃ messages counts found,
      List.Forall₂ (fun i m => c.encode i = .ok m) is messages ∧
      c.encodeAllInto buffer is = (buffer ++ messages.flatten, .ok counts) ∧
      c.decodeAll ((c.encodeAllInto buffer is).1.drop buffer.length) = .ok found ∧
      List.Forall₂ (fun m i => m.1.Same i.normalized) found is ∧
      found.map Prod.snd = counts := by
  have hconforms : ∀ i ∈ is, c.Conforms i 1 := by
    intro i hi
    obtain ⟨buffer, n, hn⟩ := haccepted i hi
    exact (encodeInto_eq_ok.1 (Prod.ext rfl hn)).1
  have hencoded := encodeAllInto_eq hconforms buffer
  have hdecoded := decodeAll_messages hc hlength hnative hconforms
  rw [hencoded, List.drop_left]
  refine ⟨_, _, _, ?_, rfl, hdecoded, ?_, ?_⟩
  · rw [List.forall₂_map_right_iff, List.forall₂_same]
    exact fun i hi => c.encode_eq_ok.2 ⟨hconforms i hi, rfl⟩
  · rw [List.forall₂_map_left_iff, List.forall₂_same]
    exact fun i _ => i.received_same c.registry
  · rw [List.map_map, List.map_map]
    rfl

end

/-- A folder and a user behind a byte of something else are found again, the folder with one
separator less in front of the file name. -/
theorem decodeAll_encodeAllInto_folderOf : ∃ j k m n,
    (Codec.mk folderRegistry {}).decodeAll (((Codec.mk folderRegistry {}).encodeAllInto [0xFF]
      [folderOf "//a", .entity (.user ⟨some "b"⟩)]).1.drop 1) = .ok [(j, m), (k, n)] ∧
    j.Same (folderOf "/a") ∧ k.Same (.entity (.user ⟨some "b"⟩)) := by
  have hfolder : (folderOf "//a").Native folderRegistry :=
    ⟨⟨folder, rfl, rfl, rfl⟩, ⟨trivial, trivial⟩, trivial, trivial⟩
  have hnative : ∀ i ∈ [folderOf "//a", .entity (.user ⟨some "b"⟩)], i.Native folderRegistry := by
    simp only [List.forall_mem_cons]
    exact ⟨hfolder, trivial, List.forall_mem_nil _⟩
  have haccepted : ∀ i ∈ [folderOf "//a", .entity (.user ⟨some "b"⟩)],
      ∃ buffer n, ((Codec.mk folderRegistry {}).encodeInto buffer i).2 = .ok n := by
    simp only [List.forall_mem_cons]
    exact ⟨⟨[], _, rfl⟩, ⟨[], _, rfl⟩, List.forall_mem_nil _⟩
  obtain ⟨_, _, found, -, -, hfound, hsame, -⟩ :=
    decodeAll_encodeAllInto native_folderRegistry (by decide) hnative haccepted [0xFF]
  rcases hsame with _ | @⟨m, _, _, _, hj, hsame⟩
  rcases hsame with _ | @⟨m', _, _, _, hk, hsame⟩
  cases hsame
  exact ⟨m.1, m'.1, m.2, m'.2, hfound, hj, hk⟩

end TagWire.Codec
