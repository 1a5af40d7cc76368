import TagWire.Proofs.Codec.Acceptance

/-!
# Round trips

What is encoded is decoded to the same tree, except that stream requests drop a separator in front
of their file names (`Codec.decode_encode`). Values come back bit by bit, also those that no number
equals, and every record and entity comes back as what it was.
-/

namespace TagWire

open TagWire.Localization (EntityType)

namespace Codec

/-- What is encoded under a native registry decodes to the same tree, normalized. -/
theorem decode_encode {c : Codec} (hc : c.registry.Native)
    (hlength : c.limits.maxLength ≤ maxWireLength) {i : Instance} (hi : i.Native c.registry)
    {bytes : List UInt8} (h : c.encode i = .ok bytes) :
    ∃ j, c.decode bytes = .ok j ∧ j.Same i.normalized := by
  obtain ⟨hconforms, rfl⟩ := c.encode_eq_ok.1 h
  exact ⟨i.received c.registry, (decode_iff hc hlength).2 ⟨i, hi, hconforms, rfl, rfl⟩,
    i.received_same c.registry⟩

/-- A folder of stream requests with a ratio: a type of records that refers to an entity type. -/
def folder : Descriptor :=
  let fields : List Field :=
    [⟨"requests", .list ⟨"item", .nested "LocalizationStreamRequest", false⟩, false⟩,
      ⟨"ratio", .scalar .f64, true⟩]
  ⟨"Folder", none, fields, (Record.fresh ⟨"Folder", fields⟩).toInstance⟩

/-- The types that a folder is made of. -/
def folderRegistry : Registry :=
  ⟨[EntityType.user.descriptor, folder, EntityType.streamRequest.descriptor]⟩

/-- The types that a folder is made of have been registered. -/
theorem native_folderRegistry : folderRegistry.Native := by
  have huser : Registry.Native ⟨[EntityType.user.descriptor]⟩ := .entities (t := .user) .empty rfl
  have hfolder : Registry.Native ⟨[EntityType.user.descriptor, folder]⟩ :=
    .records (d := folder) huser rfl rfl
  exact .entities (t := .streamRequest) hfolder rfl

/-- A folder with one request, for a file of some name, and a ratio that is not a number. -/
def folderOf (name : String) : Instance :=
  .record ⟨"Folder", []⟩
    [.list [.nested (.entity (.streamRequest { fileName := some name }))],
      .scalar (.f64 ⟨0x7FF8000000000001⟩)]

/-- A folder comes back with one separator less in front of the file name. -/
theorem decode_encode_folderOf :
    ∃ bytes j, (Codec.mk folderRegistry {}).encode (folderOf "//a") = .ok bytes ∧
      (Codec.mk folderRegistry {}).decode bytes = .ok j ∧ j.Same (folderOf "/a") := by
  have hnative : (folderOf "//a").Native folderRegistry :=
    ⟨⟨folder, rfl, rfl, rfl⟩, ⟨trivial, trivial⟩, trivial, trivial⟩
  obtain ⟨bytes, hbytes⟩ : ∃ bytes,
      (Codec.mk folderRegistry {}).encode (folderOf "//a") = .ok bytes := ⟨_, rfl⟩
  obtain ⟨j, hj, hsame⟩ := decode_encode native_folderRegistry (by decide) hnative hbytes
  exact ⟨bytes, j, hbytes, hj, hsame⟩

end Codec

end TagWire
