import TagWire.Command.Outcome
import TagWire.Proofs.Catalog.WellFormed
import TagWire.Proofs.Codec.Peers

/-!
# Registries that commands load

A command works with the types of a catalog, with the localization types, or with both
(`Registry.Loaded`, `Command.loaded_of_load`). Such a registry is native, and if any of the
localization types is in it, all of them are (`Registry.Loaded.family`): a catalog declares types of
records only.
-/

namespace TagWire

open TagWire.Localization (EntityType)

/-! ## Types of catalogs -/

namespace Catalog

variable {r s : Registry} {types : List TypeEntry} {d : Descriptor}

/-- What has not been there before is a type of records. -/
theorem mem_or_ofRecords_of_stage (h : stage r types = (s, .ok ())) (hd : d ∈ s.types) :
    d ∈ r.types ∨ d.OfRecords := by
  obtain ⟨new, hs, hdeclares⟩ := declares_of_stage h
  rw [hs] at hd
  rcases List.mem_append.1 hd with hd | hd
  · exact .inl hd
  · obtain ⟨t, -, ht⟩ := List.Forall₂.exists_of_mem_right hdeclares hd
    exact .inr ht.ofRecords

/-- Types in a row keep a registry native. -/
theorem native_of_stage (hr : r.Native) (h : stage r types = (s, .ok ())) : s.Native := by
  induction types using List.reverseRecOn generalizing s with
  | nil =>
    cases h
    exact hr
  | append_singleton types t ih =>
    obtain ⟨s₀, htypes, ht⟩ := stage_concat_eq_ok.1 h
    obtain ⟨d, hd, -, hreg⟩ := TypeEntry.register_eq_ok_iff.1 ht
    exact .records (ih htypes) hd.ofRecords hreg

end Catalog

/-! ## Loaded registries -/

namespace Registry

/-- Localization types in a row keep a registry native. -/
theorem Native.registerAll {r r' : Registry} {ts : List EntityType} (h : r.Native)
    (hts : r.registerAll (ts.map EntityType.descriptor) = (r', .ok ())) : r'.Native := by
  induction ts generalizing r with
  | nil =>
    cases hts
    exact h
  | cons t ts ih =>
    obtain ⟨s, ht, hts⟩ := registerAll_cons_eq_ok.1 hts
    exact ih (.entities h ht) hts

/-- Whether a registry is one that a command works with: the types of a catalog, behind all of the
localization types or none of them, complete as a whole. -/
def Loaded (r : Registry) : Prop :=
  ∃ (base : Registry) (catalog : Catalog),
    (base = ∅ ∨ registerLocalization ∅ = (base, .ok ())) ∧ catalog.extend base = .ok r

namespace Loaded

variable {r : Registry}

/-- A loaded registry is native. -/
theorem native (h : r.Loaded) : r.Native := by
  obtain ⟨base, catalog, hbase, hextend⟩ := h
  obtain ⟨hstage, -⟩ := Catalog.extend_eq_ok_iff.1 hextend
  rcases hbase with rfl | hbase
  · exact Catalog.native_of_stage .empty hstage
  · exact Catalog.native_of_stage (Native.empty.registerAll hbase) hstage

/-- With one localization type, all of them are loaded. -/
theorem family (h : r.Loaded) {t : EntityType} (ht : t.descriptor ∈ r.types) (t' : EntityType) :
    t'.descriptor ∈ r.types := by
  obtain ⟨base, catalog, hbase, hextend⟩ := h
  obtain ⟨hstage, -⟩ := Catalog.extend_eq_ok_iff.1 hextend
  rcases hbase with rfl | hbase
  · rcases Catalog.mem_or_ofRecords_of_stage hstage ht with ht | ht
    · cases ht
    · exact absurd ht t.not_ofRecords
  · rw [registerLocalization_empty] at hbase
    cases hbase
    have hmem : t'.descriptor ∈ entities.types :=
      List.mem_map_of_mem (by cases t' <;> decide : t' ∈ EntityType.all)
    exact (Catalog.types_prefix_of_stage hstage).mem hmem

end Loaded

end Registry

/-! ## Loading -/

namespace Command

section
variable {ε α β : Type}

/-- A success of two tasks in a row is a success of each. -/
theorem run_bind_eq_ok {x : Work Id α} {f : α → Work Id β} {b : β} :
    (x >>= f).run = Except.ok b ↔ ∃ a, x.run = Except.ok a ∧ (f a).run = Except.ok b := by
  rw [ExceptT.run_bind]
  cases x.run with
  | ok a => exact ⟨fun h => ⟨a, rfl, h⟩, fun ⟨_, ha, h⟩ => by cases ha; exact h⟩
  | error e => exact ⟨nofun, nofun⟩

/-- A result that a task goes on with is a success. -/
theorem run_orFail_eq_ok {chain : ε → List String} {x : Except ε α} {a : α} :
    (orFail chain x : Work Id α).run = Except.ok a ↔ x = .ok a := by
  cases x with
  | ok a' => exact ⟨fun h => by cases h; rfl, fun h => by cases h; rfl⟩
  | error e => exact ⟨nofun, nofun⟩

end

/-- A command works with a registry that is loaded, whatever its files hold. -/
theorem loaded_of_load {files : Files Id} {setting : String → Option String} {s : Source}
    {codec : Codec} (h : (load files setting s).run = Except.ok codec) :
    codec.registry.Loaded := by
  have hfamily := Registry.registerLocalization_empty
  obtain ⟨catalog?, builtin⟩ := s
  unfold load at h
  cases catalog? with
  | none =>
    simp only [Option.isNone_none, Bool.or_true, if_true] at h
    obtain ⟨_, -, h⟩ := run_bind_eq_ok.1 h
    obtain ⟨_, hvalid, h⟩ := run_bind_eq_ok.1 h
    cases h
    have hvalid := run_orFail_eq_ok.1 hvalid
    exact ⟨_, {}, .inr hfamily, Catalog.extend_eq_ok_iff.2 ⟨rfl, hvalid⟩⟩
  | some path =>
    cases builtin with
    | true =>
      simp only [Bool.true_or, if_true] at h
      obtain ⟨_, -, h⟩ := run_bind_eq_ok.1 h
      obtain ⟨catalog, -, h⟩ := run_bind_eq_ok.1 h
      obtain ⟨extended, hextend, h⟩ := run_bind_eq_ok.1 h
      cases h
      exact ⟨_, catalog, .inr hfamily, run_orFail_eq_ok.1 hextend⟩
    | false =>
      simp only [Option.isNone_some, Bool.or_false, Bool.false_eq_true, if_false] at h
      obtain ⟨catalog, -, h⟩ := run_bind_eq_ok.1 h
      obtain ⟨extended, hextend, h⟩ := run_bind_eq_ok.1 h
      cases h
      exact ⟨_, catalog, .inl rfl, run_orFail_eq_ok.1 hextend⟩

end Command

end TagWire
