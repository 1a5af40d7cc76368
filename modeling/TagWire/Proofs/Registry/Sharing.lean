import Mathlib.Data.List.Induction
import TagWire.Proofs.Registry.Registration
import TagWire.Registry.Shared

/-!
# A shared registry against one that is not

A program makes `SharedRegistry.Call`s, one after the other, each of which is answered and reported
in a journal. Whatever has been called, the current registry is the one that was installed last,
with the types that have been registered since (`SharedRegistry.registerAll_lastInstalled`), and the
next call is answered by what is in that registry alone. Freezing adds a warning to the report of
each later change and has no other effect (`SharedRegistry.run_thawed`). In memory every registry
that becomes current has a place of its own, to which no later call writes, so whoever has asked for
the current registry keeps what was current then (`SharedRegistry.Memory.getElem?_run`). All of this
together is `SharedRegistry.run_refines`.
-/

namespace TagWire

open TagWire.Localization (EntityType)

/-- A type can be registered behind others that have been registered in a row. -/
theorem Registry.registerAll_concat {r s t : Registry} {ds : List Descriptor} {d : Descriptor}
    (hds : r.registerAll ds = (s, .ok ())) (hd : s.register d = .ok t) :
    r.registerAll (ds ++ [d]) = (t, .ok ()) := by
  induction ds generalizing r with
  | nil =>
    cases hds
    exact registerAll_cons_eq_ok.2 ⟨t, hd, rfl⟩
  | cons e ds ih =>
    obtain ⟨r', he, hds⟩ := registerAll_cons_eq_ok.1 hds
    exact registerAll_cons_eq_ok.2 ⟨r', he, ih hds⟩

namespace SharedRegistry

/-! ## Calls -/

/-- What a program can ask of the shared registry. -/
inductive Call where
  | install (r : Registry)
  | register (d : Descriptor)
  | registerType (t : EntityType)
  | freeze
  /-- Asks for the current registry. -/
  | snapshot

/-- What a call answers. -/
inductive Answer where
  | done
  | registered (result : Except RegistryError Unit)
  | snapshot (r : Registry)

namespace Call

/-- Whether a call freezes the registry. -/
def isFreeze : Call → Bool
  | freeze => true
  | _ => false

/-- Whether a call is meant to change the registry, even if it fails. -/
def isChange : Call → Bool
  | install _ | register _ | registerType _ => true
  | freeze | snapshot => false

/-- What holds of calls is shown of a localization type by what holds of its descriptor. -/
@[elab_as_elim]
theorem descriptorInduction {P : Call → Prop} (c : Call) (install : ∀ r, P (.install r))
    (register : ∀ d, P (.register d))
    (registerType : ∀ t : EntityType, P (.register t.descriptor) → P (.registerType t))
    (freeze : P .freeze) (snapshot : P .snapshot) : P c := by
  cases c with
  | install r => exact install r
  | register d => exact register d
  | registerType t => exact registerType t (register t.descriptor)
  | freeze => exact freeze
  | snapshot => exact snapshot

/-- What a registry answers if it is all that there is. -/
def answer (r : Registry) : Call → Answer
  | install _ | freeze => .done
  | register d => .registered ((r.register d).map fun _ => ())
  | registerType t => .registered ((r.register t.descriptor).map fun _ => ())
  | snapshot => .snapshot r

end Call

/-- What a call does: the state behind it, the events that it reports, and its answer. -/
def call (s : SharedRegistry) : Call → SharedRegistry × List Event × Answer
  | .install r =>
    let (s, events) := s.install r
    (s, events, .done)
  | .register d =>
    let (s, events, result) := s.register d
    (s, events, .registered result)
  | .registerType t =>
    let (s, events, result) := s.registerType t
    (s, events, .registered result)
  | .freeze =>
    let (s, events) := s.freeze
    (s, events, .done)
  | .snapshot => (s, [], .snapshot s.current)

/-- Calls one after the other: the state behind them, and each of them with its answer. -/
def run (s : SharedRegistry) : List Call → SharedRegistry × List (Call × Answer)
  | [] => (s, [])
  | c :: cs =>
    let (s, _, answer) := s.call c
    let (s, history) := s.run cs
    (s, (c, answer) :: history)

/-- The registry that was installed last and the types that have been registered since, with one
call more. -/
def since : Registry × List Descriptor → Call × Answer → Registry × List Descriptor
  | _, (.install r, _) => (r, [])
  | (r, ds), (.register d, .registered (.ok ())) => (r, ds ++ [d])
  | (r, ds), (.registerType t, .registered (.ok ())) => (r, ds ++ [t.descriptor])
  | before, _ => before

/-- The registry that was installed last, which is empty if there is none, and the types that have
been registered since. -/
def lastInstalled (history : List (Call × Answer)) : Registry × List Descriptor :=
  history.foldl since (∅, [])

variable {s : SharedRegistry}

/-- A registration is answered by the current registry, which it replaces if it succeeds. -/
theorem call_register (s : SharedRegistry) (d : Descriptor) : s.call (.register d) =
    match s.current.register d with
    | .ok r => ({ s with current := r }, s.warning (.lateRegistration d.tag) ++ [.ofDescriptor d],
        .registered (.ok ()))
    | .error e => (s, s.warning (.lateRegistration d.tag), .registered (.error e)) := by
  simp only [call, register]
  cases s.current.register d <;> rfl

/-- Calls are answered by the current registry alone. -/
theorem answer_call (s : SharedRegistry) (c : Call) : (s.call c).2.2 = c.answer s.current := by
  induction c using Call.descriptorInduction with
  | install | freeze | snapshot => rfl
  | register d =>
    rw [call_register, Call.answer]
    cases s.current.register d <;> rfl
  | registerType _ hregister => exact hregister

/-- One call freezes the registry, the others leave it as it is. -/
theorem frozen_call (s : SharedRegistry) (c : Call) :
    (s.call c).1.frozen = (s.frozen || c.isFreeze) := by
  induction c using Call.descriptorInduction with
  | install | snapshot => exact (Bool.or_false _).symm
  | register d =>
    rw [call_register]
    cases s.current.register d <;> exact (Bool.or_false _).symm
  | registerType _ hregister => exact hregister
  | freeze => exact (Bool.or_true _).symm

/-- A call, and then others. -/
theorem run_cons (s : SharedRegistry) (c : Call) (cs : List Call) : s.run (c :: cs) =
    (((s.call c).1.run cs).1, (c, (s.call c).2.2) :: ((s.call c).1.run cs).2) := rfl

/-- Calls one after the other, and then others. -/
theorem run_append (s : SharedRegistry) (cs cs' : List Call) : s.run (cs ++ cs') =
    (((s.run cs).1.run cs').1, (s.run cs).2 ++ ((s.run cs).1.run cs').2) := by
  induction cs generalizing s with
  | nil => rfl
  | cons c cs ih =>
    rw [List.cons_append, run_cons, run_cons, ih]
    rfl

/-- Calls one after the other, and then one more. -/
theorem run_concat (s : SharedRegistry) (cs : List Call) (c : Call) : s.run (cs ++ [c]) =
    (((s.run cs).1.call c).1, (s.run cs).2 ++ [(c, ((s.run cs).1.call c).2.2)]) := by
  rw [run_append]
  rfl

/-! ## What is current -/

/-- A localization type counts as its descriptor. -/
theorem since_registerType (before : Registry × List Descriptor) (t : EntityType) (a : Answer) :
    since before (.registerType t, a) = since before (.register t.descriptor, a) := by
  rcases a with _ | (_ | ⟨⟩) | _ <;> rfl

/-- A call keeps the current registry what registering in a row makes of the one that was installed
last. -/
theorem registerAll_since {r : Registry} {ds : List Descriptor}
    (h : r.registerAll ds = (s.current, .ok ())) (c : Call) :
    (since (r, ds) (c, (s.call c).2.2)).1.registerAll (since (r, ds) (c, (s.call c).2.2)).2 =
      ((s.call c).1.current, .ok ()) := by
  induction c using Call.descriptorInduction with
  | install => rfl
  | freeze | snapshot => exact h
  | register d =>
    rw [call_register]
    cases hd : s.current.register d with
    | ok => exact Registry.registerAll_concat h hd
    | error => exact h
  | registerType t hregister =>
    rw [since_registerType]
    exact hregister

/-- The current registry is what registering in a row makes of the one that was installed last. -/
theorem registerAll_lastInstalled (calls : List Call) :
    (lastInstalled (run {} calls).2).1.registerAll (lastInstalled (run {} calls).2).2 =
      ((run {} calls).1.current, .ok ()) := by
  induction calls using List.reverseRecOn with
  | nil => rfl
  | append_singleton calls c ih =>
    rw [run_concat, lastInstalled, List.foldl_append]
    exact registerAll_since ih c

/-- The registry is frozen from the first call to freeze it on. -/
theorem frozen_run (s : SharedRegistry) (calls : List Call) :
    (s.run calls).1.frozen = (s.frozen || calls.any Call.isFreeze) := by
  induction calls generalizing s with
  | nil => exact (Bool.or_false _).symm
  | cons c calls ih =>
    rw [run_cons, ih, frozen_call, Bool.or_assoc, List.any_cons]

/-- A registration that fails leaves everything as it is. -/
theorem call_eq_self_of_error {c : Call} {e : RegistryError}
    (h : (s.call c).2.2 = .registered (.error e)) : (s.call c).1 = s := by
  induction c using Call.descriptorInduction with
  | install | freeze | snapshot => cases h
  | register d =>
    rw [call_register] at h ⊢
    cases hd : s.current.register d with
    | ok r =>
      rw [hd] at h
      cases h
    | error => rfl
  | registerType _ hregister => exact hregister h

/-! ## What freezing changes -/

/-- The registry as if it had never been frozen. -/
def thawed (s : SharedRegistry) : SharedRegistry := { s with frozen := false }

/-- Calls other than freezing do the same whether the registry is frozen or not, and report the same
but for warnings. -/
theorem thawed_call (s : SharedRegistry) {c : Call} (hc : c.isFreeze = false) : s.thawed.call c =
    ((s.call c).1.thawed, (s.call c).2.1.filter (·.level ≠ .warn), (s.call c).2.2) := by
  have hwarning {e : Event} (he : e.level = .warn) (events : List Event)
      (hevents : events.filter (·.level ≠ .warn) = events) :
      (s.warning e ++ events).filter (·.level ≠ .warn) = events := by
    rw [List.filter_append, hevents, warning]
    split <;> simp [he]
  induction c using Call.descriptorInduction with
  | install r =>
    dsimp only [call, install]
    rw [hwarning rfl [.installed r.size] rfl]
    rfl
  | register d =>
    rw [call_register, call_register, show s.thawed.current = s.current from rfl]
    cases s.current.register d with
    | ok r =>
      dsimp only
      rw [hwarning rfl [.ofDescriptor d] rfl]
      rfl
    | error e =>
      have hnone := hwarning (e := .lateRegistration d.tag) rfl [] rfl
      rw [List.append_nil] at hnone
      dsimp only
      rw [hnone]
      rfl
  | registerType _ hregister => exact hregister hc
  | snapshot => rfl
  | freeze => cases hc

/-- Each change of a frozen registry is reported with one warning, and nothing else is. -/
theorem countP_warn_call (s : SharedRegistry) (c : Call) :
    (s.call c).2.1.countP (·.level = .warn) = if s.frozen && c.isChange then 1 else 0 := by
  have hwarning {e : Event} (he : e.level = .warn) (events : List Event)
      (hevents : events.countP (·.level = .warn) = 0) :
      (s.warning e ++ events).countP (·.level = .warn) = if s.frozen then 1 else 0 := by
    rw [List.countP_append, hevents, warning]
    split <;> simp [he]
  induction c using Call.descriptorInduction with
  | install r =>
    rw [Call.isChange, Bool.and_true]
    exact hwarning rfl _ rfl
  | register d =>
    rw [Call.isChange, Bool.and_true, call_register]
    cases s.current.register d with
    | ok => exact hwarning rfl _ rfl
    | error =>
      have hnone := hwarning (e := .lateRegistration d.tag) rfl [] rfl
      rwa [List.append_nil] at hnone
  | registerType _ hregister => exact hregister
  | snapshot =>
    rw [Call.isChange, Bool.and_false]
    rfl
  | freeze =>
    rw [Call.isChange, Bool.and_false]
    dsimp only [call, freeze]
    split <;> rfl

/-- Without the calls to freeze the registry, the others change and answer the same. -/
theorem run_thawed (calls : List Call) : run {} (calls.filter (!·.isFreeze)) =
    ((run {} calls).1.thawed, (run {} calls).2.filter (!·.1.isFreeze)) := by
  induction calls using List.reverseRecOn with
  | nil => rfl
  | append_singleton calls c ih =>
    rw [List.filter_append, run_concat, List.filter_append]
    cases hc : c.isFreeze with
    | true =>
      cases c with
      | freeze => simp [hc, ih, call, freeze, thawed]
      | install | register | registerType | snapshot => cases hc
    | false => simp [hc, run_concat, ih, thawed_call _ hc]

/-! ## In memory -/

/-- The memory behind a shared registry: every registry that has become current, each in a place of
its own, and the place of the one that is current. -/
structure Memory where
  cells : List Registry := [∅]
  current : Nat := 0

namespace Memory

variable {m : Memory}

/-- Makes a registry current, in a new place. -/
def publish (m : Memory) (r : Registry) : Memory :=
  { cells := m.cells ++ [r], current := m.cells.length }

/-- Registers a type in a copy of the current registry, which becomes current if that succeeds. -/
def register (m : Memory) (d : Descriptor) : Memory :=
  match m.cells[m.current]? with
  | some r =>
    match r.register d with
    | .ok r => m.publish r
    | .error _ => m
  | none => m

/-- What a call does to memory. -/
def call (m : Memory) : Call → Memory
  | .install r => m.publish r
  | .register d => m.register d
  | .registerType t => m.register t.descriptor
  | .freeze | .snapshot => m

/-- What calls do to memory, one after the other. -/
def run (m : Memory) (calls : List Call) : Memory := calls.foldl call m

/-- Whether the registry in the current place is the one that is current. -/
def Holds (m : Memory) (s : SharedRegistry) : Prop := m.cells[m.current]? = some s.current

/-- What has been published is in the current place. -/
theorem getElem?_publish (m : Memory) (r : Registry) :
    (m.publish r).cells[(m.publish r).current]? = some r :=
  List.getElem?_concat_length

/-- Each call leaves the registry that is current in the current place. -/
theorem Holds.call (h : m.Holds s) (c : Call) : (m.call c).Holds (s.call c).1 := by
  induction c using Call.descriptorInduction with
  | install r => exact getElem?_publish m r
  | register d =>
    have hcurrent : m.cells[m.current]? = some s.current := h
    rw [call_register, Memory.call, register, hcurrent]
    dsimp only
    cases s.current.register d with
    | ok r => exact getElem?_publish m r
    | error => exact h
  | registerType _ hregister => exact hregister
  | freeze | snapshot => exact h

/-- Each sequence of calls leaves the registry that is current in the current place. -/
theorem Holds.run (h : m.Holds s) (calls : List Call) : (m.run calls).Holds (s.run calls).1 := by
  induction calls generalizing m s with
  | nil => exact h
  | cons c calls ih => exact ih (h.call c)

/-- No call writes to a place that is in use. -/
theorem cells_prefix_call (m : Memory) (c : Call) : m.cells <+: (m.call c).cells := by
  induction c using Call.descriptorInduction with
  | install r => exact List.prefix_append ..
  | register d =>
    rw [call, register]
    cases m.cells[m.current]? with
    | none => exact List.prefix_rfl
    | some r =>
      dsimp only
      cases r.register d with
      | ok r' => exact List.prefix_append ..
      | error => exact List.prefix_rfl
  | registerType _ hregister => exact hregister
  | freeze | snapshot => exact List.prefix_rfl

/-- No sequence of calls writes to a place that is in use. -/
theorem cells_prefix_run (m : Memory) (calls : List Call) : m.cells <+: (m.run calls).cells := by
  induction calls generalizing m with
  | nil => exact List.prefix_rfl
  | cons c calls ih => exact (cells_prefix_call m c).trans (ih (m.call c))

/-- The place that has been current keeps what was current then, whatever is called later. -/
theorem getElem?_run (calls later : List Call) :
    (run {} (calls ++ later)).cells[(run {} calls).current]? =
      some (SharedRegistry.run {} calls).1.current := by
  have hstart : Holds {} {} := rfl
  obtain ⟨hbound, hcurrent⟩ := List.getElem?_eq_some_iff.1 (hstart.run calls)
  have hprefix := cells_prefix_run (run {} calls) later
  rw [run, List.foldl_append, ← hcurrent]
  exact List.prefix_iff_getElem?.1 hprefix _ hbound

end Memory

/-! ## All of it -/

/-- Behind any calls, the current registry is what registering in a row makes of the one that was
installed last, and the next call is answered by it alone. A registration that fails changes
nothing, and what is current now stays in its place in memory, whatever is called later. The
registry is frozen from the first call to freeze it on. Without such calls, the others are answered
and reported just the same, but for the one warning about each change that comes late. -/
theorem run_refines (calls : List Call) (c : Call) :
    let s := (run {} calls).1
    let history := (run {} calls).2
    let never := run {} (calls.filter (!·.isFreeze))
    (lastInstalled history).1.registerAll (lastInstalled history).2 = (s.current, .ok ()) ∧
      (s.call c).2.2 = c.answer s.current ∧
      (∀ e, (s.call c).2.2 = .registered (.error e) → (s.call c).1 = s) ∧
      (∀ later, (Memory.run {} (calls ++ later)).cells[(Memory.run {} calls).current]? =
        some s.current) ∧
      (s.frozen = true ↔ ∃ c ∈ calls, c.isFreeze = true) ∧
      never.1.current = s.current ∧ never.2 = history.filter (!·.1.isFreeze) ∧
      (c.isFreeze = false → never.1.call c =
        ((s.call c).1.thawed, (s.call c).2.1.filter (·.level ≠ .warn), (s.call c).2.2)) ∧
      (s.call c).2.1.countP (·.level = .warn) = if s.frozen && c.isChange then 1 else 0 := by
  intro s history never
  have hnever : never = (s.thawed, history.filter (!·.1.isFreeze)) := run_thawed calls
  refine ⟨registerAll_lastInstalled calls, answer_call s c, fun e => call_eq_self_of_error,
    Memory.getElem?_run calls, ?_, ?_, ?_, ?_, countP_warn_call s c⟩
  · rw [show s.frozen = (false || calls.any Call.isFreeze) from frozen_run {} calls,
      Bool.false_or, List.any_eq_true]
  · rw [hnever]
    rfl
  · rw [hnever]
  · rw [hnever]
    exact thawed_call s

/-- A late registration of users, who are registered already, is refused with one warning. -/
theorem run_refines_user :
    let s := (run {} [.registerType .user, .freeze]).1
    ∃ e, (s.call (.registerType .user)).2.2 = .registered (.error e) ∧
      (s.call (.registerType .user)).1 = s ∧
      (s.call (.registerType .user)).2.1.countP (·.level = .warn) = 1 := by
  intro s
  obtain ⟨-, -, hrefused, -, -, -, -, -, hwarnings⟩ :=
    run_refines [.registerType .user, .freeze] (.registerType .user)
  exact ⟨.duplicateType EntityType.user.tag, rfl, hrefused _ rfl, hwarnings⟩

end SharedRegistry

end TagWire
