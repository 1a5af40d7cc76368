import TagWire.Proofs.Json.Importing

/-!
# Members and fields

What the members of an object have to do with the fields of the instance that is made of it. Each
member is that of a field, and a field without a member keeps what it holds in a fresh instance
(`Registry.Fills`). That is so of every object that is read on the way. Steps lead down a JSON value
to what is read there (`Registry.Leads`), and down the instance to what has been made of it
(`Value.at?`); what one step finds has been made of the JSON there (`Registry.Made.child`), and so
by induction on the steps has what is found at the end (`Registry.Leads.made`).
-/

namespace TagWire

/-- A step down a value. -/
inductive Value.Step where
  | item (n : Nat)
  | key (n : Nat)
  | value (n : Nat)
  | field (n : Nat)

/-- The value that a step leads to. -/
def Value.child? : Value → Step → Option Value
  | .list vs, .item n => vs[n]?
  | .map es, .key n => es[n]?.map Prod.fst
  | .map es, .value n => es[n]?.map Prod.snd
  | .nested i, .field n => i.value? n
  | _, _ => none

/-- The value that steps lead to. -/
def Value.at? (v : Value) (path : List Step) : Option Value := path.foldlM child? v

namespace Registry

/-- Whether a descriptor is that of the type which an object is of where a type is declared. -/
def Resolves (r : Registry) (declared : String) (members : List (String × Json)) (d : Descriptor) :
    Prop :=
  r.lookup d.tag = .ok d ∧ Json.Names members declared d.tag

/-- Whether an instance goes with the members of an object: apart from the one that names the type
each of them is that of a field, and a field without a member is as in a fresh instance. -/
def Fills (r : Registry) (declared : String) (members : List (String × Json)) (i : Instance) :
    Prop :=
  ∃ d, r.Resolves declared members d ∧
    (∀ m ∈ members, m.1 ≠ Json.typeName → ∃ f ∈ d.fields, f.name = m.1) ∧
    ∀ k f, d.fields[k]? = some f → Json.member? members f.name = none →
      i.value? k = d.prototype.value? k

/-- Whether a step down JSON that is read in the place of a field of some kind leads to JSON that is
read in the place of a field of some kind. -/
inductive Child (r : Registry) : FieldKind → Json → Value.Step → FieldKind → Json → Prop
  | item {element : Field} {js : List Json} {n : Nat} {j : Json} : js[n]? = some j →
      Child r (.list element) (.array js) (.item n) element.kind j
  | key {key value : Field} {js : List Json} {n : Nat} {jk jv : Json} :
      js[n]? = some (.array [jk, jv]) → Child r (.map key value) (.array js) (.key n) key.kind jk
  | value {key value : Field} {js : List Json} {n : Nat} {jk jv : Json} :
      js[n]? = some (.array [jk, jv]) →
      Child r (.map key value) (.array js) (.value n) value.kind jv
  | field {declared : String} {members : List (String × Json)} {d : Descriptor} {n : Nat}
      {f : Field} {j : Json} : r.Resolves declared members d → d.fields[n]? = some f →
      Json.member? members f.name = some j →
      Child r (.nested declared) (.object members) (.field n) f.kind j

/-- Whether steps in a row lead there. -/
inductive Leads (r : Registry) : FieldKind → Json → List Value.Step → FieldKind → Json → Prop
  | nil (kind : FieldKind) (j : Json) : Leads r kind j [] kind j
  | cons {kind kind' kind'' : FieldKind} {j j' j'' : Json} {s : Value.Step}
      {path : List Value.Step} : r.Child kind j s kind' j' → Leads r kind' j' path kind'' j'' →
      Leads r kind j (s :: path) kind'' j''

variable {r : Registry} {declared : String} {members : List (String × Json)} {d : Descriptor}
  {i i' : Instance}

/-! ## What a success is made of -/

/-- A descriptor is found under its own tag. -/
theorem tag_of_lookup {tag : String} (h : r.lookup tag = .ok d) : d.tag = tag := by
  unfold lookup at h
  split at h
  next hd =>
    cases h
    exact (mem_of_get? hd).2
  next => cases h

/-- One descriptor at most is that of the type which an object is of. -/
theorem Resolves.eq {e : Descriptor} (h : r.Resolves declared members d)
    (h' : r.Resolves declared members e) : d = e := by
  obtain ⟨hd, hnames⟩ := h
  obtain ⟨he, hnames'⟩ := h'
  have htag : d.tag = e.tag := by
    unfold Json.Names at hnames hnames'
    split at hnames
    next hnone =>
      rw [hnone] at hnames'
      exact hnames.trans hnames'.symm
    next hsome =>
      rw [hsome] at hnames'
      exact Json.text.inj (hnames.symm.trans hnames')
  rw [htag, he] at hd
  exact (Except.ok.inj hd).symm

/-- A type is made an instance of exactly if it is the one named, and assignable to the declared
one. -/
theorem concreteTag_eq_ok_iff {tag : String} : r.concreteTag declared members = .ok tag ↔
    Json.Names members declared tag ∧ r.isAssignable tag declared = true := by
  refine ⟨names_of_concreteTag, ?_⟩
  rintro ⟨hnames, hto⟩
  unfold Json.Names at hnames
  unfold concreteTag
  split at hnames
  next hnone => rw [hnone, hnames]
  next hsome =>
    rw [hsome, hnames]
    exact if_pos hto

/-- No member is unknown exactly if each, apart from the one that names the type, is that of a
field. -/
theorem unknownMember?_eq_none_iff : unknownMember? d members = none ↔
    ∀ m ∈ members, m.1 ≠ Json.typeName → ∃ f ∈ d.fields, f.name = m.1 := by
  simp [unknownMember?, Descriptor.field?]

/-- An instance is made of an object if this is of a registered type which is assignable to the
declared one, has no unknown members and has members that can be stored. -/
theorem ofMembers_eq_ok_iff {readers : List (String × FieldReader)} :
    r.ofMembers declared members readers = .ok i ↔
      ∃ d, r.Resolves declared members d ∧ r.isAssignable d.tag declared = true ∧
        unknownMember? d members = none ∧
        storeMembers d.tag readers 0 d.fields d.prototype = .ok i := by
  rw [ofMembers, Except.bind_eq_ok]
  refine ⟨?_, ?_⟩
  · rintro ⟨tag, htag, h⟩
    obtain ⟨hnames, hto⟩ := concreteTag_eq_ok_iff.1 htag
    split at h
    next => cases h
    next d hd =>
      obtain rfl := tag_of_lookup hd
      split at h
      next => cases h
      next hknown => exact ⟨d, ⟨hd, hnames⟩, hto, hknown, h⟩
  · rintro ⟨d, ⟨hd, hnames⟩, hto, hknown, hstore⟩
    refine ⟨d.tag, concreteTag_eq_ok_iff.2 ⟨hnames, hto⟩, ?_⟩
    rw [hd]
    dsimp only
    rw [hknown]
    exact hstore

/-- Members are stored field by field: what has no member is left alone. -/
theorem storeMembers_cons_eq_ok_iff {tag : String} {index : Nat} {f : Field} {fs : List Field} :
    storeMembers tag (r.readersOfJson members) index (f :: fs) i = .ok i' ↔
      Json.member? members f.name = none ∧
        storeMembers tag (r.readersOfJson members) (index + 1) fs i = .ok i' ∨
      ∃ j v k, Json.member? members f.name = some j ∧ r.valueOfJson j f = .ok v ∧
        i.setField index v = .ok k ∧
        storeMembers tag (r.readersOfJson members) (index + 1) fs k = .ok i' := by
  rw [storeMembers, find?_readersOfJson_eq, Json.member?]
  cases members.find? (·.1 == f.name) with
  | none => simp
  | some m =>
    dsimp only [Option.map_some]
    cases hv : r.valueOfJson m.2 f with
    | error e => simp [hv]
    | ok v =>
      dsimp only
      cases hk : i.setField index v with
      | error e => simp [hv, hk]
      | ok k => simp [hv, hk]

/-- An instance is made of JSON where a type is declared exactly if it is what is made of it in the
place of a field of instances of that type. -/
theorem ofJson_eq_ok_iff {j : Json} : r.ofJson declared j = .ok i ↔
    r.valueOfJson j ⟨"", .nested declared, false⟩ = .ok (.nested i) := by
  cases j with
  | object members => simp [ofJson, valueOfJson, Except.map_eq_ok]
  | _ => simp [ofJson, valueOfJson, Json.toLeaf]

/-- Entries are made of pairs in a row. -/
theorem entriesOfJson_eq_ok_iff {key value : Field} {js : List Json} {es : List (Value × Value)} :
    r.entriesOfJson js key value = .ok es ↔
      List.Forall₂ (fun j e => ∃ jk jv, j = .array [jk, jv] ∧
        r.valueOfJson jk key = .ok e.1 ∧ r.valueOfJson jv value = .ok e.2) js es := by
  refine ⟨fun h => ?_, entriesOfJson_pairs⟩
  induction js generalizing es with
  | nil =>
    rw [entriesOfJson] at h
    cases h
    exact .nil
  | cons j js ih =>
    unfold entriesOfJson at h
    split at h
    next heq => cases heq
    next jk jv js heq =>
      cases heq
      obtain ⟨k, hk, h⟩ := Except.bind_eq_ok.1 h
      obtain ⟨v, hv, h⟩ := Except.bind_eq_ok.1 h
      obtain ⟨es, hes, h⟩ := Except.bind_eq_ok.1 h
      cases h
      exact .cons ⟨jk, jv, rfl, hk, hv⟩ (ih hes)
    next => cases h

/-! ## What storing members does -/

/-- Storing members from some field on leaves the fields before it alone, by induction on the
fields. -/
theorem value?_of_storeMembers {tag : String} {fs : List Field} {index : Nat}
    (h : storeMembers tag (r.readersOfJson members) index fs i = .ok i') {k : Nat}
    (hk : k < index) : i'.value? k = i.value? k := by
  induction fs generalizing index i with
  | nil =>
    cases h
    rfl
  | cons f fs ih =>
    rcases storeMembers_cons_eq_ok_iff.1 h with ⟨-, h⟩ | ⟨j, v, i'', -, -, hset, h⟩
    · exact ih h (by omega)
    · obtain ⟨w, -, hvalues⟩ := Instance.values_of_setField hset
      rw [ih h (by omega), Instance.value?, hvalues, List.getElem?_set_ne (by omega)]
      rfl

/-- Whether a value is one that a field of some kind keeps of what has been made of JSON. -/
def Made (r : Registry) (kind : FieldKind) (j : Json) (w : Value) : Prop :=
  ∃ f v, f.kind = kind ∧ r.valueOfJson j f = .ok v ∧ v.KeptAs w

/-- A field without a member is left alone, and one with a member holds what is made of this, by
induction on the fields. -/
theorem made_of_storeMembers {tag : String} {fs : List Field} {index : Nat}
    (h : storeMembers tag (r.readersOfJson members) index fs i = .ok i') {n : Nat} {f : Field}
    (hf : fs[n]? = some f) :
    (Json.member? members f.name = none → i'.value? (index + n) = i.value? (index + n)) ∧
      ∀ j, Json.member? members f.name = some j →
        ∃ w, r.Made f.kind j w ∧ ∀ u, i'.value? (index + n) = some u → u = w := by
  induction fs generalizing index i n with
  | nil => cases hf
  | cons g fs ih =>
    cases n with
    | zero =>
      cases hf
      rcases storeMembers_cons_eq_ok_iff.1 h with ⟨hnone, h⟩ | ⟨j, v, i'', hsome, hv, hset, h⟩
      · refine ⟨fun _ => value?_of_storeMembers h (by omega), fun j hj => ?_⟩
        rw [hnone] at hj
        cases hj
      · -- What is stored here is what the later fields leave here.
        obtain ⟨w, hw, hvalues⟩ := Instance.values_of_setField hset
        have hkept := value?_of_storeMembers h (Nat.lt_succ_self index)
        rw [Instance.value?, Instance.value?, hvalues] at hkept
        refine ⟨fun hnone => absurd (hsome.symm.trans hnone) (Option.some_ne_none j), ?_⟩
        intro j' hj
        cases Option.some.inj (hsome.symm.trans hj)
        refine ⟨w, ⟨f, v, rfl, hv, hw⟩, fun u hu => ?_⟩
        rw [Nat.add_zero, Instance.value?, hkept, List.getElem?_set, if_pos rfl] at hu
        split at hu
        next => exact (Option.some.inj hu).symm
        next => cases hu
    | succ n =>
      have hf : fs[n]? = some f := hf
      rw [Nat.add_comm n 1, ← Nat.add_assoc]
      rcases storeMembers_cons_eq_ok_iff.1 h with ⟨-, h⟩ | ⟨j, v, i'', -, -, hset, h⟩
      · exact ih h hf
      · obtain ⟨w, -, hvalues⟩ := Instance.values_of_setField hset
        obtain ⟨habsent, hpresent⟩ := ih h hf
        refine ⟨fun hnone => ?_, hpresent⟩
        rw [habsent hnone, Instance.value?, hvalues, List.getElem?_set_ne (by omega)]
        rfl

/-! ## The way down -/

/-- An instance goes with the members of the object that it is made of, and holds what is made of
them. -/
theorem fills_of_ofMembers
    (h : r.ofMembers declared members (r.readersOfJson members) = .ok i) :
    r.Fills declared members i := by
  obtain ⟨d, hd, -, hknown, hstore⟩ := ofMembers_eq_ok_iff.1 h
  refine ⟨d, hd, unknownMember?_eq_none_iff.1 hknown, fun k f hf hnone => ?_⟩
  have hkept := (made_of_storeMembers hstore hf).1 hnone
  rwa [Nat.zero_add] at hkept

namespace Made

variable {kind kind' : FieldKind} {j j' : Json} {v : Value}

/-- What is made of an object is an instance of its members. -/
theorem exists_ofMembers (h : r.Made (.nested declared) (.object members) v) :
    ∃ i, v = .nested i ∧ r.ofMembers declared members (r.readersOfJson members) = .ok i := by
  obtain ⟨⟨_, _, _⟩, u, rfl, hu, hv⟩ := h
  rw [valueOfJson] at hu
  obtain ⟨i, hi, rfl⟩ := Except.map_eq_ok.1 hu
  cases hv
  exact ⟨i, rfl, hi⟩

/-- What is made of an array of pairs is a map, and keys and values are made of those in it. -/
theorem exists_entry {key value : Field} {js : List Json}
    (h : r.Made (.map key value) (.array js) v) {n : Nat} {jk jv : Json}
    (hj : js[n]? = some (.array [jk, jv])) :
    ∃ es e, v = .map es ∧ es[n]? = some e ∧ r.Made key.kind jk e.1 ∧ r.Made value.kind jv e.2 := by
  obtain ⟨⟨_, _, _⟩, u, rfl, hu, hv⟩ := h
  rw [valueOfJson] at hu
  obtain ⟨es, hes, rfl⟩ := Except.map_eq_ok.1 hu
  cases hv
  obtain ⟨e, he, _, _, ⟨⟩, hk, hv⟩ :=
    List.Forall₂.exists_getElem? (entriesOfJson_eq_ok_iff.1 hes) hj
  exact ⟨es, e, rfl, he, ⟨key, e.1, rfl, hk, .same e.1⟩, value, e.2, rfl, hv, .same e.2⟩

/-- What a step down a value finds, if anything, has been made of the JSON that it leads to. -/
theorem child (h : r.Made kind j v) {s : Value.Step} (hs : r.Child kind j s kind' j') :
    ∃ w, r.Made kind' j' w ∧ ∀ u, v.child? s = some u → u = w := by
  cases hs with
  | @item element js n j hj =>
    obtain ⟨⟨_, _, _⟩, u, rfl, hu, hv⟩ := h
    rw [valueOfJson] at hu
    obtain ⟨vs, hvs, rfl⟩ := Except.map_eq_ok.1 hu
    cases hv
    obtain ⟨w, hw, hread⟩ := List.Forall₂.exists_getElem? (itemsOfJson_eq_ok_iff.1 hvs) hj
    refine ⟨w, ⟨element, w, rfl, hread, .same w⟩, fun u hu => ?_⟩
    exact Option.some.inj (hu.symm.trans hw)
  | key hj =>
    obtain ⟨es, e, rfl, he, hkey, -⟩ := h.exists_entry hj
    refine ⟨e.1, hkey, fun u hu => ?_⟩
    rw [Value.child?, he] at hu
    exact (Option.some.inj hu).symm
  | value hj =>
    obtain ⟨es, e, rfl, he, -, hvalue⟩ := h.exists_entry hj
    refine ⟨e.2, hvalue, fun u hu => ?_⟩
    rw [Value.child?, he] at hu
    exact (Option.some.inj hu).symm
  | field hd hf hj =>
    obtain ⟨i, rfl, hi⟩ := h.exists_ofMembers
    obtain ⟨e, he, -, -, hstore⟩ := ofMembers_eq_ok_iff.1 hi
    obtain rfl := hd.eq he
    obtain ⟨w, hw, hholds⟩ := (made_of_storeMembers hstore hf).2 _ hj
    rw [Nat.zero_add] at hholds
    exact ⟨w, hw, hholds⟩

end Made

/-- What steps down a value find, if anything, has been made of the JSON that they lead to, by
induction on the steps. -/
theorem Leads.made {kind kind' : FieldKind} {j j' : Json} {path : List Value.Step} {v : Value}
    (h : r.Leads kind j path kind' j') (hv : r.Made kind j v) :
    ∃ w, r.Made kind' j' w ∧ ∀ u, v.at? path = some u → u = w := by
  induction h generalizing v with
  | nil => exact ⟨v, hv, fun u hu => (Option.some.inj hu).symm⟩
  | cons hs _ ih =>
    obtain ⟨x, hx, hchild⟩ := hv.child hs
    obtain ⟨w, hw, hrest⟩ := ih hx
    refine ⟨w, hw, fun u hu => ?_⟩
    obtain ⟨y, hy, hu⟩ := Option.bind_eq_some_iff.1 hu
    cases hchild y hy
    exact hrest u hu

/-- Every object that is read on the way goes with the instance that is made of it, which is what is
found there in the instance that is made of all. -/
theorem exists_fills_of_leads {j : Json} (h : r.ofJson declared j = .ok i)
    {path : List Value.Step} {declared' : String}
    (hpath : r.Leads (.nested declared) j path (.nested declared') (.object members)) :
    ∃ i', r.ofJson declared' (.object members) = .ok i' ∧ r.Fills declared' members i' ∧
      ∀ w, (Value.nested i).at? path = some w → w = .nested i' := by
  have hroot : r.Made (.nested declared) j (.nested i) :=
    ⟨_, _, rfl, ofJson_eq_ok_iff.1 h, .same _⟩
  obtain ⟨w, hw, hfound⟩ := hpath.made hroot
  obtain ⟨i', rfl, hi'⟩ := hw.exists_ofMembers
  exact ⟨i', hi', fills_of_ofMembers hi', hfound⟩

end Registry

end TagWire
