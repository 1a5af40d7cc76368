import Mathlib.Data.List.TakeWhile
import TagWire.Catalog.Registration
import TagWire.Proofs.Schema.Steps

/-!
# Types that can be resolved

What a catalog spells is a type if it is `TypeSpec.Resolvable`: a name has more to it than blanks
and a question mark, a composite has one part, and so on for the types in it. Such a type, and no
other, has a kind (`TypeSpec.exists_resolve_iff`), in whatever field it stands. `TypeSpec.Means`
says which: some names are those of scalars, of texts and of byte strings, every other name is the
tag of a type, and the question mark of a name allows null (`TypeSpec.resolve_eq_ok_iff`).
-/

namespace TagWire

/-- Nothing is left of characters exactly if all of them are blank. -/
theorem Text.trimChars_eq_nil_iff {cs : List Char} :
    trimChars cs = [] ↔ ∀ c ∈ cs, isBlank c = true := by
  rw [trimChars, List.reverse_eq_nil_iff, List.dropWhile_eq_nil_iff]
  refine ⟨fun h => ?_, fun h => ?_⟩
  · rw [← List.dropWhile_eq_nil_iff]
    by_contra hne
    have hblank := h _ (List.mem_reverse.2 (List.head_mem hne))
    rw [List.head_dropWhile_not isBlank hne] at hblank
    cases hblank
  · rw [List.dropWhile_eq_nil_iff.2 h]
    exact List.forall_mem_nil _

namespace TypeSpec

/-- The characters of a type name but for a question mark at the very end. -/
def unmarked (text : String) : List Char :=
  if text.toList.getLast? = some '?' then text.toList.dropLast else text.toList

/-- Whether a type name has a question mark at its very end. -/
def Marked (name : String) : Prop := name.toList.getLast? = some '?'

instance (name : String) : Decidable (Marked name) := inferInstanceAs (Decidable (_ = _))

/-- The names that are not those of registered types. -/
def reservedNames : List String :=
  ["bool", "i8", "i16", "i32", "i64", "u8", "u16", "u32", "u64", "f32", "f64", "char", "string",
    "bytes"]

/-- What a type name without its question mark and without blanks around it means. -/
inductive NameMeans : String → FieldKind → Prop
  | bool : NameMeans "bool" (.scalar .bool)
  | i8 : NameMeans "i8" (.scalar .i8)
  | i16 : NameMeans "i16" (.scalar .i16)
  | i32 : NameMeans "i32" (.scalar .i32)
  | i64 : NameMeans "i64" (.scalar .i64)
  | u8 : NameMeans "u8" (.scalar .u8)
  | u16 : NameMeans "u16" (.scalar .u16)
  | u32 : NameMeans "u32" (.scalar .u32)
  | u64 : NameMeans "u64" (.scalar .u64)
  | f32 : NameMeans "f32" (.scalar .f32)
  | f64 : NameMeans "f64" (.scalar .f64)
  | char : NameMeans "char" (.scalar .char)
  | string : NameMeans "string" .string
  | bytes : NameMeans "bytes" .bytes
  | tag {name : String} : name ∉ reservedNames → NameMeans name (.nested name)

/-- What a catalog spells for a field of some name means: a kind, and whether it allows null. -/
inductive Means (field : String) : TypeSpec → FieldKind → Bool → Prop
  | name {text : String} {c : Char} {kind : FieldKind} :
      c ∈ unmarked text → Text.isBlank c = false →
      NameMeans (String.ofList (Text.trimChars (unmarked text))) kind →
      Means field (.name text) kind (decide (Marked text))
  | list {element : TypeSpec} {kind : FieldKind} {nullable : Bool} :
      Means field element kind nullable →
      Means field (.composite (some element) none none none)
        (.list ⟨"element", kind, nullable⟩) false
  | map {key value : TypeSpec} {keyKind valueKind : FieldKind} {keyNullable valueNullable : Bool} :
      Means field key keyKind keyNullable → Means field value valueKind valueNullable →
      Means field (.composite none (some (key, value)) none none)
        (.map ⟨"key", keyKind, keyNullable⟩ ⟨"value", valueKind, valueNullable⟩) false
  | enum {variants : List String} : variants ≠ [] →
      Means field (.composite none none (some variants) none) (.enum ⟨field, variants⟩) false
  | nested (tag : String) : Means field (.composite none none none (some tag)) (.nested tag) false

/-- Whether a type can be made of what a catalog spells. -/
inductive Resolvable : TypeSpec → Prop
  | name {text : String} {c : Char} : c ∈ unmarked text → Text.isBlank c = false →
      Resolvable (.name text)
  | list {element : TypeSpec} : Resolvable element →
      Resolvable (.composite (some element) none none none)
  | map {key value : TypeSpec} : Resolvable key → Resolvable value →
      Resolvable (.composite none (some (key, value)) none none)
  | enum {variants : List String} : variants ≠ [] →
      Resolvable (.composite none none (some variants) none)
  | nested (tag : String) : Resolvable (.composite none none none (some tag))

/-- A question mark at the very end is left out. -/
theorem unmarked_of_concat {name : String} {cs : List Char} (h : name.toList = cs ++ ['?']) :
    unmarked name = cs := by
  rw [unmarked, h, if_pos List.getLast?_concat, List.dropLast_concat]

/-- Nothing is left out of a type name without a question mark at its very end. -/
theorem unmarked_of_not_marked {name : String} (h : ¬Marked name) : unmarked name = name.toList :=
  if_neg h

/-- A type name is split into what is left of it without a question mark at its very end, and
whether it has one. -/
theorem splitName_eq (name : String) : splitName name =
    (String.ofList (Text.trimChars (unmarked name)), decide (Marked name)) := by
  unfold splitName
  split
  next cs hcs =>
    have hname : name.toList = cs.reverse ++ ['?'] := by
      rw [List.reverse_eq_iff.1 hcs, List.reverse_cons]
    have hmarked : Marked name := by rw [Marked, hname, List.getLast?_concat]
    rw [unmarked_of_concat hname, decide_eq_true hmarked]
  next hcs =>
    have hmarked : ¬Marked name := by
      intro hmarked
      obtain ⟨cs, hcs'⟩ := List.getLast?_eq_some_iff.1 hmarked
      exact hcs cs.reverse (by rw [hcs', List.reverse_append]; rfl)
    rw [unmarked_of_not_marked hmarked, decide_eq_false hmarked, Text.trim]

/-- A name that is not reserved is the tag of a type. -/
theorem kindOfName_of_not_reserved {name : String} (h : name ∉ reservedNames) :
    kindOfName name = .nested name := by
  have hne {known : String} (hknown : known ∈ reservedNames) : (name == known) = false :=
    beq_eq_false_iff_ne.2 fun heq => h (heq ▸ hknown)
  have hscalar : ScalarKind.ofName? name = none := by
    rw [ScalarKind.ofName?, List.find?_eq_none]
    intro k _ hk
    have hknown : k.name ∈ reservedNames := by cases k <;> decide
    rw [beq_iff_eq] at hk
    exact h (hk ▸ hknown)
  rw [kindOfName, hne (by decide), hne (by decide), hscalar]
  rfl

/-- A name has the kind that it means. -/
theorem kindOfName_eq_iff {name : String} {kind : FieldKind} :
    kindOfName name = kind ↔ NameMeans name kind := by
  refine ⟨?_, fun h => ?_⟩
  · rintro rfl
    by_cases hname : name ∈ reservedNames
    · simp only [reservedNames, List.mem_cons, List.not_mem_nil, or_false] at hname
      rcases hname with rfl | rfl | rfl | rfl | rfl | rfl | rfl | rfl | rfl | rfl | rfl | rfl |
        rfl | rfl <;> constructor
    · rw [kindOfName_of_not_reserved hname]
      exact .tag hname
  · cases h with
    | tag hname => exact kindOfName_of_not_reserved hname
    | _ => rfl

/-- A type name means something exactly if a character of it is not blank. -/
theorem exists_resolveName_iff {text : String} :
    (∃ k, resolveName text = .ok k) ↔ ∃ c ∈ unmarked text, Text.isBlank c = false := by
  have hempty : ((splitName text).1 == "") = true ↔ ∀ c ∈ unmarked text, Text.isBlank c = true := by
    rw [beq_iff_eq, splitName_eq, ← Text.trimChars_eq_nil_iff]
    exact String.ofList_eq_empty_iff
  have hsome : (∃ c ∈ unmarked text, Text.isBlank c = false) ↔
      ((splitName text).1 == "") = false := by
    rw [← Bool.not_eq_true, hempty]
    simp
  rw [hsome, resolveName]
  dsimp only
  cases (splitName text).1 == "" <;> simp

/-- What a type name means, if a character of it is not blank, and that its question mark allows
null. -/
theorem resolveName_eq_ok_iff {text : String} {kind : FieldKind} {nullable : Bool} :
    resolveName text = .ok (kind, nullable) ↔ (∃ c ∈ unmarked text, Text.isBlank c = false) ∧
      NameMeans (String.ofList (Text.trimChars (unmarked text))) kind ∧
      nullable = decide (Marked text) := by
  rw [← exists_resolveName_iff, ← kindOfName_eq_iff]
  simp only [resolveName, splitName_eq]
  split <;> simp [eq_comm]

/-- What a catalog spells has the kind that it means. -/
theorem resolve_eq_ok_iff {field : String} {spec : TypeSpec} {kind : FieldKind}
    {nullable : Bool} : spec.resolve field = .ok (kind, nullable) ↔
      spec.Means field kind nullable := by
  refine ⟨fun h => ?_, fun h => ?_⟩
  · fun_induction resolve field spec generalizing kind nullable with
    | case1 text =>
      obtain ⟨⟨c, hc, hblank⟩, hname, rfl⟩ := resolveName_eq_ok_iff.1 h
      exact .name hc hblank hname
    | case2 _ ih =>
      obtain ⟨_, helement, hlist⟩ := Except.bind_eq_ok.1 h
      cases hlist
      exact .list (ih helement)
    | case3 _ _ ihk ihv =>
      obtain ⟨_, hkey, h⟩ := Except.bind_eq_ok.1 h
      obtain ⟨_, hvalue, hmap⟩ := Except.bind_eq_ok.1 h
      cases hmap
      exact .map (ihk hkey) (ihv hvalue)
    | case4 => cases h
    | case5 _ hne =>
      cases h
      exact .enum (by simpa using hne)
    | case6 tag =>
      cases h
      exact .nested tag
    | case7 => cases h
  · induction h with
    | name hc hblank hname => exact resolveName_eq_ok_iff.2 ⟨⟨_, hc, hblank⟩, hname, rfl⟩
    | list _ ih =>
      rw [resolve, ih]
      rfl
    | map _ _ ihk ihv =>
      simp only [resolve, ihk, ihv]
      rfl
    | enum hne => rw [resolve, if_neg (by simpa using hne)]
    | nested tag => rfl

/-- What means a kind can be made a type of. -/
theorem Means.resolvable {field : String} {spec : TypeSpec} {kind : FieldKind} {nullable : Bool}
    (h : spec.Means field kind nullable) : spec.Resolvable := by
  induction h with
  | name hc hblank => exact .name hc hblank
  | list _ ih => exact .list ih
  | map _ _ ihk ihv => exact .map ihk ihv
  | enum hne => exact .enum hne
  | nested tag => exact .nested tag

/-- What a type can be made of means a kind. -/
theorem Resolvable.exists_means {spec : TypeSpec} (h : spec.Resolvable) (field : String) :
    ∃ kind nullable, spec.Means field kind nullable := by
  induction h with
  | name hc hblank => exact ⟨_, _, .name hc hblank (kindOfName_eq_iff.1 rfl)⟩
  | list _ ih =>
    obtain ⟨_, _, helement⟩ := ih
    exact ⟨_, _, .list helement⟩
  | map _ _ ihk ihv =>
    obtain ⟨_, _, hkey⟩ := ihk
    obtain ⟨_, _, hvalue⟩ := ihv
    exact ⟨_, _, .map hkey hvalue⟩
  | enum hne => exact ⟨_, _, .enum hne⟩
  | nested tag => exact ⟨_, _, .nested tag⟩

/-- What a catalog spells has a kind exactly if a type can be made of it. -/
theorem exists_resolve_iff {field : String} {spec : TypeSpec} :
    (∃ k, spec.resolve field = .ok k) ↔ spec.Resolvable := by
  refine ⟨?_, fun h => ?_⟩
  · rintro ⟨k, hk⟩
    exact (resolve_eq_ok_iff.1 hk).resolvable
  · obtain ⟨_, _, hmeans⟩ := h.exists_means field
    exact ⟨_, resolve_eq_ok_iff.2 hmeans⟩

end TypeSpec

end TagWire
