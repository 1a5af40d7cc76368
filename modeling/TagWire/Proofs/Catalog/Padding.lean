import TagWire.Proofs.Catalog.Resolution

/-!
# Blanks around type names

The question mark at the end of a type name is looked for before blanks are trimmed. So blanks in
front of a name never count, and blanks behind it count only if they hide its question mark
(`TypeSpec.resolveName_padded`). What holds of names holds of the types that are built from them, at
any depth (`TypeSpec.resolve_padded`).
-/

namespace TagWire

/-! ## Trimming -/

namespace Text

/-- Whether all characters of a text are blanks. -/
def IsBlank (s : String) : Prop := ∀ c ∈ s.toList, isBlank c = true

/-- Blanks in front of characters do not count when they are trimmed. -/
theorem trimChars_append_left {before : List Char} (h : ∀ c ∈ before, isBlank c = true)
    (cs : List Char) : trimChars (before ++ cs) = trimChars cs := by
  unfold trimChars
  rw [List.dropWhile_append_of_pos h]

/-- Blanks behind characters do not count when they are trimmed. -/
theorem trimChars_append_right {after : List Char} (h : ∀ c ∈ after, isBlank c = true)
    (cs : List Char) : trimChars (cs ++ after) = trimChars cs := by
  unfold trimChars
  rw [List.dropWhile_append]
  split
  next hempty => rw [List.dropWhile_eq_nil_iff.2 h, List.isEmpty_iff.1 hempty]
  next =>
    rw [List.reverse_append, List.dropWhile_append_of_pos]
    simpa using h

/-- A last character that is no blank stays the last one when characters are trimmed. -/
theorem getLast?_trimChars {cs : List Char} {c : Char} (hlast : cs.getLast? = some c)
    (hc : isBlank c = false) : (trimChars cs).getLast? = some c := by
  obtain ⟨init, rfl⟩ := List.getLast?_eq_some_iff.1 hlast
  unfold trimChars
  rw [List.dropWhile_append]
  split <;> simp [hc]

end Text

namespace TypeSpec

/-- Names with the same characters left between blanks, both with or both without a question mark
behind them, mean the same. -/
theorem resolveName_congr {name other : String}
    (htrim : Text.trimChars (unmarked other) = Text.trimChars (unmarked name))
    (hmarked : Marked other ↔ Marked name) : resolveName other = resolveName name := by
  simp only [resolveName, splitName_eq, htrim, hmarked]

/-- What ends in a question mark is the tag of a type. -/
theorem kindOfName_of_marked {name : String} (h : Marked name) :
    kindOfName name = .nested name := by
  have hreserved : ∀ known ∈ reservedNames, ¬Marked known := by decide
  exact kindOfName_of_not_reserved fun hname => hreserved name hname h

section
variable {name before after : String}

/-- Blanks in front of a type name leave the question mark at its end. -/
theorem marked_append_left (hbefore : Text.IsBlank before) :
    Marked (before ++ name) ↔ Marked name := by
  rw [Marked, Marked, String.toList_append, List.getLast?_append]
  cases name.toList.getLast? with
  | none =>
    refine iff_of_false (fun hmark => ?_) (Option.some_ne_none _).symm
    exact absurd (hbefore _ (List.mem_of_getLast? hmark)) (by decide)
  | some c => exact Iff.rfl

/-- Behind blanks the same is left out as without them. -/
theorem unmarked_append_left (hbefore : Text.IsBlank before) :
    unmarked (before ++ name) = before.toList ++ unmarked name := by
  by_cases hname : Marked name
  · obtain ⟨cs, hcs⟩ := List.getLast?_eq_some_iff.1 hname
    rw [unmarked_of_concat hcs]
    exact unmarked_of_concat (by rw [String.toList_append, hcs, List.append_assoc])
  · have hmarked : ¬Marked (before ++ name) := fun h => hname ((marked_append_left hbefore).1 h)
    rw [unmarked_of_not_marked hmarked, unmarked_of_not_marked hname, String.toList_append]

/-- A text that ends in a blank does not end in a question mark. -/
theorem not_marked_append_right (hafter : Text.IsBlank after) (hne : after ≠ "") :
    ¬Marked (name ++ after) := by
  rw [Marked, String.toList_append, List.getLast?_append]
  cases hlast : after.toList.getLast? with
  | none => exact absurd (String.toList_eq_nil_iff.1 (List.getLast?_eq_none_iff.1 hlast)) hne
  | some c =>
    rintro ⟨⟩
    exact absurd (hafter _ (List.mem_of_getLast? hlast)) (by decide)

/-- In front of blanks nothing is left out, so a question mark there stays. -/
theorem trimChars_unmarked_append_right (hafter : Text.IsBlank after) (hne : after ≠ "") :
    Text.trimChars (unmarked (name ++ after)) = Text.trimChars name.toList := by
  rw [unmarked_of_not_marked (not_marked_append_right hafter hne), String.toList_append,
    Text.trimChars_append_right hafter]

/-- Blanks in front of a type name do not count. -/
theorem resolveName_append_left (hbefore : Text.IsBlank before) :
    resolveName (before ++ name) = resolveName name := by
  refine resolveName_congr ?_ (marked_append_left hbefore)
  rw [unmarked_append_left hbefore, Text.trimChars_append_left hbefore]

/-- Blanks behind a type name do not count if it has no question mark at its end. -/
theorem resolveName_append_right (hafter : Text.IsBlank after) (hname : ¬Marked name) :
    resolveName (name ++ after) = resolveName name := by
  rcases eq_or_ne after "" with rfl | hne
  · rw [String.append_empty]
  · refine resolveName_congr ?_ (iff_of_false (not_marked_append_right hafter hne) hname)
    rw [trimChars_unmarked_append_right hafter hne, unmarked_of_not_marked hname]

/-- Behind a question mark blanks make it a part of the name, which is then the tag of a type. -/
theorem resolveName_append_of_marked (hafter : Text.IsBlank after) (hne : after ≠ "")
    (hname : Marked name) :
    resolveName (name ++ after) = .ok (.nested (Text.trim name), false) := by
  have hmarked : ¬Marked (name ++ after) := not_marked_append_right hafter hne
  have htrimmed : Marked (Text.trim name) := by
    rw [Marked, Text.trim, String.toList_ofList]
    exact Text.getLast?_trimChars hname (by decide)
  have hnonempty : (Text.trim name == "") = false :=
    beq_eq_false_iff_ne.2 fun heq => by rw [heq] at htrimmed; exact absurd htrimmed (by decide)
  have hleft : String.ofList (Text.trimChars (unmarked (name ++ after))) = Text.trim name :=
    congrArg String.ofList (trimChars_unmarked_append_right hafter hne)
  simp only [resolveName, splitName_eq, hleft, hnonempty, hmarked, kindOfName_of_marked htrimmed]
  rfl

/-- What blanks around a type name come to. -/
theorem resolveName_padded (hbefore : Text.IsBlank before) (hafter : Text.IsBlank after) :
    resolveName (before ++ name ++ after) =
      if Marked name ∧ after ≠ "" then .ok (.nested (Text.trim name), false)
      else resolveName name := by
  rw [String.append_assoc, resolveName_append_left hbefore]
  split
  next h => exact resolveName_append_of_marked hafter h.2 h.1
  next h =>
    by_cases hname : Marked name
    · obtain rfl : after = "" := by_contra fun hne => h ⟨hname, hne⟩
      rw [String.append_empty]
    · exact resolveName_append_right hafter hname

end

/-! ## Types -/

mutual

/-- Whether two spelled types are the same but for their names, which stand in a relation one by
one. -/
inductive Respelled (R : String → String → Prop) : TypeSpec → TypeSpec → Prop
  | name {s s' : String} : R s s' → Respelled R (.name s) (.name s')
  | composite {list? list?' : Option TypeSpec} {map? map?' : Option (TypeSpec × TypeSpec)}
      {variants? : Option (List String)} {nested? : Option String} :
      RespelledElement R list? list?' → RespelledEntry R map? map?' →
      Respelled R (.composite list? map? variants? nested?)
        (.composite list?' map?' variants? nested?)

/-- Whether the types of list elements are, if there are any. -/
inductive RespelledElement (R : String → String → Prop) : Option TypeSpec → Option TypeSpec → Prop
  | none : RespelledElement R none none
  | some {element element' : TypeSpec} : Respelled R element element' →
      RespelledElement R (some element) (some element')

/-- Whether the types of keys and values of a map are, if there are any. -/
inductive RespelledEntry (R : String → String → Prop) :
    Option (TypeSpec × TypeSpec) → Option (TypeSpec × TypeSpec) → Prop
  | none : RespelledEntry R none none
  | some {key key' value value' : TypeSpec} : Respelled R key key' → Respelled R value value' →
      RespelledEntry R (some (key, value)) (some (key', value'))

end

/-- Types whose names mean the same one by one have the same kind, or none for the same reason. -/
theorem resolve_of_respelled {R : String → String → Prop} {spec spec' : TypeSpec}
    (hR : ∀ s s', R s s' → resolveName s' = resolveName s) (h : Respelled R spec spec')
    (field : String) : spec'.resolve field = spec.resolve field := by
  fun_induction resolve field spec generalizing spec' with
  | case1 s =>
    cases h with
    | name hs => exact hR _ _ hs
  | case2 element ih =>
    cases h with
    | composite helement hentry =>
    cases hentry
    cases helement with
    | some helement => rw [resolve, ih helement]
  | case3 key value ihk ihv =>
    cases h with
    | composite helement hentry =>
    cases helement
    cases hentry with
    | some hkey hvalue => simp only [resolve, ihk hkey, ihv hvalue]
  | case4 | case5 | case6 =>
    cases h with
    | composite helement hentry =>
    cases helement
    cases hentry
    simp_all [resolve]
  | case7 list? map? variants? nested? hlist hmap henum hnested =>
    cases h with
    | composite helement hentry =>
    cases helement <;> cases hentry <;> cases variants? <;> cases nested? <;> simp_all [resolve]

/-- Whether a type name is another one with blanks around it, but none behind a question mark at its
end. -/
def Pads (name padded : String) : Prop :=
  ∃ before after, Text.IsBlank before ∧ Text.IsBlank after ∧ (Marked name → after = "") ∧
    padded = before ++ name ++ after

/-- Blanks around type names do not count, at any depth of lists and maps, whether the names have a
question mark at their end or not: the type has the same kind and allows null as before, or it is
refused for the same reason. Only behind a question mark no blanks may stand. There they make the
mark a part of the name, which is taken for the tag of a type that does not allow null. -/
theorem resolve_padded {spec padded : TypeSpec} (h : Respelled Pads spec padded)
    (tag field : String) (nullable : Bool) :
    padded.resolve field = spec.resolve field ∧
    FieldEntry.resolve tag ⟨field, padded, nullable⟩ =
      FieldEntry.resolve tag ⟨field, spec, nullable⟩ ∧
    ∀ name before after, Text.IsBlank before → Text.IsBlank after →
      resolveName (before ++ name ++ after) =
        if Marked name ∧ after ≠ "" then .ok (.nested (Text.trim name), false)
        else resolveName name := by
  have hresolve : padded.resolve field = spec.resolve field := by
    refine resolve_of_respelled ?_ h field
    rintro name _ ⟨before, after, hbefore, hafter, hmark, rfl⟩
    have hkept : ¬(Marked name ∧ after ≠ "") := fun hmarked => hmarked.2 (hmark hmarked.1)
    exact (resolveName_padded hbefore hafter).trans (if_neg hkept)
  refine ⟨hresolve, ?_, fun name before after => resolveName_padded⟩
  simp only [FieldEntry.resolve, hresolve]

/-- A list of numbers that may be null, with blanks around the name but none behind the mark. -/
theorem resolve_padded_list : resolve "counts" (.composite (some (.name " i32 ?")) none none none) =
    .ok (.list ⟨"element", .scalar .i32, true⟩, false) := by
  have hpads : Pads "i32 ?" " i32 ?" :=
    ⟨" ", "", by simp [Text.IsBlank, Text.isBlank], nofun, fun _ => rfl, rfl⟩
  exact (resolve_padded (.composite (.some (.name hpads)) .none) "T" "counts" false).1

/-- A blank behind the question mark makes a number that may be null an instance of another type,
which no catalog is likely to declare. -/
theorem resolve_padded_mark : Text.IsBlank " " ∧
    resolve "count" (.name "i32?") = .ok (.scalar .i32, true) ∧
    resolve "count" (.name ("i32?" ++ " ")) = .ok (.nested "i32?", false) ∧
    Catalog.toRegistry ⟨{}, [⟨"T", none, [⟨"count", .name ("i32?" ++ " "), false⟩]⟩]⟩ =
      .error (.registry (.unresolvedReference "T" "count" "i32?")) := by
  refine ⟨by simp [Text.IsBlank, Text.isBlank], rfl, rfl, rfl⟩

end TypeSpec

end TagWire
