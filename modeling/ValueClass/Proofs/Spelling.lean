import ValueClass.Proofs.Layer
import ValueClass.Proofs.Lists

/-!
# Spellings of types

A type has many descriptors: blanks may stand around the whole, around each type argument, between a
name and its arguments, and before each pair of square brackets.

* `Spelled`: the descriptors of a type, put together from the inside out.
* `FieldType.Plain`: every name can stand anywhere in a descriptor. `FieldType.Legible`: every name
  can stand where it stands, which outside all type arguments asks for less.
* `isWhole_of_spelled`: the brackets and commas of a plain type are of no matter around it.
* `readChars_eq_ok_iff`: **a descriptor is read as a type exactly if it spells the type**, and the
  type is legible.
* `read_eq_ok_iff_of_plain`: for plain types, spelling is all it takes.
-/

namespace ValueClass

open Text

/-- Induction along the elements of arrays and the arguments of references. -/
theorem FieldType.argumentInduction {motive : FieldType → Prop}
    (scalar : ∀ kind, motive (.scalar kind))
    (array : ∀ element, motive element → motive (.array element))
    (reference : ∀ name arguments, (∀ argument ∈ arguments, motive argument) →
      motive (.reference name arguments)) (type : FieldType) : motive type :=
  @FieldType.rec motive (fun arguments => ∀ argument ∈ arguments, motive argument) scalar array
    reference (by simp) (fun _ _ h hs => List.forall_mem_cons.2 ⟨h, hs⟩) type

/-! ## Names -/

/-- The text can be a reference name anywhere in a descriptor. No type arguments follow it if it is
`bare`. -/
structure IsPlainName (bare : Bool) (name : List Char) : Prop extends IsBody name where
  opening_not_mem : '<' ∉ name
  closing_not_mem : '>' ∉ name
  comma_not_mem : ',' ∉ name
  isBareName : bare = true → IsBareName name

instance (bare : Bool) (name : List Char) : Decidable (IsPlainName bare name) :=
  decidable_of_iff (IsBody name ∧ '<' ∉ name ∧ '>' ∉ name ∧ ',' ∉ name ∧
      (bare = true → IsBareName name))
    ⟨fun ⟨h1, h2, h3, h4, h5⟩ => ⟨h1, h2, h3, h4, h5⟩,
      fun ⟨h1, h2, h3, h4, h5⟩ => ⟨h1, h2, h3, h4, h5⟩⟩

theorem IsPlainName.isOuterName {bare : Bool} {name : List Char} (h : IsPlainName bare name) :
    IsOuterName bare name :=
  ⟨h.toIsBody, h.opening_not_mem, fun _ => h.closing_not_mem, h.isBareName⟩

mutual

/-- All names can stand anywhere in a descriptor. -/
def FieldType.Plain : FieldType → Prop
  | .scalar _ => True
  | .array element => element.Plain
  | .reference name arguments =>
    IsPlainName arguments.isEmpty name.toList ∧ FieldType.PlainAll arguments

def FieldType.PlainAll : List FieldType → Prop
  | [] => True
  | type :: types => type.Plain ∧ FieldType.PlainAll types

end

mutual

/-- A type is plain or not. -/
def FieldType.decPlain : (type : FieldType) → Decidable type.Plain
  | .scalar _ => inferInstanceAs (Decidable True)
  | .array element => element.decPlain
  | .reference _ arguments =>
    @instDecidableAnd _ _ _ (FieldType.decPlainAll arguments)

/-- The types of a list are all plain or not. -/
def FieldType.decPlainAll : (types : List FieldType) → Decidable (FieldType.PlainAll types)
  | [] => inferInstanceAs (Decidable True)
  | type :: types => @instDecidableAnd _ _ type.decPlain (FieldType.decPlainAll types)

end

instance (type : FieldType) : Decidable type.Plain :=
  type.decPlain

theorem plainAll_iff {types : List FieldType} :
    FieldType.PlainAll types ↔ ∀ type ∈ types, type.Plain := by
  induction types with
  | nil => simp [FieldType.PlainAll]
  | cons type types ih => rw [FieldType.PlainAll, ih, List.forall_mem_cons]

/-- All names can stand where they stand. -/
def FieldType.Legible : FieldType → Prop
  | .scalar _ => True
  | .array element => element.Legible
  | .reference name arguments =>
    IsOuterName arguments.isEmpty name.toList ∧ FieldType.PlainAll arguments

theorem FieldType.Plain.legible {type : FieldType} (h : type.Plain) : type.Legible := by
  induction type using FieldType.argumentInduction with
  | scalar kind => trivial
  | array element ih => exact ih h
  | reference name arguments ih => exact ⟨h.1.isOuterName, h.2⟩

/-! ## Spellings -/

/-- **The descriptor spells the type.** Blanks may stand around it. Since what is inside is spelled
in the same way, they may stand before each pair of square brackets and around each argument. -/
inductive Spelled : FieldType → List Char → Prop
  | scalar {kind : Scalar} {descriptor : List Char}
      (h : Padded kind.keyword.toList descriptor) : Spelled (.scalar kind) descriptor
  | array {element : FieldType} {inner descriptor : List Char} (helement : Spelled element inner)
      (h : Padded (inner ++ ['[', ']']) descriptor) : Spelled (.array element) descriptor
  | name {name : String} {descriptor : List Char} (h : Padded name.toList descriptor) :
      Spelled (.reference name []) descriptor
  | generic {name : String} {arguments : List FieldType} {pieces : List (List Char)}
      {blanks descriptor : List Char} (hne : arguments ≠ [])
      (harguments : List.Forall₂ Spelled arguments pieces) (hblanks : AllBlank blanks)
      (h : Padded (name.toList ++ blanks ++ '<' :: List.intercalate [','] pieces ++ ['>'])
        descriptor) :
      Spelled (.reference name arguments) descriptor

theorem IsBody.trim_padded {text padded : List Char} (hbody : IsBody text)
    (h : Padded text padded) : trim padded = text := by
  rw [trim_of_padded h, hbody.trim_eq]

/-- Blanks before the element of an array are blanks before the array. -/
theorem exists_trim_array {inner descriptor : List Char} (hbody : IsBody (trim inner))
    (h : Padded (inner ++ ['[', ']']) descriptor) :
    ∃ blanks, AllBlank blanks ∧ trim descriptor = trim inner ++ blanks ++ ['[', ']'] := by
  obtain ⟨before, after, hbefore, hafter, hinner⟩ := padded_trim inner
  have hshift : Padded (trim inner ++ (after ++ ['[']) ++ [']']) (inner ++ ['[', ']']) := by
    refine ⟨before, [], hbefore, by simp [AllBlank], ?_⟩
    rw [List.append_nil]
    conv_lhs => rw [hinner]
    simp
  have htrim : trim descriptor = trim inner ++ (after ++ ['[']) ++ [']'] := by
    rw [trim_of_padded h]
    exact (hbody.append _ (by decide)).trim_padded hshift
  refine ⟨after, hafter, ?_⟩
  rw [htrim]
  simp

theorem isBody_of_spelled {type : FieldType} (hlegible : type.Legible) :
    ∀ {descriptor : List Char}, Spelled type descriptor → IsBody (trim descriptor) := by
  induction type using FieldType.argumentInduction with
  | scalar kind =>
    rintro descriptor (⟨h⟩ | _ | _ | _)
    have hbody := isBody_keyword kind
    rwa [hbody.trim_padded h]
  | array element ih =>
    rintro descriptor (_ | ⟨helement, h⟩ | _ | _)
    have hinner := ih hlegible helement
    obtain ⟨blanks, -, htrim⟩ := exists_trim_array hinner h
    have hbody := hinner.append (blanks ++ ['[']) (c := ']') (by decide)
    rw [htrim]
    simpa using hbody
  | reference name arguments ih =>
    have hname := hlegible.1.toIsBody
    rintro descriptor (_ | _ | ⟨h⟩ | ⟨hne, harguments, hblanks, h⟩)
    · rwa [hname.trim_padded h]
    · rename_i pieces blanks
      have hbody := hname.append (blanks ++ '<' :: List.intercalate [','] pieces) (c := '>')
        (by decide)
      rw [← List.append_assoc] at hbody
      rwa [hbody.trim_padded h]

/-- **A spelling of a plain type is whole**: its brackets and commas do not matter to what is around
it. -/
theorem isWhole_of_spelled {type : FieldType} (hplain : type.Plain) :
    ∀ {descriptor : List Char}, Spelled type descriptor → IsWhole descriptor := by
  induction type using FieldType.argumentInduction with
  | scalar kind =>
    rintro descriptor (⟨h⟩ | _ | _ | _)
    rw [IsWhole, nesting_padded h]
    cases kind <;> decide
  | array element ih =>
    rintro descriptor (_ | ⟨helement, h⟩ | _ | _)
    have hinner := ih hplain helement
    rw [IsWhole] at hinner
    rw [IsWhole, nesting_padded h, nesting_append, hinner]
    decide
  | reference name arguments ih =>
    obtain ⟨hname, harguments⟩ := hplain
    have hnesting := nesting_of_not_mem hname.opening_not_mem hname.closing_not_mem
      hname.comma_not_mem 0
    rw [plainAll_iff] at harguments
    rintro descriptor (_ | _ | ⟨h⟩ | ⟨hne, hspelled, hblanks, h⟩)
    · rwa [IsWhole, nesting_padded h]
    · rename_i pieces blanks
      have hwhole : ∀ piece ∈ pieces, IsWhole piece :=
        forall_mem_right_of_forall₂ hspelled fun argument hmem _ hpiece =>
          ih argument hmem (harguments argument hmem) hpiece
      rw [IsWhole, nesting_padded h, List.append_assoc, nesting_append, nesting_append, hnesting,
        Option.bind_some, nesting_of_allBlank hblanks, Option.bind_some]
      exact nesting_enclosed (nesting_join hwhole 0)

/-! ## Reading spellings -/

/-- Blanks around a descriptor do not matter to a type that is read. -/
theorem readChars_eq_ok_of_trim_eq {a b : List Char} (h : trim a = trim b) {type : FieldType} :
    FieldType.readChars a = .ok type ↔ FieldType.readChars b = .ok type := by
  rw [readChars_eq_ok_iff_layer, readChars_eq_ok_iff_layer, h]

/-- **A spelling of a legible type is read as the type.** -/
theorem readChars_of_spelled {type : FieldType} (hlegible : type.Legible) :
    ∀ {descriptor : List Char}, Spelled type descriptor →
      FieldType.readChars descriptor = .ok type := by
  induction type using FieldType.argumentInduction with
  | scalar kind =>
    rintro descriptor (⟨h⟩ | _ | _ | _)
    refine readChars_eq_ok_iff_layer.2 ⟨.scalar kind, ?_, rfl⟩
    rw [(isBody_keyword kind).trim_padded h]
    exact .scalar kind
  | array element ih =>
    rintro descriptor (_ | ⟨helement, h⟩ | _ | _)
    rename_i inner
    have hinner : element.Legible := hlegible
    have hbody := isBody_of_spelled hinner helement
    obtain ⟨blanks, hblanks, htrim⟩ := exists_trim_array hbody h
    refine readChars_eq_ok_iff_layer.2 ⟨.array (trim inner ++ blanks), ?_, ?_⟩
    · rw [htrim]
      exact .array hbody hblanks
    · have hsame : trim (trim inner ++ blanks) = trim inner := hbody.trim_append hblanks
      have hread := (readChars_eq_ok_of_trim_eq hsame).2 (ih hinner helement)
      rw [Layer.read, hread]
      rfl
  | reference name arguments ih =>
    obtain ⟨hname, harguments⟩ := hlegible
    rw [plainAll_iff] at harguments
    rintro descriptor (_ | _ | ⟨h⟩ | ⟨hne, hspelled, hblanks, h⟩)
    · refine readChars_eq_ok_iff_layer.2 ⟨.name name.toList, ?_, ?_⟩
      · rw [hname.toIsBody.trim_padded h]
        exact .name hname
      · rw [Layer.read, String.ofList_toList]
    · rename_i pieces blanks
      -- the commas between the arguments are found, and no others
      have hpieces : ∀ piece ∈ pieces, IsWhole piece ∧ trim piece ≠ [] := by
        refine forall_mem_right_of_forall₂ hspelled fun argument hmem piece hpiece => ?_
        have hplain := harguments argument hmem
        exact ⟨isWhole_of_spelled hplain hpiece, (isBody_of_spelled hplain.legible hpiece).ne_nil⟩
      have hnonempty : pieces ≠ [] := by
        rintro rfl
        exact hne (List.forall₂_nil_right_iff.1 hspelled)
      have hcut : readArguments (List.intercalate [','] pieces) = .ok (pieces.map trim) :=
        readArguments_eq_ok_iff.2 ⟨pieces, hnonempty, rfl, rfl, hpieces⟩
      have hread : FieldType.readAll (pieces.map trim) = .ok arguments := by
        rw [readAll_eq_ok_iff, List.forall₂_map_left_iff]
        apply List.Forall₂.flip
        refine forall₂_imp_of_mem hspelled fun argument hmem piece hpiece => ?_
        have hargument := ih argument hmem (harguments argument hmem).legible hpiece
        exact (readChars_eq_ok_of_trim_eq (trim_trim piece)).2 hargument
      have houter : IsOuterName false name.toList := by
        rwa [List.isEmpty_eq_false_iff.2 hne] at hname
      have hbody := hname.toIsBody.append (blanks ++ '<' :: List.intercalate [','] pieces)
        (c := '>') (by decide)
      rw [← List.append_assoc] at hbody
      refine readChars_eq_ok_iff_layer.2 ⟨.generic name.toList (pieces.map trim), ?_, ?_⟩
      · rw [hbody.trim_padded h]
        exact .generic houter hblanks hcut
      · rw [Layer.read, hread, String.ofList_toList]
        rfl

/-- **What is read as a type spells it**, and the type is legible. If the descriptor could stand
among type arguments, the type is plain. -/
theorem spelled_of_readChars {type : FieldType} :
    ∀ {descriptor : List Char}, FieldType.readChars descriptor = .ok type →
      Spelled type descriptor ∧ type.Legible ∧ (IsWhole descriptor → type.Plain) := by
  induction type using FieldType.argumentInduction with
  | scalar kind =>
    intro descriptor h
    obtain ⟨layer, hof, hread⟩ := readChars_eq_ok_iff_layer.1 h
    have hpadded := padded_trim descriptor
    rw [Layer.eq_scalar_of_read hread] at hof
    generalize trim descriptor = trimmed at hof hpadded
    cases hof
    exact ⟨.scalar hpadded, trivial, fun _ => trivial⟩
  | array element ih =>
    intro descriptor h
    obtain ⟨layer, hof, hread⟩ := readChars_eq_ok_iff_layer.1 h
    obtain ⟨inner, rfl, hinner⟩ := Layer.eq_array_of_read hread
    obtain ⟨hspelled, hlegible, hplain⟩ := ih hinner
    have hpadded := padded_trim descriptor
    have hwhole := isWhole_trim_iff descriptor
    generalize trim descriptor = trimmed at hof hpadded hwhole
    cases hof
    refine ⟨.array hspelled hpadded, hlegible, fun h => hplain ?_⟩
    -- square brackets change no depth
    obtain ⟨depth, hdepth, hrest⟩ := Option.bind_eq_some_iff.1
      ((nesting_append _ _ _).symm.trans (hwhole.2 h))
    cases hrest
    exact hdepth
  | reference name types ih =>
    intro descriptor h
    obtain ⟨layer, hof, hread⟩ := readChars_eq_ok_iff_layer.1 h
    have hpadded := padded_trim descriptor
    have hwhole := isWhole_trim_iff descriptor
    generalize trim descriptor = trimmed at hof hpadded hwhole
    -- among type arguments a name has neither commas nor brackets to close
    have hname : ∀ {bare}, IsOuterName bare name.toList → name.toList <+: trimmed →
        IsWhole descriptor → IsPlainName bare name.toList := by
      rintro bare houter ⟨back, rfl⟩ h
      obtain ⟨hclosing, hcomma⟩ := not_mem_of_isWhole_append (hwhole.2 h) houter.opening_not_mem
      exact ⟨houter.toIsBody, houter.opening_not_mem, hclosing, hcomma, houter.isBareName⟩
    rcases Layer.eq_reference_of_read hread with ⟨rfl, rfl⟩ | ⟨arguments, rfl, hall⟩
    · cases hof with
      | name houter =>
        exact ⟨.name hpadded, ⟨houter, trivial⟩,
          fun h => ⟨hname houter List.prefix_rfl h, trivial⟩⟩
    · cases hof with
      | generic houter hblanks harguments =>
        obtain ⟨pieces, hne, rfl, rfl, hpieces⟩ := readArguments_eq_ok_iff.1 harguments
        rw [readAll_eq_ok_iff, List.forall₂_map_left_iff] at hall
        have hall : List.Forall₂ (fun piece type => FieldType.readChars piece = .ok type)
            pieces types :=
          hall.imp fun piece _ h => (readChars_eq_ok_of_trim_eq (trim_trim piece)).1 h
        have htypes : types ≠ [] := by
          rintro rfl
          exact hne (List.forall₂_nil_right_iff.1 hall)
        have hspelled : List.Forall₂ Spelled types pieces :=
          forall₂_imp_of_mem hall.flip fun type hmem _ h => (ih type hmem h).1
        have hplain : ∀ type ∈ types, type ∈ types → type.Plain :=
          forall_mem_right_of_forall₂ hall fun piece hpiece type h hmem =>
            (ih type hmem h).2.2 (hpieces piece hpiece).1
        have hplain : FieldType.PlainAll types :=
          plainAll_iff.2 fun type hmem => hplain type hmem hmem
        rw [← List.isEmpty_eq_false_iff.2 htypes] at houter
        refine ⟨.generic htypes hspelled hblanks hpadded, ⟨houter, hplain⟩,
          fun h => ⟨hname houter ?_ h, hplain⟩⟩
        rw [List.append_assoc, List.append_assoc]
        exact List.prefix_append _ _

/-- **A descriptor is read as a type exactly if it spells the type**, and the type is legible. -/
theorem readChars_eq_ok_iff {descriptor : List Char} {type : FieldType} :
    FieldType.readChars descriptor = .ok type ↔ type.Legible ∧ Spelled type descriptor := by
  constructor
  · intro h
    obtain ⟨hspelled, hlegible, -⟩ := spelled_of_readChars h
    exact ⟨hlegible, hspelled⟩
  · rintro ⟨hlegible, hspelled⟩
    exact readChars_of_spelled hlegible hspelled

/-- **The descriptors of a plain type are its spellings**, whatever blanks they have. -/
theorem read_eq_ok_iff_of_plain {type : FieldType} (h : type.Plain) (descriptor : String) :
    FieldType.read descriptor = .ok type ↔ Spelled type descriptor.toList := by
  rw [FieldType.read, readChars_eq_ok_iff]
  exact ⟨fun hread => hread.2, fun hspelled => ⟨h.legible, hspelled⟩⟩

/-- Blanks wherever there may be some, and a name before arguments that ends like an array. -/
theorem read_eq_ok_iff_of_plain_blanks :
    let type : FieldType :=
      .reference "Big Map[]" [.reference "String" [], .array (.array (.scalar .int))]
    let descriptor := " Big Map[] <String ,\tint [][] >\n"
    type.Plain ∧ Spelled type descriptor.toList ∧ FieldType.read descriptor = .ok type := by
  intro type descriptor
  have hplain : type.Plain := by decide
  have hstring : Spelled (.reference "String" []) ['S', 't', 'r', 'i', 'n', 'g', ' '] :=
    .name ⟨[], [' '], by decide, by decide, by decide⟩
  have hint : Spelled (.scalar .int) ['\t', 'i', 'n', 't', ' '] :=
    .scalar ⟨['\t'], [' '], by decide, by decide, by decide⟩
  have hints : Spelled (.array (.array (.scalar .int)))
      ['\t', 'i', 'n', 't', ' ', '[', ']', '[', ']', ' '] :=
    .array (.array hint ⟨[], [], by decide, by decide, rfl⟩)
      ⟨[], [' '], by decide, by decide, rfl⟩
  have hspelled : Spelled type descriptor.toList :=
    .generic (by decide) (.cons hstring (.cons hints .nil))
      (by decide : AllBlank [' '])
      ⟨[' '], ['\n'], by decide, by decide, by decide⟩
  exact ⟨hplain, hspelled, (read_eq_ok_iff_of_plain hplain descriptor).2 hspelled⟩

end ValueClass
