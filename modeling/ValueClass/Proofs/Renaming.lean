import ValueClass.Proofs.Spelling

/-!
# Types written with other names

Writing a type out replaces its names and spells the rest in one way.

* `FieldType.rename`: the type of the same shape with other names.
* `spelled_spell`: **a type that is written out is spelled**, with the names it was given.
* `read_spell`: it is read as the type with those names, if they can stand where the names stood.
* `read_text`: the normal form of a type is read as the type.
-/

namespace ValueClass

open Text

mutual

/-- The type with every reference name as `write` says. -/
def FieldType.rename (write : String → String) : FieldType → FieldType
  | .scalar kind => .scalar kind
  | .array element => .array (element.rename write)
  | .reference name arguments => .reference (write name) (FieldType.renameAll write arguments)

/-- The types of a list with other names. -/
def FieldType.renameAll (write : String → String) : List FieldType → List FieldType
  | [] => []
  | type :: types => type.rename write :: FieldType.renameAll write types

end

theorem renameAll_eq_map (write : String → String) (types : List FieldType) :
    FieldType.renameAll write types = types.map (FieldType.rename write) := by
  induction types with
  | nil => rfl
  | cons type types ih => rw [FieldType.renameAll, ih, List.map_cons]

theorem spellAll_eq_map (write : String → String) (types : List FieldType) :
    FieldType.spellAll write types = types.map (FieldType.spell write) := by
  induction types with
  | nil => rfl
  | cons type types ih => rw [FieldType.spellAll, ih, List.map_cons]

/-- Blanks around a spelling are part of another one. -/
theorem Spelled.padded {type : FieldType} {descriptor padded : List Char}
    (hspelled : Spelled type descriptor) (hpadded : Padded descriptor padded) :
    Spelled type padded := by
  cases hspelled with
  | scalar h => exact .scalar (h.trans hpadded)
  | array helement h => exact .array helement (h.trans hpadded)
  | name h => exact .name (h.trans hpadded)
  | generic hne harguments hblanks h => exact .generic hne harguments hblanks (h.trans hpadded)

/-- The space after a comma belongs to the piece it stands in front of. -/
theorem toList_intercalate_comma (first : String) (rest : List String) :
    (String.intercalate ", " (first :: rest)).toList
      = List.intercalate [','] (first.toList :: rest.map (' ' :: ·.toList)) := by
  rw [String.toList_intercalate]
  induction rest generalizing first with
  | nil => simp
  | cons next rest ih =>
    have hnext := ih next
    rw [List.map_cons] at hnext
    rw [List.map_cons, List.map_cons, List.intercalate_cons_cons, hnext]
    simp [intercalate_cons]

/-- **A type that is written out is spelled**, with other names. -/
theorem spelled_spell (write : String → String) (type : FieldType) :
    Spelled (type.rename write) (type.spell write).toList := by
  induction type using FieldType.argumentInduction with
  | scalar kind => exact .scalar (Padded.refl _)
  | array element ih =>
    refine .array ih ?_
    rw [FieldType.spell, String.toList_append]
    exact Padded.refl _
  | reference name arguments ih =>
    rw [FieldType.rename, FieldType.spell, renameAll_eq_map, spellAll_eq_map]
    cases arguments with
    | nil => exact .name (Padded.refl _)
    | cons first rest =>
      obtain ⟨hfirst, hrest⟩ := List.forall_mem_cons.1 ih
      have hothers : List.Forall₂ Spelled (rest.map (FieldType.rename write))
          ((rest.map (FieldType.spell write)).map (' ' :: ·.toList)) := by
        rw [List.map_map, List.forall₂_map_left_iff, List.forall₂_map_right_iff, List.forall₂_same]
        intro argument hmem
        exact (hrest argument hmem).padded ⟨[' '], [], by decide, by decide, by simp⟩
      refine .generic (by simp) (.cons hfirst hothers) (by decide : AllBlank []) ?_
      rw [if_neg (by simp), List.map_cons]
      simp only [String.toList_append, toList_intercalate_comma]
      exact ⟨[], [], by decide, by decide, by simp⟩

/-- Where a name can stand in a descriptor, what is written for it can stand. -/
structure KeepsNames (write : String → String) : Prop where
  outer : ∀ {bare : Bool} {name : String}, IsOuterName bare name.toList →
    IsOuterName bare (write name).toList
  plain : ∀ {bare : Bool} {name : String}, IsPlainName bare name.toList →
    IsPlainName bare (write name).toList

theorem isEmpty_renameAll (write : String → String) (types : List FieldType) :
    (FieldType.renameAll write types).isEmpty = types.isEmpty := by
  cases types <;> rfl

theorem plainAll_rename {write : String → String} {types : List FieldType}
    (h : ∀ type ∈ types, type.Plain → (type.rename write).Plain)
    (hplain : FieldType.PlainAll types) : FieldType.PlainAll (FieldType.renameAll write types) := by
  rw [plainAll_iff] at hplain
  rw [plainAll_iff, renameAll_eq_map, List.forall_mem_map]
  exact fun type hmem => h type hmem (hplain type hmem)

theorem plain_rename {write : String → String} (hkeeps : KeepsNames write) {type : FieldType}
    (h : type.Plain) : (type.rename write).Plain := by
  induction type using FieldType.argumentInduction with
  | scalar kind => trivial
  | array element ih => exact ih h
  | reference name arguments ih =>
    refine ⟨?_, plainAll_rename ih h.2⟩
    rw [isEmpty_renameAll]
    exact hkeeps.plain h.1

theorem legible_rename {write : String → String} (hkeeps : KeepsNames write) {type : FieldType}
    (h : type.Legible) : (type.rename write).Legible := by
  induction type using FieldType.argumentInduction with
  | scalar kind => trivial
  | array element ih => exact ih h
  | reference name arguments _ =>
    -- only the outermost name may be one that could not stand among type arguments
    refine ⟨?_, plainAll_rename (fun _ _ => plain_rename hkeeps) h.2⟩
    rw [isEmpty_renameAll]
    exact hkeeps.outer h.1

theorem read_spell {write : String → String} (hkeeps : KeepsNames write) {type : FieldType}
    (h : type.Legible) : FieldType.read (type.spell write) = .ok (type.rename write) :=
  readChars_of_spelled (legible_rename hkeeps h) (spelled_spell write type)

theorem rename_id (type : FieldType) : type.rename id = type := by
  induction type using FieldType.argumentInduction with
  | scalar kind => rfl
  | array element ih => rw [FieldType.rename, ih]
  | reference name arguments ih =>
    rw [FieldType.rename, renameAll_eq_map, List.map_congr_left ih, List.map_id', id_eq]

/-- **The normal form of a legible type is read as the type.** -/
theorem read_text {type : FieldType} (h : type.Legible) : FieldType.read type.text = .ok type := by
  have hkeeps : KeepsNames id := ⟨fun hname => hname, fun hname => hname⟩
  have hread := read_spell hkeeps h
  rwa [rename_id] at hread

end ValueClass
