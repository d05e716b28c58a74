import Mathlib.Data.List.Forall2
import ValueClass.Proofs.Nesting

/-!
# One layer of a type

What `outermost` finds, said the other way round: how the descriptors of each layer are built.

* `IsBody`: a text that is read neither as nothing nor as a wildcard, and has no blanks to trim.
* `IsOuterName`: what a name is like that was read outside all type arguments.
* `Layer.Of`: the trimmed descriptors of each layer.
* `outermost_eq_ok_iff`: **a layer is found exactly in its descriptors.**
* `readChars_eq_ok_iff_layer`: a type is read layer by layer.
-/

namespace ValueClass

open Text

/-! ## Names -/

/-- The text holds something, no blanks at its ends, and no wildcard. -/
structure IsBody (text : List Char) : Prop where
  ne_nil : text ≠ []
  trim_eq : trim text = text
  head?_ne : text.head? ≠ some '?'

instance (text : List Char) : Decidable (IsBody text) :=
  decidable_of_iff (text ≠ [] ∧ trim text = text ∧ text.head? ≠ some '?')
    ⟨fun ⟨h1, h2, h3⟩ => ⟨h1, h2, h3⟩, fun ⟨h1, h2, h3⟩ => ⟨h1, h2, h3⟩⟩

/-- The text by itself is no array, no scalar and not `void`. -/
structure IsBareName (name : List Char) : Prop where
  not_array : ¬['[', ']'] <:+ name
  not_scalar : Scalar.ofKeyword? (String.ofList name) = none
  ne_void : name ≠ ['v', 'o', 'i', 'd']

instance (name : List Char) : Decidable (IsBareName name) :=
  decidable_of_iff (¬['[', ']'] <:+ name ∧ Scalar.ofKeyword? (String.ofList name) = none ∧
      name ≠ ['v', 'o', 'i', 'd'])
    ⟨fun ⟨h1, h2, h3⟩ => ⟨h1, h2, h3⟩, fun ⟨h1, h2, h3⟩ => ⟨h1, h2, h3⟩⟩

/-- The text can be a reference name outside all type arguments. No type arguments follow it if it
is `bare`. -/
structure IsOuterName (bare : Bool) (name : List Char) : Prop extends IsBody name where
  opening_not_mem : '<' ∉ name
  closing_not_mem : bare = true → '>' ∉ name
  isBareName : bare = true → IsBareName name

theorem IsBody.not_isBlank_head {text : List Char} (h : IsBody text) {c : Char}
    (hc : text.head? = some c) : isBlank c = false := by
  rw [← h.trim_eq] at hc
  exact not_isBlank_of_head?_trim hc

/-- A body stays one if it goes on and does not end in a blank. -/
theorem IsBody.append {text : List Char} (h : IsBody text) (rest : List Char) {c : Char}
    (hc : isBlank c = false) : IsBody (text ++ rest ++ [c]) := by
  obtain ⟨first, others, rfl⟩ := List.exists_cons_of_ne_nil h.ne_nil
  refine ⟨by simp, trim_eq_self ?_ ?_, h.head?_ne⟩
  · intro d hd
    exact h.not_isBlank_head hd
  · intro d hd
    rw [List.getLast?_concat] at hd
    cases hd
    exact hc

theorem IsBody.trim_append {text blanks : List Char} (h : IsBody text) (hblanks : AllBlank blanks) :
    trim (text ++ blanks) = text := by
  rw [trim_append_of_allBlank hblanks, h.trim_eq]

/-- What a trimmed text starts with is a body and blanks, if it is not all blanks. -/
theorem exists_body_append {front back : List Char}
    (htrim : trim (front ++ back) = front ++ back) (hhead : (front ++ back).head? ≠ some '?')
    (hfront : trim front ≠ []) :
    IsBody (trim front) ∧ ∃ blanks, AllBlank blanks ∧ front = trim front ++ blanks := by
  have hne : front ≠ [] := by
    rintro rfl
    exact hfront rfl
  have hsame : (front ++ back).head? = front.head? := by
    obtain ⟨c, cs, rfl⟩ := List.exists_cons_of_ne_nil hne
    rfl
  have hstart : trimStart front = front := by
    refine trimStart_eq_self fun c hc => ?_
    rw [← hsame, ← htrim] at hc
    exact not_isBlank_of_head?_trim hc
  obtain ⟨blanks, hblanks, heq⟩ := exists_trimStart_eq front
  rw [hstart] at heq
  refine ⟨⟨hfront, trim_trim front, ?_⟩, blanks, hblanks, heq⟩
  obtain ⟨c, cs, hcs⟩ := List.exists_cons_of_ne_nil hfront
  rw [hsame, heq, hcs] at hhead
  rw [hcs]
  exact hhead

theorem ofKeyword?_eq_some_iff {text : String} {kind : Scalar} :
    Scalar.ofKeyword? text = some kind ↔ text = kind.keyword := by
  constructor
  · intro h
    have hfound := List.find?_some h
    exact (beq_iff_eq.1 hfound).symm
  · rintro rfl
    cases kind <;> decide

theorem isBody_keyword (kind : Scalar) : IsBody kind.keyword.toList := by
  cases kind <;> constructor <;> decide

/-- The words of the language end in letters. -/
theorem not_scalar_or_void_concat (cs : List Char) {c : Char} (hc : c = ']' ∨ c = '>') :
    Scalar.ofKeyword? (String.ofList (cs ++ [c])) = none ∧ cs ++ [c] ≠ ['v', 'o', 'i', 'd'] := by
  constructor
  · rw [Option.eq_none_iff_forall_ne_some]
    intro kind hkind
    have hlast : kind.keyword.toList.getLast? = some c := by
      rw [← ofKeyword?_eq_some_iff.1 hkind, String.toList_ofList, List.getLast?_concat]
    rcases hc with rfl | rfl <;> revert hlast <;> cases kind <;> decide
  · intro hvoid
    have hlast : ['v', 'o', 'i', 'd'].getLast? = some c := by
      rw [← hvoid, List.getLast?_concat]
    rcases hc with rfl | rfl <;> revert hlast <;> decide

/-! ## Layers -/

/-- The trimmed descriptors of each layer. -/
inductive Layer.Of : List Char → Layer → Prop
  | scalar (kind : Scalar) : Layer.Of kind.keyword.toList (.scalar kind)
  | array {body blanks : List Char} (hbody : IsBody body) (hblanks : AllBlank blanks) :
      Layer.Of (body ++ blanks ++ ['[', ']']) (.array (body ++ blanks))
  | name {name : List Char} (hname : IsOuterName true name) : Layer.Of name (.name name)
  | generic {name blanks inner : List Char} {arguments : List (List Char)}
      (hname : IsOuterName false name) (hblanks : AllBlank blanks)
      (harguments : readArguments inner = .ok arguments) :
      Layer.Of (name ++ blanks ++ '<' :: inner ++ ['>']) (.generic name arguments)

/-- What is neither nothing, nor a word of the language, nor a wildcard is an array or a name. -/
theorem outermost_of_isBody {descriptor : List Char} (hbody : IsBody (trim descriptor))
    (hscalar : Scalar.ofKeyword? (String.ofList (trim descriptor)) = none)
    (hvoid : trim descriptor ≠ ['v', 'o', 'i', 'd']) :
    outermost descriptor =
      match List.isSuffixOf? ['[', ']'] (trim descriptor) with
      | some element =>
        if trim element = [] then .error (.descriptor (String.ofList descriptor) .bareSuffix)
        else .ok (.array element)
      | none => (outermostReference (trim descriptor)).mapError
          (.descriptor (String.ofList (trim descriptor))) := by
  rw [outermost]
  cases List.isSuffixOf? ['[', ']'] (trim descriptor) <;>
    simp only [hbody.ne_nil, if_false, hscalar, hvoid, hbody.head?_ne]

theorem isSuffixOf?_array_of_closing (cs : List Char) :
    List.isSuffixOf? ['[', ']'] (cs ++ ['>']) = none := by
  rw [isSuffixOf?_eq_none_iff]
  rintro ⟨front, hfront⟩
  have hlast := congrArg List.getLast? hfront
  rw [List.getLast?_concat, List.getLast?_append] at hlast
  simp at hlast

theorem outermost_of_layerOf {descriptor : List Char} {layer : Layer}
    (h : Layer.Of (trim descriptor) layer) : outermost descriptor = .ok layer := by
  generalize htrim : trim descriptor = trimmed at h
  cases h with
  | scalar kind =>
    have hbody := isBody_keyword kind
    have hkind : Scalar.ofKeyword? (String.ofList (trim descriptor)) = some kind := by
      rw [htrim, String.ofList_toList, ofKeyword?_eq_some_iff]
    rw [← htrim] at hbody
    rw [outermost]
    simp only [hbody.ne_nil, if_false, hkind]
  | @array body blanks hbody hblanks =>
    have hclosing : body ++ blanks ++ ['[', ']'] = body ++ (blanks ++ ['[']) ++ [']'] := by simp
    have hwhole := hbody.append (blanks ++ ['[']) (c := ']') (by decide)
    obtain ⟨hscalar, hvoid⟩ :=
      not_scalar_or_void_concat (body ++ (blanks ++ ['['])) (c := ']') (.inl rfl)
    rw [← hclosing, ← htrim] at hwhole hscalar hvoid
    have hending : List.isSuffixOf? ['[', ']'] (trim descriptor) = some (body ++ blanks) :=
      List.isSuffixOf?_eq_some_iff_append_eq.2 htrim.symm
    rw [outermost_of_isBody hwhole hscalar hvoid, hending]
    simp only [hbody.trim_append hblanks, hbody.ne_nil, if_false]
  | name hname =>
    subst htrim
    have hbare := hname.isBareName rfl
    rw [outermost_of_isBody hname.toIsBody hbare.not_scalar hbare.ne_void,
      isSuffixOf?_eq_none_iff.2 hbare.not_array, outermostReference,
      cut_of_not_mem hname.opening_not_mem]
    simp only [hname.closing_not_mem rfl, if_false]
    rfl
  | @generic name blanks inner arguments hname hblanks harguments =>
    have hclosing : name ++ blanks ++ '<' :: inner ++ ['>']
        = name ++ (blanks ++ '<' :: inner) ++ ['>'] := by simp
    have hwhole := hname.toIsBody.append (blanks ++ '<' :: inner) (c := '>') (by decide)
    obtain ⟨hscalar, hvoid⟩ :=
      not_scalar_or_void_concat (name ++ (blanks ++ '<' :: inner)) (c := '>') (.inr rfl)
    rw [← hclosing, ← htrim] at hwhole hscalar hvoid
    have hending : List.isSuffixOf? ['[', ']'] (trim descriptor) = none := by
      rw [htrim]
      exact isSuffixOf?_array_of_closing _
    -- the first bracket is the one after the name
    have hopening : '<' ∉ name ++ blanks := by
      rw [List.mem_append]
      rintro (hmem | hmem)
      · exact hname.opening_not_mem hmem
      · exact Bool.false_ne_true (hblanks _ hmem)
    have hcut : cut '<' (trim descriptor) = some (name ++ blanks, inner ++ ['>']) := by
      rw [htrim, List.append_assoc (name ++ blanks), List.cons_append]
      exact cut_append_sep hopening _
    rw [outermost_of_isBody hwhole hscalar hvoid, hending, outermostReference, hcut]
    simp only [hname.toIsBody.trim_append hblanks, hname.ne_nil, if_false,
      List.isSuffixOf?_eq_some_iff_append_eq.2 (rfl : inner ++ ['>'] = inner ++ ['>']), harguments]
    rfl

theorem layerOf_of_outermostReference {trimmed : List Char} {layer : Layer}
    (hbody : IsBody trimmed) (hbare : IsBareName trimmed)
    (h : outermostReference trimmed = .ok layer) : Layer.Of trimmed layer := by
  rw [outermostReference] at h
  split at h
  · rename_i hcut
    split at h
    · cases h
    · rename_i hclosing
      cases h
      exact .name ⟨hbody, cut_eq_none hcut, fun _ => hclosing, fun _ => hbare⟩
  · rename_i before after hcut
    obtain ⟨rfl, hopening⟩ := cut_eq_some hcut
    split at h
    · cases h
    rename_i hne
    split at h
    · cases h
    rename_i inner hinner
    replace hinner := (List.append_eq_of_isSuffixOf?_eq_some hinner).symm
    subst hinner
    obtain ⟨arguments, harguments, rfl⟩ := map_eq_ok_iff.1 h
    obtain ⟨hname, blanks, hblanks, hbefore⟩ :=
      exists_body_append hbody.trim_eq hbody.head?_ne hne
    have houter : IsOuterName false (trim before) :=
      ⟨hname, fun hmem => hopening (mem_of_mem_trim hmem), nofun, nofun⟩
    have hof := Layer.Of.generic houter hblanks harguments
    rwa [← hbefore, List.append_assoc before, List.cons_append] at hof

theorem layerOf_of_outermost {descriptor : List Char} {layer : Layer}
    (h : outermost descriptor = .ok layer) : Layer.Of (trim descriptor) layer := by
  rw [outermost] at h
  split at h
  · cases h
  rename_i hne
  split at h
  · rename_i kind hkind
    cases h
    have htext := ofKeyword?_eq_some_iff.1 hkind
    rw [← String.toList_inj, String.toList_ofList] at htext
    rw [htext]
    exact .scalar kind
  rename_i hscalar
  split at h
  · cases h
  rename_i hvoid
  split at h
  · cases h
  rename_i hhead
  have hbody : IsBody (trim descriptor) := ⟨hne, trim_trim descriptor, hhead⟩
  split at h
  · rename_i element hending
    replace hending := (List.append_eq_of_isSuffixOf?_eq_some hending).symm
    split at h
    · cases h
    · rename_i helement
      cases h
      rw [hending] at hbody ⊢
      obtain ⟨hfront, blanks, hblanks, heq⟩ :=
        exists_body_append hbody.trim_eq hbody.head?_ne helement
      rw [heq]
      exact .array hfront hblanks
  · rename_i hending
    rw [isSuffixOf?_eq_none_iff] at hending
    cases href : outermostReference (trim descriptor) with
    | error flaw =>
      rw [href] at h
      cases h
    | ok found =>
      rw [href] at h
      cases h
      exact layerOf_of_outermostReference hbody ⟨hending, hscalar, hvoid⟩ href

/-- **A layer is found exactly in its descriptors.** -/
theorem outermost_eq_ok_iff {descriptor : List Char} {layer : Layer} :
    outermost descriptor = .ok layer ↔ Layer.Of (trim descriptor) layer :=
  ⟨layerOf_of_outermost, outermost_of_layerOf⟩

/-! ## Layer by layer -/

/-- The type of a layer, with what is inside it read. -/
def Layer.read : Layer → Except Fault FieldType
  | .scalar kind => .ok (.scalar kind)
  | .array element => (FieldType.readChars element).map .array
  | .name text => .ok (.reference (String.ofList text) [])
  | .generic text arguments => (FieldType.readAll arguments).map (.reference (String.ofList text))

theorem readChars_of_outermost {descriptor : List Char} {layer : Layer}
    (h : outermost descriptor = .ok layer) : FieldType.readChars descriptor = layer.read := by
  rw [FieldType.readChars]
  split <;> rename_i hlayer <;> rw [h] at hlayer <;> cases hlayer <;> rfl

/-- **A type is read layer by layer.** -/
theorem readChars_eq_ok_iff_layer {descriptor : List Char} {type : FieldType} :
    FieldType.readChars descriptor = .ok type ↔
      ∃ layer, Layer.Of (trim descriptor) layer ∧ layer.read = .ok type := by
  constructor
  · intro h
    cases hlayer : outermost descriptor with
    | error fault =>
      rw [FieldType.readChars] at h
      split at h <;> rename_i hfound <;> rw [hlayer] at hfound <;> cases hfound
      cases h
    | ok layer =>
      rw [readChars_of_outermost hlayer] at h
      exact ⟨layer, outermost_eq_ok_iff.1 hlayer, h⟩
  · rintro ⟨layer, hof, hread⟩
    rw [readChars_of_outermost (outermost_eq_ok_iff.2 hof), hread]

theorem Layer.eq_scalar_of_read {layer : Layer} {kind : Scalar}
    (h : layer.read = .ok (.scalar kind)) : layer = .scalar kind := by
  cases layer with
  | scalar kind =>
    cases h
    rfl
  | array element =>
    obtain ⟨type, -, htype⟩ := map_eq_ok_iff.1 h
    cases htype
  | name text => cases h
  | generic text arguments =>
    obtain ⟨types, -, htypes⟩ := map_eq_ok_iff.1 h
    cases htypes

theorem Layer.eq_array_of_read {layer : Layer} {type : FieldType}
    (h : layer.read = .ok (.array type)) :
    ∃ element, layer = .array element ∧ FieldType.readChars element = .ok type := by
  cases layer with
  | scalar kind => cases h
  | array element =>
    obtain ⟨found, hfound, htype⟩ := map_eq_ok_iff.1 h
    cases htype
    exact ⟨element, rfl, hfound⟩
  | name text => cases h
  | generic text arguments =>
    obtain ⟨types, -, htypes⟩ := map_eq_ok_iff.1 h
    cases htypes

theorem Layer.eq_reference_of_read {layer : Layer} {name : String} {types : List FieldType}
    (h : layer.read = .ok (.reference name types)) :
    layer = .name name.toList ∧ types = [] ∨
      ∃ arguments, layer = .generic name.toList arguments ∧
        FieldType.readAll arguments = .ok types := by
  cases layer with
  | scalar kind => cases h
  | array element =>
    obtain ⟨type, -, htype⟩ := map_eq_ok_iff.1 h
    cases htype
  | name text =>
    cases h
    exact .inl ⟨by rw [String.toList_ofList], rfl⟩
  | generic text arguments =>
    obtain ⟨found, hfound, htypes⟩ := map_eq_ok_iff.1 h
    cases htypes
    exact .inr ⟨arguments, by rw [String.toList_ofList], hfound⟩

theorem readAll_eq_ok_iff {descriptors : List (List Char)} {types : List FieldType} :
    FieldType.readAll descriptors = .ok types ↔
      List.Forall₂ (fun descriptor type => FieldType.readChars descriptor = .ok type)
        descriptors types := by
  induction descriptors generalizing types with
  | nil =>
    rw [FieldType.readAll, List.forall₂_nil_left_iff, Except.ok.injEq, eq_comm]
  | cons descriptor rest ih =>
    rw [FieldType.readAll]
    constructor
    · intro h
      split at h
      · cases h
      rename_i type hfirst
      obtain ⟨others, hothers, rfl⟩ := map_eq_ok_iff.1 h
      exact .cons hfirst (ih.1 hothers)
    · intro h
      cases h with
      | cons hfirst hrest =>
        rw [hfirst, ih.2 hrest]
        rfl

end ValueClass
