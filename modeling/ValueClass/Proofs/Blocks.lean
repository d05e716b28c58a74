import Mathlib.Data.List.DropRight
import ValueClass.Proofs.RoundTrip

/-!
# Blocks of documentation

A declaration is read line by line, and what is pending goes from each line to the next. What comes
of it can be told from the lines alone: a block of comments belongs to the line below it.

* `commentText?`, `isFieldLine`: what a line is, by its first character that is not a blank.
* `block`: the documentation that some lines end with.
* `gathered_line`, `gathered_lines`: **what has been read is what the lines so far say**, after one
  line more and so after any number of lines.
* `read_declares_blocks`: the fields of a class are its field lines with the blocks above them, and
  the class has the first block that a blank line ends above all fields.
-/

namespace ValueClass

open Text

/-! ## Lines -/

/-- The text of a comment: what follows the mark, less one space. -/
def commentText? (line : List Char) : Option (List Char) :=
  match line.dropWhile isBlank with
  | '#' :: rest => some (if rest.head? = some ' ' then rest.tail else rest)
  | _ => none

/-- Whether a line is to declare a field: it is neither blank nor a comment. -/
def isFieldLine (line : List Char) : Bool :=
  !line.all isBlank && (commentText? line).isNone

/-- A line is blank, a comment or a field line, and no two of them. -/
theorem lineOf_cases (line : List Char) :
    (Line.of line = .blank ∧ line.all isBlank = true ∧ commentText? line = none) ∨
      (∃ text, Line.of line = .comment text ∧ line.all isBlank = false ∧
        commentText? line = some text) ∨
      (Line.of line = .field ∧ line.all isBlank = false ∧ commentText? line = none) := by
  unfold Line.of commentText? trimStart
  cases hstart : line.dropWhile isBlank with
  | nil =>
    have hblank : line.all isBlank = true := by
      rw [List.all_eq_true]
      exact List.dropWhile_eq_nil_iff.1 hstart
    exact .inl ⟨rfl, hblank, rfl⟩
  | cons c rest =>
    have hblank : line.all isBlank = false := by
      rw [Bool.eq_false_iff]
      intro hall
      rw [List.dropWhile_eq_nil_iff.2 (List.all_eq_true.1 hall)] at hstart
      cases hstart
    by_cases hmark : c = '#'
    · subst hmark
      refine .inr (.inl ⟨_, ?_, hblank, rfl⟩)
      cases rest with
      | nil => rfl
      | cons d rest =>
        by_cases hspace : d = ' '
        · subst hspace
          rfl
        · simp [hspace]
    · refine .inr (.inr ⟨?_, hblank, ?_⟩) <;> simp [hmark]

/-! ## Blocks -/

/-- Lines of documentation put together. Empty ones at the start are left out. -/
def joined (texts : List (List Char)) : List Char :=
  List.intercalate ['\n'] (texts.dropWhile List.isEmpty)

/-- **The documentation that the given lines end with**: the comments that nothing comes after. -/
def block (above : List (List Char)) : List Char :=
  joined ((above.rtakeWhile fun line => (commentText? line).isSome).filterMap commentText?)

theorem joined_concat (texts : List (List Char)) (text : List Char) :
    joined (texts ++ [text])
      = if joined texts = [] then text else joined texts ++ '\n' :: text := by
  -- a reading with nothing pending puts lines together in the same way
  have hread := foldl_comment (r := {}) rfl (texts ++ [text])
  rw [List.foldl_append, foldl_comment rfl texts] at hread
  exact (congrArg Reading.pending hread).symm

theorem block_concat_of_comment {line text : List Char} (h : commentText? line = some text)
    (above : List (List Char)) :
    block (above ++ [line]) = if block above = [] then text else block above ++ '\n' :: text := by
  unfold block
  rw [List.rtakeWhile_concat, if_pos (by rw [h]; rfl), List.filterMap_append,
    List.filterMap_cons_some h, List.filterMap_nil, joined_concat]

theorem block_concat_of_none {line : List Char} (h : commentText? line = none)
    (above : List (List Char)) : block (above ++ [line]) = [] := by
  unfold block
  rw [List.rtakeWhile_concat, if_neg (by rw [h]; decide)]
  rfl

/-! ## Places -/

/-- A line with the lines above it. -/
structure Place where
  above : List (List Char)
  line : List Char
  deriving DecidableEq, Repr

/-- The lines of a text, each with those above it. -/
def places (ls : List (List Char)) : List Place :=
  ls.mapIdx fun i line => ⟨ls.take i, line⟩

/-- Whether the place is of a field line. -/
def Place.isField (p : Place) : Bool :=
  isFieldLine p.line

/-- Whether the place is of a blank line that ends a block, and no field line comes before. -/
def Place.endsClassBlock (p : Place) : Bool :=
  p.line.all isBlank && !p.above.any isFieldLine && block p.above != []

/-- **The line declares the field**: what stands before and after its first colon, trimmed, and the
block above it. -/
def Place.Declares (p : Place) (f : Field) : Prop :=
  ∃ before after, p.line = before ++ ':' :: after ∧ ':' ∉ before ∧
    f = ⟨String.ofList (trim before), String.ofList (trim after), String.ofList (block p.above)⟩

theorem places_concat (above : List (List Char)) (line : List Char) :
    places (above ++ [line]) = places above ++ [⟨above, line⟩] := by
  unfold places
  rw [List.mapIdx_concat, List.take_left']
  · congr 1
    rw [List.mapIdx_eq_mapIdx_iff]
    intro i hi
    rw [List.take_append_of_le_length (Nat.le_of_lt hi)]
  · rfl

theorem filter_isField_eq_nil_iff (ls : List (List Char)) :
    (places ls).filter Place.isField = [] ↔ ls.any isFieldLine = false := by
  induction ls using List.reverseRecOn with
  | nil => simp [places]
  | append_singleton above line ih =>
    rw [places_concat, List.filter_append, List.append_eq_nil_iff, ih, List.any_append]
    simp [Place.isField]

theorem filter_isField_concat {line : List Char} (h : isFieldLine line = false)
    (above : List (List Char)) :
    (places (above ++ [line])).filter Place.isField = (places above).filter Place.isField := by
  rw [places_concat, List.filter_append, List.filter_cons_of_neg (by simp [Place.isField, h]),
    List.filter_nil, List.append_nil]

/-- A line that is not blank ends no block. -/
theorem find?_endsClassBlock_concat {line : List Char} (h : line.all isBlank = false)
    (above : List (List Char)) :
    (places (above ++ [line])).find? Place.endsClassBlock
      = (places above).find? Place.endsClassBlock := by
  rw [places_concat, List.find?_append, List.find?_singleton]
  simp [Place.endsClassBlock, h]

/-! ## Reading -/

/-- What was read so far is what the given lines say. -/
structure Reading.Gathered (r : Reading) (above : List (List Char)) : Prop where
  pending : r.pending = block above
  ofClass : r.ofClass = ((places above).find? Place.endsClassBlock).map (block ·.above)
  fields : List.Forall₂ Place.Declares ((places above).filter Place.isField) r.fields

variable {r next : Reading} {above : List (List Char)} {line : List Char}

/-- No field was read yet exactly if no field line was. -/
theorem Reading.Gathered.fields_eq_nil_iff (h : r.Gathered above) :
    r.fields = [] ↔ above.any isFieldLine = false := by
  rw [← filter_isField_eq_nil_iff]
  have hfields := h.fields
  constructor
  · intro hnil
    rw [hnil] at hfields
    exact List.forall₂_nil_right_iff.1 hfields
  · intro hnil
    rw [hnil] at hfields
    exact List.forall₂_nil_left_iff.1 hfields

theorem Reading.pending_separate (r : Reading) : r.separate.pending = [] := by
  unfold Reading.separate
  split <;> rfl

theorem Reading.fields_separate (r : Reading) : r.separate.fields = r.fields := by
  unfold Reading.separate
  split <;> rfl

/-- What the class has stays, and else it gets what is pending, if no field came before. -/
theorem Reading.ofClass_separate (r : Reading) :
    r.separate.ofClass
      = r.ofClass.or (if r.fields = [] ∧ r.pending ≠ [] then some r.pending else none) := by
  unfold Reading.separate
  obtain ⟨pending, ofClass, fields⟩ := r
  cases ofClass with
  | some documentation => simp
  | none =>
    by_cases hcommit : fields = [] ∧ pending ≠ []
    · rw [if_pos ⟨rfl, hcommit⟩, if_pos hcommit]
      rfl
    · rw [if_neg fun hall => hcommit hall.2, if_neg hcommit]
      rfl

theorem Reading.Gathered.separate (h : r.Gathered above) (hblank : line.all isBlank = true)
    (hcomment : commentText? line = none) : r.separate.Gathered (above ++ [line]) := by
  -- the line ends a block of the class exactly if what is pending can go to the class
  have hends : Place.endsClassBlock ⟨above, line⟩ = true ↔ r.fields = [] ∧ r.pending ≠ [] := by
    rw [h.fields_eq_nil_iff, h.pending]
    simp [Place.endsClassBlock, hblank]
  refine ⟨?_, ?_, ?_⟩
  · rw [r.pending_separate, block_concat_of_none hcomment]
  · rw [r.ofClass_separate, h.ofClass, places_concat, List.find?_append, List.find?_singleton,
      Option.map_or]
    congr 1
    by_cases hcommit : r.fields = [] ∧ r.pending ≠ []
    · rw [if_pos hcommit, if_pos (hends.2 hcommit), h.pending]
      rfl
    · rw [if_neg hcommit, if_neg fun htrue => hcommit (hends.1 htrue)]
      rfl
  · rw [r.fields_separate, filter_isField_concat (by simp [isFieldLine, hblank])]
    exact h.fields

theorem Reading.Gathered.comment (h : r.Gathered above) {text : List Char}
    (hblank : line.all isBlank = false) (hcomment : commentText? line = some text) :
    (r.comment text).Gathered (above ++ [line]) := by
  refine ⟨?_, ?_, ?_⟩
  · rw [block_concat_of_comment hcomment, ← h.pending]
    rfl
  · rw [find?_endsClassBlock_concat hblank]
    exact h.ofClass
  · rw [filter_isField_concat (by simp [isFieldLine, hcomment])]
    exact h.fields

theorem Reading.Gathered.addField (h : r.Gathered above) {name descriptor : List Char}
    (hblank : line.all isBlank = false) (hcomment : commentText? line = none)
    (hparts : fieldParts? line = some (name, descriptor)) :
    (r.addField name descriptor).Gathered (above ++ [line]) := by
  have hfield : Place.isField ⟨above, line⟩ = true := by
    simp [Place.isField, isFieldLine, hblank, hcomment]
  have hdeclares : Place.Declares ⟨above, line⟩
      ⟨String.ofList name, String.ofList descriptor, String.ofList r.pending⟩ := by
    unfold fieldParts? at hparts
    split at hparts
    · cases hparts
    rename_i before after hcut
    split at hparts
    · cases hparts
    cases hparts
    obtain ⟨hline, hcolon⟩ := cut_eq_some hcut
    exact ⟨before, after, hline, hcolon, by rw [h.pending]⟩
  refine ⟨?_, ?_, ?_⟩
  · rw [block_concat_of_none hcomment]
    rfl
  · rw [find?_endsClassBlock_concat hblank]
    exact h.ofClass
  · rw [places_concat, List.filter_append, List.filter_singleton, hfield]
    exact List.rel_append h.fields (.cons hdeclares .nil)

/-- **What has been read is what the lines so far say**, one line more included. -/
theorem gathered_line {number : Nat} (hline : r.line number line = .ok next)
    (h : r.Gathered above) : next.Gathered (above ++ [line]) := by
  unfold Reading.line at hline
  rcases lineOf_cases line with ⟨hkind, hblank, hcomment⟩ | ⟨text, hkind, hblank, hcomment⟩ |
    ⟨hkind, hblank, hcomment⟩ <;> rw [hkind] at hline
  · cases hline
    exact h.separate hblank hcomment
  · cases hline
    exact h.comment hblank hcomment
  · dsimp only at hline
    split at hline
    · rename_i name descriptor hparts
      cases hline
      exact h.addField hblank hcomment hparts
    · cases hline

theorem gathered_lines {result : Reading} {number : Nat} {ls : List (List Char)}
    (hlines : r.lines number ls = .ok result) (h : r.Gathered above) :
    result.Gathered (above ++ ls) := by
  induction ls generalizing r number above with
  | nil =>
    cases hlines
    rwa [List.append_nil]
  | cons line ls ih =>
    unfold Reading.lines at hlines
    split at hlines
    · cases hlines
    · rename_i middle hmiddle
      have hrest := ih hlines (gathered_line hmiddle h)
      rwa [List.append_assoc, List.singleton_append] at hrest

/-- **The fields of a class are its field lines with the blocks above them**, one for each and in
their order. The class has the first block that a blank line ends above all fields, if there is
one. -/
theorem read_declares_blocks {target text : String} {d : Description}
    (h : Description.read target text = .ok d) :
    List.Forall₂ Place.Declares ((places (lines text.toList)).filter Place.isField) d.fields ∧
      d.documentation = String.ofList
        ((((places (lines text.toList)).find? Place.endsClassBlock).map (block ·.above)).getD
          []) := by
  unfold Description.read at h
  split at h
  · cases h
  split at h
  · cases h
  rename_i reading hlines
  cases h
  have hstart : Reading.Gathered {} [] := ⟨rfl, rfl, .nil⟩
  have hall := gathered_lines hlines hstart
  rw [List.nil_append] at hall
  exact ⟨hall.fields, by rw [hall.ofClass]⟩

/-- Empty comments, blocks that blank lines end before and after the first field, a colon in a type,
and comments that nothing comes after. -/
theorem read_declares_blocks_all_kinds :
    let text := "#\n # A.\n#\n#  B.\n\n# -\n \n# C.\nx: int\n# -\n\ny:a:b\n#-"
    let d : Description := ⟨"", "P", "A.\n\n B.", [⟨"x", "int", "C."⟩, ⟨"y", "a:b", ""⟩]⟩
    Description.read "P" text = .ok d ∧
      List.Forall₂ Place.Declares ((places (lines text.toList)).filter Place.isField) d.fields ∧
      d.documentation = String.ofList
        ((((places (lines text.toList)).find? Place.endsClassBlock).map (block ·.above)).getD
          []) := by
  intro text d
  have hread : Description.read "P" text = .ok d := by decide +kernel
  exact ⟨hread, read_declares_blocks hread⟩

end ValueClass
