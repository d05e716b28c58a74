import ValueClass.Declaration.Printer
import ValueClass.Proofs.Legible
import ValueClass.Proofs.Lists

/-!
# Reading what was written

A declaration that was written from a description is read line by line. Each block of lines that
the writer makes has one effect on the reading, so the effects add up over any number of fields.

* `Description.declarationChars_eq`: a written declaration is its lines, each ended by a line feed.
* `lines_documentationLines`, `lines_fieldLines`: what a block of documentation and what a field
  with its documentation do to a reading.
* `read_declaration_of_legible`: a legible description is read back with its documentation tidied:
  without the empty lines at its start and without carriage returns at line ends.
* `read_declaration_eq_ok_iff`: **a description is read back as it was exactly if it is legible and
  its documentation is tidy.**
-/

namespace ValueClass

open Text

/-! ## The lines of a declaration -/

/-- A line of documentation with its marker. -/
def markedLine (line : List Char) : List Char :=
  if line = [] then ['#'] else '#' :: ' ' :: line

def documentationLines (documentation : List Char) : List (List Char) :=
  if documentation = [] then [] else (List.splitOn '\n' documentation).map markedLine

/-- The line that declares a field. -/
def Field.line (f : Field) : List Char :=
  f.name.toList ++ ':' :: ' ' :: f.descriptor.toList

def Field.lines (f : Field) : List (List Char) :=
  documentationLines f.documentation.toList ++ [f.line]

/-- The lines before the fields: the documentation of the class, and an empty line to end it. -/
def Description.headLines (d : Description) : List (List Char) :=
  if d.documentation = "" then [] else documentationLines d.documentation.toList ++ [[]]

def Description.lines (d : Description) : List (List Char) :=
  d.headLines ++ d.fields.flatMap Field.lines

theorem commentLine_eq (line : List Char) : commentLine line = markedLine line ++ ['\n'] := by
  unfold commentLine markedLine
  split <;> rfl

theorem commentLines_eq (documentation : List Char) :
    commentLines documentation = (documentationLines documentation).flatMap (· ++ ['\n']) := by
  unfold commentLines documentationLines
  split
  · rfl
  · rw [List.flatMap_map]
    exact congrArg (List.flatMap · _) (funext commentLine_eq)

theorem Field.declarationChars_eq (f : Field) :
    f.declarationChars = f.lines.flatMap (· ++ ['\n']) := by
  simp [Field.declarationChars, Field.lines, Field.line, commentLines_eq]

/-- A written declaration is its lines, each ended by a line feed. -/
theorem Description.declarationChars_eq (d : Description) :
    d.declarationChars = d.lines.flatMap (· ++ ['\n']) := by
  have hfields : d.fields.flatMap Field.declarationChars
      = (d.fields.flatMap Field.lines).flatMap (· ++ ['\n']) := by
    rw [List.flatMap_assoc]
    exact congrArg (List.flatMap · _) (funext Field.declarationChars_eq)
  rw [Description.declarationChars, Description.lines, List.flatMap_append, hfields,
    Description.headLines]
  split
  · rfl
  · simp [commentLines_eq]

theorem newline_not_mem_markedLine {line : List Char} (h : '\n' ∉ line) :
    '\n' ∉ markedLine line := by
  unfold markedLine
  split
  · decide
  · simp [h]

theorem newline_not_mem_of_mem_documentationLines {documentation line : List Char}
    (h : line ∈ documentationLines documentation) : '\n' ∉ line := by
  unfold documentationLines at h
  split at h
  · cases h
  · obtain ⟨piece, hpiece, rfl⟩ := List.mem_map.1 h
    exact newline_not_mem_markedLine (not_mem_of_mem_splitOn hpiece)

theorem newline_not_mem_of_mem_fieldLines {f : Field} (hf : f.Legible) {line : List Char}
    (h : line ∈ f.lines) : '\n' ∉ line := by
  rcases List.mem_append.1 h with h | h
  · exact newline_not_mem_of_mem_documentationLines h
  · rw [List.mem_singleton.1 h, Field.line]
    simp [hf.newline_not_mem_name, hf.newline_not_mem_descriptor]

theorem newline_not_mem_of_mem_lines_of_legible {d : Description} (hd : d.Legible)
    {line : List Char} (h : line ∈ d.lines) : '\n' ∉ line := by
  rcases List.mem_append.1 h with h | h
  · unfold Description.headLines at h
    split at h
    · cases h
    rcases List.mem_append.1 h with h | h
    · exact newline_not_mem_of_mem_documentationLines h
    · rw [List.mem_singleton.1 h]
      exact List.not_mem_nil
  · obtain ⟨f, hf, hline⟩ := List.mem_flatMap.1 h
    exact newline_not_mem_of_mem_fieldLines (hd.fields f hf) hline

/-! ## Reading blocks of lines -/

/-- What was read of some lines is where reading the lines after them starts. -/
theorem lines_append {r next : Reading} {number : Nat} {ls : List (List Char)}
    (h : r.lines number ls = .ok next) (rest : List (List Char)) :
    r.lines number (ls ++ rest) = next.lines (number + ls.length) rest := by
  induction ls generalizing r number with
  | nil =>
    cases h
    rfl
  | cons line ls ih =>
    rw [Reading.lines] at h
    rw [List.cons_append, Reading.lines]
    split at h
    · cases h
    · rename_i middle hmiddle
      have hnumber : number + (line :: ls).length = number + 1 + ls.length := by
        rw [List.length_cons]
        omega
      rw [hnumber]
      exact ih h

/-- Documentation as it is read back: no line ends in a carriage return, and it does not start with
an empty line. -/
def tidy (documentation : List Char) : List Char :=
  List.intercalate ['\n']
    (((List.splitOn '\n' documentation).map dropReturn).dropWhile List.isEmpty)

theorem tidy_nil : tidy [] = [] := rfl

theorem lineOf_dropReturn_markedLine (line : List Char) :
    Line.of (dropReturn (markedLine line)) = .comment (dropReturn line) := by
  unfold markedLine
  split
  · rename_i hnil
    subst hnil
    decide
  · rename_i hne
    have hdrop : dropReturn ('#' :: ' ' :: line) = '#' :: ' ' :: dropReturn line :=
      dropReturn_append ['#', ' '] hne
    have hmark : isBlank '#' = false := by decide
    rw [hdrop, Line.of, trimStart_cons_of_not_blank hmark]
    rfl

theorem lines_markedLines (r : Reading) (number : Nat) (ls : List (List Char)) :
    r.lines number ((ls.map markedLine).map dropReturn)
      = .ok ((ls.map dropReturn).foldl Reading.comment r) := by
  induction ls generalizing r number with
  | nil => rfl
  | cons line ls ih =>
    simp only [List.map_cons, Reading.lines, Reading.line, lineOf_dropReturn_markedLine,
      List.foldl_cons]
    exact ih (r.comment (dropReturn line)) (number + 1)

/-- Below documentation that is pending, every line is kept. -/
theorem foldl_comment_of_pending {r : Reading} (h : r.pending ≠ []) (texts : List (List Char)) :
    texts.foldl Reading.comment r
      = { r with pending := r.pending ++ texts.flatMap ('\n' :: ·) } := by
  induction texts generalizing r with
  | nil => simp
  | cons text texts ih =>
    have hcomment : r.comment text = { r with pending := r.pending ++ '\n' :: text } := by
      rw [Reading.comment, if_neg h]
    have hne : r.pending ++ '\n' :: text ≠ [] := by simp
    rw [List.foldl_cons, hcomment, ih hne]
    simp

/-- Where nothing is pending, the empty lines at the start are lost. -/
theorem foldl_comment {r : Reading} (h : r.pending = []) (texts : List (List Char)) :
    texts.foldl Reading.comment r
      = { r with pending := List.intercalate ['\n'] (texts.dropWhile List.isEmpty) } := by
  induction texts with
  | nil =>
    obtain ⟨pending, ofClass, fields⟩ := r
    cases h
    rfl
  | cons text texts ih =>
    have hcomment : r.comment text = { r with pending := text } := by
      rw [Reading.comment, if_pos h]
    -- an empty line leaves nothing pending, any other makes all lines after it be kept
    cases text with
    | nil =>
      have hsame : r.comment [] = r := by
        rw [hcomment, ← h]
      rw [List.foldl_cons, hsame, ih]
      rfl
    | cons c text =>
      have hne : ({ r with pending := c :: text } : Reading).pending ≠ [] := List.cons_ne_nil _ _
      rw [List.foldl_cons, hcomment, foldl_comment_of_pending hne]
      simp [intercalate_cons]

/-- **A block of documentation is pending after it was read**, tidied. -/
theorem lines_documentationLines {r : Reading} (h : r.pending = []) (number : Nat)
    (documentation : List Char) :
    r.lines number ((documentationLines documentation).map dropReturn)
      = .ok { r with pending := tidy documentation } := by
  unfold documentationLines
  split
  · rename_i hnil
    subst hnil
    rw [tidy_nil, ← h]
    rfl
  · rw [lines_markedLines, foldl_comment h, tidy]

def Field.tidied (f : Field) : Field :=
  { f with documentation := String.ofList (tidy f.documentation.toList) }

theorem dropReturn_fieldLine {f : Field} (hf : f.Legible) : dropReturn f.line = f.line := by
  have hlast : f.descriptor.toList.getLast? ≠ some '\r' := by
    intro hreturn
    rw [← hf.trim_descriptor] at hreturn
    have hblank := not_isBlank_of_getLast?_trim hreturn
    revert hblank
    decide
  have hline : f.line = (f.name.toList ++ [':', ' ']) ++ f.descriptor.toList := by
    simp [Field.line]
  rw [hline, dropReturn_append _ hf.descriptor_toList_ne_nil, dropReturn_of_getLast? hlast]

theorem lineOf_fieldLine {f : Field} (hf : f.Legible) : Line.of f.line = .field := by
  obtain ⟨c, cs, hname⟩ := List.exists_cons_of_ne_nil hf.name_toList_ne_nil
  have hblank : isBlank c = false := by
    have hhead : (trim f.name.toList).head? = some c := by
      rw [hf.trim_name, hname, List.head?_cons]
    exact not_isBlank_of_head?_trim hhead
  have hmark : c ≠ '#' := by
    intro hc
    apply hf.head?_name
    rw [hname, hc, List.head?_cons]
  rw [Field.line, hname, List.cons_append]
  exact lineOf_cons hblank hmark _

theorem fieldParts?_fieldLine {f : Field} (hf : f.Legible) :
    fieldParts? f.line = some (f.name.toList, f.descriptor.toList) := by
  have hspace : trim (' ' :: f.descriptor.toList) = f.descriptor.toList := by
    rw [trim_cons_of_blank (by decide), hf.trim_descriptor]
  rw [fieldParts?, Field.line, cut_append_sep hf.colon_not_mem_name]
  simp [hspace, hf.trim_name, hf.name_toList_ne_nil, hf.descriptor_toList_ne_nil]

/-- **A field and its documentation add the field to what was read**, and leave nothing pending. -/
theorem lines_fieldLines {f : Field} (hf : f.Legible) {r : Reading} (h : r.pending = [])
    (number : Nat) :
    r.lines number (f.lines.map dropReturn)
      = .ok { r with fields := r.fields ++ [f.tidied] } := by
  have hdocumentation := lines_documentationLines h number f.documentation.toList
  rw [Field.lines, List.map_append, lines_append hdocumentation, List.map_singleton,
    dropReturn_fieldLine hf]
  simp only [Reading.lines, Reading.line, lineOf_fieldLine hf, fieldParts?_fieldLine hf,
    Reading.addField, String.ofList_toList, h]
  rfl

theorem lines_fields {fs : List Field} (hfs : ∀ f ∈ fs, f.Legible) {r : Reading}
    (h : r.pending = []) (number : Nat) :
    r.lines number ((fs.flatMap Field.lines).map dropReturn)
      = .ok { r with fields := r.fields ++ fs.map Field.tidied } := by
  induction fs generalizing r number with
  | nil => simp [Reading.lines]
  | cons f fs ih =>
    have hfield := lines_fieldLines (hfs f List.mem_cons_self) h number
    have hrest := ih (fun g hg => hfs g (List.mem_cons_of_mem _ hg))
      (r := { r with fields := r.fields ++ [f.tidied] }) h
    rw [List.flatMap_cons, List.map_append, lines_append hfield, hrest]
    simp

/-- The lines before the fields give the class its documentation. -/
theorem lines_headLines (d : Description) (number : Nat) :
    ∃ ofClass, Reading.lines {} number (d.headLines.map dropReturn) = .ok { ofClass }
      ∧ ofClass.getD [] = tidy d.documentation.toList := by
  unfold Description.headLines
  split
  · rename_i hempty
    refine ⟨none, rfl, ?_⟩
    rw [hempty]
    rfl
  · have hdocumentation := lines_documentationLines (r := {}) rfl number d.documentation.toList
    have hblank : Line.of (dropReturn []) = .blank := by decide
    rw [List.map_append, lines_append hdocumentation, List.map_singleton]
    simp only [Reading.lines, Reading.line, hblank, Reading.separate]
    -- documentation that is tidied away leaves the class without any
    by_cases htidy : tidy d.documentation.toList = []
    · exact ⟨none, by simp [htidy], htidy.symm⟩
    · exact ⟨some (tidy d.documentation.toList), by simp [htidy], rfl⟩

/-! ## The round trip -/

def Description.tidied (d : Description) : Description :=
  { d with
    documentation := String.ofList (tidy d.documentation.toList)
    fields := d.fields.map Field.tidied }

/-- **A legible description is read back with its documentation tidied.** -/
theorem read_declaration_of_legible {d : Description} (hd : d.Legible) :
    Description.read d.qualifiedName d.declaration = .ok d.tidied := by
  have hlines : Text.lines d.declaration.toList = d.lines.map dropReturn := by
    rw [Description.declaration, String.toList_ofList, Description.declarationChars_eq]
    exact lines_flatMap_newline fun _ => newline_not_mem_of_mem_lines_of_legible hd
  obtain ⟨ofClass, hhead, hclass⟩ := lines_headLines d 1
  have hread : Reading.lines {} 1 (d.lines.map dropReturn)
      = .ok { ofClass, fields := d.fields.map Field.tidied } := by
    rw [Description.lines, List.map_append, lines_append hhead]
    exact lines_fields hd.fields rfl _
  rw [Description.read, readTarget_eq_ok_iff.2 ⟨hd.target, rfl⟩]
  simp only [hlines, hread, hclass]
  rfl

/-- Documentation that does not start with a line feed, and none of whose lines ends in a carriage
return. -/
def IsTidy (documentation : List Char) : Prop :=
  documentation.head? ≠ some '\n' ∧
    ∀ line ∈ List.splitOn '\n' documentation, line.getLast? ≠ some '\r'

instance (documentation : List Char) : Decidable (IsTidy documentation) :=
  inferInstanceAs (Decidable (_ ∧ _))

theorem map_dropReturn_eq_self_iff {ls : List (List Char)} :
    ls.map dropReturn = ls ↔ ∀ line ∈ ls, line.getLast? ≠ some '\r' := by
  simp only [map_eq_self_iff, dropReturn_eq_self_iff]

theorem tidy_of_isTidy {documentation : List Char} (h : IsTidy documentation) :
    tidy documentation = documentation := by
  obtain ⟨hhead, hreturns⟩ := h
  rw [tidy, map_dropReturn_eq_self_iff.2 hreturns]
  have hjoin : List.intercalate ['\n'] (List.splitOn '\n' documentation) = documentation :=
    List.intercalate_splitOn _
  obtain ⟨first, rest, hpieces⟩ := exists_splitOn_eq '\n' documentation
  rw [hpieces] at hjoin ⊢
  cases first with
  | cons c first => exact hjoin
  | nil =>
    cases rest with
    | nil => exact hjoin
    | cons next rest =>
      -- an empty first line is a line feed at the start
      rw [← hjoin] at hhead
      exact absurd rfl hhead

theorem isTidy_of_tidy {documentation : List Char} (h : tidy documentation = documentation) :
    IsTidy documentation := by
  have hkept := List.dropWhile_suffix (l := (List.splitOn '\n' documentation).map dropReturn)
    List.isEmpty
  have hfirst := List.head?_dropWhile_not List.isEmpty
    ((List.splitOn '\n' documentation).map dropReturn)
  rw [tidy] at h
  cases hlines : ((List.splitOn '\n' documentation).map dropReturn).dropWhile List.isEmpty with
  | nil =>
    rw [hlines] at h
    subst h
    constructor <;> simp
  | cons first rest =>
    rw [hlines] at h hkept hfirst
    have hnewline : ∀ line ∈ first :: rest, '\n' ∉ line := by
      intro line hline
      obtain ⟨piece, hpiece, rfl⟩ := List.mem_map.1 (hkept.subset hline)
      exact fun hmem => not_mem_of_mem_splitOn hpiece (mem_of_mem_dropReturn hmem)
    -- the lines that were kept are all the lines there are, so none was dropped
    have hsplit : List.splitOn '\n' documentation = first :: rest := by
      rw [← List.splitOn_intercalate '\n' hnewline (List.cons_ne_nil _ _), h]
    have hall : first :: rest = (List.splitOn '\n' documentation).map dropReturn := by
      apply hkept.eq_of_length
      rw [List.length_map, hsplit]
    refine ⟨?_, map_dropReturn_eq_self_iff.1 (hall.symm.trans hsplit.symm)⟩
    rw [← h]
    cases first with
    | nil => cases hfirst
    | cons c first =>
      intro hhead
      rw [intercalate_cons] at hhead
      cases hhead
      exact hnewline _ List.mem_cons_self List.mem_cons_self

theorem tidy_eq_self_iff {documentation : List Char} :
    tidy documentation = documentation ↔ IsTidy documentation :=
  ⟨isTidy_of_tidy, tidy_of_isTidy⟩

theorem ofList_tidy_eq_iff {documentation : String} :
    String.ofList (tidy documentation.toList) = documentation ↔ IsTidy documentation.toList := by
  rw [← tidy_eq_self_iff, ← String.toList_inj, String.toList_ofList]

theorem Field.tidied_eq_self_iff {f : Field} : f.tidied = f ↔ IsTidy f.documentation.toList := by
  rw [← ofList_tidy_eq_iff]
  obtain ⟨name, descriptor, documentation⟩ := f
  simp [Field.tidied]

/-- A description that a declaration can say in full. -/
structure Description.Writable (d : Description) : Prop extends d.Legible where
  documentation : IsTidy d.documentation.toList
  fieldDocumentation : ∀ f ∈ d.fields, IsTidy f.documentation.toList

theorem Description.tidied_eq_self_iff {d : Description} :
    d.tidied = d ↔
      IsTidy d.documentation.toList ∧ ∀ f ∈ d.fields, IsTidy f.documentation.toList := by
  have hfields : d.fields.map Field.tidied = d.fields ↔
      ∀ f ∈ d.fields, IsTidy f.documentation.toList := by
    simp only [map_eq_self_iff, Field.tidied_eq_self_iff]
  rw [← hfields, ← ofList_tidy_eq_iff]
  obtain ⟨package, name, documentation, fields⟩ := d
  simp [Description.tidied]

/-- **A description is read back as it was exactly if it is writable.** -/
theorem read_declaration_eq_ok_iff (d : Description) :
    Description.read d.qualifiedName d.declaration = .ok d ↔ d.Writable := by
  constructor
  · intro h
    have hlegible := (legible_of_read h).1
    rw [read_declaration_of_legible hlegible, Except.ok.injEq] at h
    obtain ⟨hclass, hfields⟩ := Description.tidied_eq_self_iff.1 h
    exact ⟨hlegible, hclass, hfields⟩
  · intro h
    have htidied := Description.tidied_eq_self_iff.2 ⟨h.documentation, h.fieldDocumentation⟩
    rw [read_declaration_of_legible h.toLegible, htidied]

/-- Empty lines and marks inside documentation, and colons inside types, are read back. -/
theorem read_declaration_point :
    let d : Description :=
      ⟨"geo.plane", "Point", "A point.\n\n  # of the plane\n",
        [⟨"x#", "int", "The first\n\ncoordinate: "⟩, ⟨"all others", "Map<A:B>", ""⟩]⟩
    d.Writable ∧ Description.read "geo.plane.Point" d.declaration = .ok d := by
  intro d
  have hx : Field.Legible ⟨"x#", "int", "The first\n\ncoordinate: "⟩ := by
    constructor <;> decide
  have hothers : Field.Legible ⟨"all others", "Map<A:B>", ""⟩ := by
    constructor <;> decide
  have htarget : d.LegibleTarget := ⟨by decide, by decide, .inr (by decide)⟩
  have hwritable : d.Writable := by
    refine ⟨⟨htarget, ?_⟩, by decide, by decide⟩
    simp [d, hx, hothers]
  exact ⟨hwritable, (read_declaration_eq_ok_iff d).2 hwritable⟩

end ValueClass
