import ValueClass.Proofs.Inert
import ValueClass.Proofs.NormalForm

/-!
# Source without its comments

Documentation goes into the source as comments and reaches nothing else of it. A line of it cannot
end the comment it stands in, since the closing mark is escaped, neither on its own nor with the
stars that start the lines of a comment.

* `withoutComments`: a text without comments, with the rest of each line that held nothing else.
* `avoids_escapeClosing`: no comment ends in an escaped line.
* `Leaves`: what a part of a source leaves behind. Code leaves itself (`leaves_of_codeLines`), and
  documentation nothing (`leaves_javadoc`).
* `leaves_text`: a unit leaves the unit without documentation.
* `withoutComments_sourceOf`: **the source of a class, without its comments, is the source of the
  class without its documentation.**
-/

namespace ValueClass

/-- The class with no documentation. -/
def Description.undocumented (d : Description) : Description :=
  { d with documentation := "", fields := d.fields.map fun f => { f with documentation := "" } }

namespace Java

open Text

/-! ## Taking comments out -/

/-- What follows the first closing mark of a comment. -/
def afterClosing? : List Char → Option (List Char)
  | [] => none
  | '*' :: '/' :: rest => some rest
  | _ :: rest => afterClosing? rest

/-- What follows the comment that the text starts with. -/
def afterComment? : List Char → Option (List Char)
  | '/' :: '*' :: rest => afterClosing? rest
  | _ => none

/-- The text from where a comment may open. At the start of a line, that is after indentation. -/
def unindented (lineStart : Bool) (cs : List Char) : List Char :=
  if lineStart then cs.dropWhile (· = ' ') else cs

theorem length_lt_of_afterClosing? {cs rest : List Char} (h : afterClosing? cs = some rest) :
    rest.length < cs.length := by
  fun_induction afterClosing? cs with
  | case1 => cases h
  | case2 rest' =>
    obtain rfl := Option.some.inj h
    simp only [List.length_cons]
    omega
  | case3 c cs _ ih =>
    have := ih h
    simp only [List.length_cons]
    omega

theorem length_lt_of_afterComment? {lineStart : Bool} {cs rest : List Char}
    (h : afterComment? (unindented lineStart cs) = some rest) : rest.length < cs.length := by
  have hle : (unindented lineStart cs).length ≤ cs.length := by
    unfold unindented
    split
    · exact (List.dropWhile_suffix _).length_le
    · exact Nat.le_refl _
  revert h hle
  generalize unindented lineStart cs = start
  intro h hle
  unfold afterComment? at h
  split at h
  · have := length_lt_of_afterClosing? h
    simp only [List.length_cons] at hle
    omega
  · cases h

/-- The text without comments, read from the start of a line or from within one. -/
def withoutCommentsFrom (lineStart : Bool) (cs : List Char) : List Char :=
  match _ : afterComment? (unindented lineStart cs) with
  | some ('\n' :: rest) => withoutCommentsFrom true rest
  | some rest => withoutCommentsFrom lineStart rest
  | none =>
    match cs with
    | [] => []
    | c :: rest => c :: withoutCommentsFrom (c = '\n') rest
termination_by cs.length
decreasing_by
  · have := length_lt_of_afterComment? ‹_›
    simp only [List.length_cons] at this
    omega
  · exact length_lt_of_afterComment? ‹_›
  · simp

/-- **The text without comments.** From left to right, each one goes, as far as the first closing
mark after it, and with it the indentation before it and the line break after it. -/
def withoutComments (text : String) : String :=
  String.ofList (withoutCommentsFrom true text.toList)

theorem withoutCommentsFrom_cons_of_none {lineStart : Bool} {c : Char} {cs : List Char}
    (h : afterComment? (unindented lineStart (c :: cs)) = none) :
    withoutCommentsFrom lineStart (c :: cs) = c :: withoutCommentsFrom (c = '\n') cs := by
  rw [withoutCommentsFrom]
  split <;> simp_all

theorem withoutCommentsFrom_of_line {lineStart : Bool} {cs rest : List Char}
    (h : afterComment? (unindented lineStart cs) = some ('\n' :: rest)) :
    withoutCommentsFrom lineStart cs = withoutCommentsFrom true rest := by
  rw [withoutCommentsFrom]
  split <;> simp_all

/-! ## Code -/

/-- No comment starts a text of which the first line opens none. -/
theorem afterComment?_of_avoids {cs rest : List Char} (havoids : Avoids '/' '*' cs)
    (hlast : cs.getLast? = some '\n') : afterComment? (cs ++ rest) = none := by
  unfold afterComment?
  split
  · rename_i tail heq
    -- the slash would be the last character of the line, which is a line break
    match cs with
    | [] => cases hlast
    | [c] =>
      obtain rfl : c = '\n' := Option.some.inj hlast
      exact absurd (List.cons.inj heq).1 (by decide)
    | c :: d :: cs =>
      obtain ⟨hslash, htail⟩ := List.cons.inj heq
      obtain ⟨rfl, -⟩ := List.cons.inj htail
      exact absurd ⟨hslash, rfl⟩ (avoids_cons_iff.1 havoids).1
  · rfl

theorem unindented_suffix (lineStart : Bool) (cs : List Char) : unindented lineStart cs <:+ cs := by
  unfold unindented
  split
  · exact List.dropWhile_suffix _
  · exact List.suffix_rfl

theorem unindented_ne_nil {cs : List Char} (lineStart : Bool) (h : '\n' ∈ cs) :
    unindented lineStart cs ≠ [] := by
  unfold unindented
  split
  · rw [Ne, List.dropWhile_eq_nil_iff]
    intro hall
    exact absurd (hall '\n' h) (by decide)
  · exact List.ne_nil_of_mem h

theorem unindented_append {cs : List Char} (lineStart : Bool) (h : '\n' ∈ cs) (rest : List Char) :
    unindented lineStart (cs ++ rest) = unindented lineStart cs ++ rest := by
  cases lineStart with
  | false => rfl
  | true =>
    have hne : (cs.dropWhile (· = ' ')).isEmpty = false := by
      rw [Bool.eq_false_iff, Ne, List.isEmpty_iff]
      exact unindented_ne_nil true h
    unfold unindented
    rw [if_pos rfl, if_pos rfl, List.dropWhile_append, hne]
    rfl

theorem afterComment?_unindented {cs : List Char} (lineStart : Bool)
    (havoids : Avoids '/' '*' cs) (hlast : cs.getLast? = some '\n') (rest : List Char) :
    afterComment? (unindented lineStart (cs ++ rest)) = none := by
  have hmem : '\n' ∈ cs := List.mem_of_getLast? hlast
  have hpart := unindented_suffix lineStart cs
  rw [unindented_append lineStart hmem]
  refine afterComment?_of_avoids (havoids.of_isInfix hpart.isInfix) ?_
  obtain ⟨indentation, hsplit⟩ := hpart
  rwa [← hsplit, List.getLast?_append_of_ne_nil _ (unindented_ne_nil lineStart hmem)] at hlast

/-- Lines in which no comment opens are left as they are. -/
theorem withoutCommentsFrom_lines {cs rest : List Char} (lineStart : Bool)
    (havoids : Avoids '/' '*' cs) (hlast : cs.getLast? = some '\n') :
    withoutCommentsFrom lineStart (cs ++ rest) = cs ++ withoutCommentsFrom true rest := by
  -- after the first character the rest of a line is to be left, hence for any `lineStart`
  induction cs generalizing lineStart with
  | nil => cases hlast
  | cons c cs ih =>
    have hnone := afterComment?_unindented lineStart havoids hlast rest
    rw [List.cons_append] at hnone ⊢
    rw [withoutCommentsFrom_cons_of_none hnone, List.cons_append]
    cases cs with
    | nil =>
      obtain rfl : c = '\n' := Option.some.inj hlast
      rfl
    | cons d cs =>
      rw [ih _ (avoids_cons_iff.1 havoids).2 (by simpa using hlast)]

/-! ## Documentation -/

/-- The first closing mark after a body without one is that of the comment. -/
theorem afterClosing?_append {body rest : List Char} (h : Avoids '*' '/' body) :
    afterClosing? (body ++ '*' :: '/' :: rest) = some rest := by
  induction body with
  | nil => rfl
  | cons c body ih =>
    obtain ⟨hfirst, hrest⟩ := avoids_cons_iff.1 h
    have hnext : (body ++ '*' :: '/' :: rest).head? = some '/' → body.head? = some '/' := by
      cases body with
      | nil => intro hhead; exact absurd hhead (by simp)
      | cons d body => exact id
    rw [List.cons_append, afterClosing?]
    · exact ih hrest
    · rintro tail rfl heq
      exact hfirst ⟨rfl, hnext (by rw [heq]; rfl)⟩

theorem head?_escapeClosing (line : List Char) : (escapeClosing line).head? = line.head? := by
  fun_cases escapeClosing line <;> rfl

/-- **No comment ends in an escaped line.** -/
theorem avoids_escapeClosing (line : List Char) : Avoids '*' '/' (escapeClosing line) := by
  fun_induction escapeClosing line with
  | case1 => decide
  | case2 rest ih =>
    have hmark : Avoids '*' '/' "*&#47;".toList := by decide
    exact hmark.append ih (.inl (by decide))
  | case3 c rest hmark ih =>
    refine avoids_cons_iff.2 ⟨?_, ih⟩
    -- escaping keeps the first character, so a star before a slash was a mark before
    rintro ⟨rfl, hhead⟩
    rw [head?_escapeClosing] at hhead
    obtain ⟨tail, rfl⟩ := List.head?_eq_some_iff.1 hhead
    exact hmark tail rfl rfl

/-- The text indents: it has spaces only. -/
def IsIndentation (text : String) : Prop :=
  ∀ c ∈ text.toList, c = ' '

instance (text : String) : Decidable (IsIndentation text) :=
  List.decidableBAll (· = ' ') text.toList

theorem IsIndentation.slash_not_mem {indent : String} (h : IsIndentation indent) :
    '/' ∉ indent.toList :=
  fun hmem => absurd (h '/' hmem) (by decide)

/-- No comment ends in a line of documentation, and none with the line after it. -/
theorem avoids_javadocLine {indent : String} (hindent : IsIndentation indent) (line : List Char) :
    Avoids '*' '/' (javadocLine indent line).toList ∧
      (javadocLine indent line).toList.getLast? ≠ some '*' := by
  have hslash := hindent.slash_not_mem
  unfold javadocLine
  split
  · refine ⟨avoids_of_second_not_mem ?_, ?_⟩
    · simpa using hslash
    · simp
  · have hstart : Avoids '*' '/' (indent ++ " * ").toList :=
      avoids_of_second_not_mem (by simpa using hslash)
    have hbody : Avoids '*' '/' (indent ++ " * " ++ String.ofList (escapeClosing line)).toList := by
      rw [String.toList_append, String.toList_ofList]
      exact hstart.append (avoids_escapeClosing line) (.inl (by simp))
    have hend : "\n".toList.getLast? = some '\n' := by decide
    rw [String.toList_append, List.getLast?_append, hend]
    exact ⟨hbody.append (by decide) (.inr (by decide)), by simp⟩

/-- Between its marks, a documentation comment has no closing mark. -/
theorem exists_body_javadoc {indent documentation : String} (hindent : IsIndentation indent)
    (hne : documentation ≠ "") :
    ∃ body, Avoids '*' '/' body ∧ (javadoc indent documentation).toList
      = indent.toList ++ '/' :: '*' :: (body ++ ['*', '/', '\n']) := by
  have hslash := hindent.slash_not_mem
  have hlines : Avoids '*' '/'
      (((List.splitOn '\n' documentation.toList).map (javadocLine indent)).map
        String.toList).flatten := by
    refine Avoids.flatten ?_
    rw [List.forall_mem_map, List.forall_mem_map]
    exact fun line _ => avoids_javadocLine hindent line
  have hclose : Avoids '*' '/' (indent.toList ++ [' ']) :=
    avoids_of_second_not_mem (by simpa using hslash)
  -- the second star of the opening mark belongs to the body: a slash after it would close
  have hopened : Avoids '*' '/' (['*', '\n'] ++ _) := Avoids.append (by decide) hlines
    (.inl (by decide))
  refine ⟨_, hopened.append hclose (.inr ?_), ?_⟩
  · intro hhead
    exact absurd (List.mem_of_head? hhead) (by simpa using hslash)
  · rw [javadoc, if_neg hne]
    simp [String.toList_join, List.flatMap_def]

/-! ## What a part of a source leaves behind -/

/-- **The text leaves the code behind** where a line of the source starts with it. -/
def Leaves (text code : String) : Prop :=
  ∀ rest, withoutCommentsFrom true (text.toList ++ rest)
    = code.toList ++ withoutCommentsFrom true rest

theorem Leaves.append {a b a' b' : String} (ha : Leaves a a') (hb : Leaves b b') :
    Leaves (a ++ b) (a' ++ b') := by
  intro rest
  rw [String.toList_append, String.toList_append, List.append_assoc, ha, hb, List.append_assoc]

theorem Leaves.withoutComments_eq {text code : String} (h : Leaves text code) :
    withoutComments text = code := by
  have hend : withoutCommentsFrom true [] = [] := by
    rw [withoutCommentsFrom]
    rfl
  have htext := h []
  rw [hend, List.append_nil, List.append_nil] at htext
  rw [withoutComments, htext, String.ofList_toList]

theorem leaves_of_codeLines {text : String} (h : CodeLines text) : Leaves text text := by
  intro rest
  rcases h.ends with hnone | hlast
  · rw [List.getLast?_eq_none_iff.1 hnone]
    rfl
  · exact withoutCommentsFrom_lines true h.inert hlast

/-- **Documentation leaves nothing behind.** -/
theorem leaves_javadoc {indent : String} (hindent : IsIndentation indent) (documentation : String) :
    Leaves (javadoc indent documentation) "" := by
  intro rest
  by_cases hne : documentation = ""
  · rw [javadoc, if_pos hne]
    rfl
  obtain ⟨body, hbody, htext⟩ := exists_body_javadoc hindent hne
  have hstart : unindented true ((javadoc indent documentation).toList ++ rest)
      = '/' :: '*' :: (body ++ '*' :: '/' :: '\n' :: rest) := by
    rw [unindented, if_pos rfl, htext, List.append_assoc,
      List.dropWhile_append_of_pos (fun c hc => by simpa using hindent c hc)]
    simp
  refine withoutCommentsFrom_of_line ?_
  rw [hstart]
  exact afterClosing?_append hbody

theorem leaves_intercalate {texts codes : List String} (h : List.Forall₂ Leaves texts codes) :
    Leaves (String.intercalate "\n" texts) (String.intercalate "\n" codes) := by
  have hbreak : Leaves "\n" "\n" := leaves_of_codeLines (by decide)
  induction h with
  | nil => exact leaves_of_codeLines (by decide)
  | cons hfirst hrest ih =>
    cases hrest with
    | nil => simpa using hfirst
    | cons hnext hrest =>
      rw [String.intercalate_cons_cons, String.intercalate_cons_cons]
      exact (hfirst.append hbreak).append ih

/-! ## Units -/

/-- The member with no documentation. -/
def Member.undocumented (m : Member) : Member :=
  { m with documentation := "" }

/-- The unit with no documentation. -/
def CompilationUnit.undocumented (u : CompilationUnit) : CompilationUnit :=
  { u with documentation := "", members := u.members.map Member.undocumented }

theorem fieldText_eq (m : Member) :
    fieldText m = javadoc "  " m.documentation ++ fieldText m.undocumented := by
  simp [fieldText, Member.undocumented, javadoc, String.append_assoc]

theorem accessorText_eq (m : Member) :
    accessorText m = javadoc "  " m.documentation ++ accessorText m.undocumented := by
  simp [accessorText, Member.undocumented, javadoc, String.append_assoc]

section Undocumented

variable (library : LibrarySpelling) (members : List Member)

theorem constructorText_undocumented (name : String) :
    constructorText name (members.map Member.undocumented) = constructorText name members := by
  unfold constructorText
  rw [List.map_map, List.map_map]
  rfl

theorem addingStatements_undocumented (field : String → Expr) (declared : Bool) :
    addingStatements library field declared (members.map Member.undocumented)
      = addingStatements library field declared members := by
  induction members generalizing declared with
  | nil => rfl
  | cons m members ih =>
    rw [List.map_cons, addingStatements, addingStatements, ih, ih]
    rfl

theorem hashCodeText_undocumented :
    hashCodeText library (members.map Member.undocumented) = hashCodeText library members := by
  unfold hashCodeText hashStatements hashBody
  rw [addingStatements_undocumented]

theorem equalsText_undocumented (name : String) :
    equalsText name library (members.map Member.undocumented)
      = equalsText name library members := by
  unfold equalsText comparisonText equalsResult comparisonOfAll
  rw [List.isEmpty_map, List.map_map]
  rfl

theorem needsHelper_undocumented :
    needsHelper (members.map Member.undocumented) = needsHelper members := by
  unfold needsHelper
  rw [List.any_map]
  rfl

end Undocumented

/-- Blocks of members that start with the documentation leave the blocks without it. -/
theorem leaves_members {members : List Member} {block : Member → String}
    (hblock : ∀ m, block m = javadoc "  " m.documentation ++ block m.undocumented)
    (hcode : ∀ m ∈ members, CodeLines (block m.undocumented)) :
    List.Forall₂ Leaves (members.map block) ((members.map Member.undocumented).map block) := by
  rw [List.map_map, List.forall₂_map_left_iff, List.forall₂_map_right_iff, List.forall₂_same]
  intro m hm
  have hdocumentation := leaves_javadoc (show IsIndentation "  " by decide) m.documentation
  have hboth := hdocumentation.append (leaves_of_codeLines (hcode m hm))
  rwa [← hblock, String.empty_append] at hboth

/-- Each block leaves the block of the unit without documentation. -/
theorem leaves_blocks {u : CompilationUnit} (h : u.InertNames) :
    List.Forall₂ Leaves u.blocks u.undocumented.blocks := by
  have hfields := leaves_members fieldText_eq fun m hm =>
    codeLines_fieldText (m := m.undocumented) rfl (h.members m hm).1 (h.members m hm).2
  have haccessors := leaves_members accessorText_eq fun m hm =>
    codeLines_accessorText (m := m.undocumented) rfl (h.members m hm).1 (h.members m hm).2
  have hmethods : List.Forall₂ Leaves
      [hashCodeText u.library u.members, equalsText u.name u.library u.members]
      [hashCodeText u.library u.members, equalsText u.name u.library u.members] :=
    .cons (leaves_of_codeLines h.codeLines_hashCodeText)
      (.cons (leaves_of_codeLines h.codeLines_equalsText) .nil)
  unfold CompilationUnit.blocks CompilationUnit.undocumented
  simp only [constructorText_undocumented, hashCodeText_undocumented, equalsText_undocumented,
    needsHelper_undocumented]
  refine List.rel_append (List.rel_append (List.rel_append (List.rel_append hfields ?_) haccessors)
    hmethods) ?_
  · exact .cons (leaves_of_codeLines h.codeLines_constructorText) .nil
  · split
    · exact .cons (leaves_of_codeLines h.codeLines_helperText) .nil
    · exact .nil

/-- **A unit leaves the unit without documentation.** -/
theorem leaves_text {u : CompilationUnit} (h : u.InertNames) :
    Leaves u.text u.undocumented.text := by
  have hpackage := leaves_of_codeLines h.codeLines_packageLine
  have himports := leaves_of_codeLines h.codeLines_importLines
  have hdocumentation := leaves_javadoc (show IsIndentation "" by decide) u.documentation
  have hheader := leaves_of_codeLines h.codeLines_header
  have hblocks := leaves_intercalate (leaves_blocks h)
  have hend : Leaves "\x7d\n" "\x7d\n" := leaves_of_codeLines (by decide)
  have hall := ((((hpackage.append himports).append hdocumentation).append hheader).append
    hblocks).append hend
  rw [CompilationUnit.text, CompilationUnit.text]
  simp only [String.append_assoc] at hall ⊢
  exact hall

/-! ## Sources -/

theorem sameNames_undocumented (d : Description) : SameNames d.undocumented d :=
  ⟨rfl, rfl, by simp [Description.undocumented]⟩

theorem ofDescription_undocumented (d : Description) :
    CompilationUnit.ofDescription d.undocumented
      = (CompilationUnit.ofDescription d).map CompilationUnit.undocumented := by
  have hnames := sameNames_undocumented d
  have hunit : ∀ types, CompilationUnit.ofTypes d.undocumented types
      = (CompilationUnit.ofTypes d types).undocumented := by
    intro types
    unfold CompilationUnit.ofTypes
    rw [hnames.scopeOf_eq, hnames.librarySpelling_eq]
    simp only [Description.undocumented, CompilationUnit.undocumented, List.zipWith_map_left,
      List.map_zipWith]
    rfl
  have hfields : d.undocumented.fields.map (·.descriptor.toList)
      = d.fields.map (·.descriptor.toList) := by
    simp [Description.undocumented]
  unfold CompilationUnit.ofDescription
  rw [hfields, funext hunit]
  cases FieldType.readAll (d.fields.map (·.descriptor.toList)) <;> rfl

/-- **Comments never leak into code.** The source of a class, without its comments, is the source of
the class without its documentation, whatever stands in the documentation. -/
theorem withoutComments_sourceOf {d : Description} {source : String}
    (h : sourceOf d = .ok source) (hnames : d.InertNames) :
    sourceOf d.undocumented = .ok (withoutComments source) := by
  unfold sourceOf at h ⊢
  obtain ⟨u, hunit, rfl⟩ := map_eq_ok_iff.1 h
  have hleaves := leaves_text (inertNames_ofDescription hnames hunit)
  rw [ofDescription_undocumented, hunit, hleaves.withoutComments_eq]
  rfl

/-- Documentation with marks of every kind, for the class and for a field. -/
theorem withoutComments_sourceOf_marks :
    let d : Description :=
      { package := "p", name := "C", documentation := "*/ int x; /* **//\n\n/\r\n*"
        fields := [{ name := "a", descriptor := "int", documentation := "/* */\n/" }] }
    let u := CompilationUnit.ofTypes d [.scalar .int]
    sourceOf d = .ok u.text ∧ d.InertNames ∧
      sourceOf d.undocumented = .ok (withoutComments u.text) := by
  intro d u
  have hint : outermost "int".toList = .ok (.scalar .int) := by decide +kernel
  have hread : FieldType.readAll ["int".toList] = .ok [.scalar .int] :=
    readAll_eq_ok_iff.2 (.cons (readChars_of_outermost hint) .nil)
  have hsource : sourceOf d = .ok u.text := by
    have hfields : d.fields.map (·.descriptor.toList) = ["int".toList] := rfl
    rw [sourceOf, CompilationUnit.ofDescription, hfields, hread]
    rfl
  have hnames : d.InertNames := ⟨by decide, by decide, by decide⟩
  exact ⟨hsource, hnames, withoutComments_sourceOf hsource hnames⟩

end Java

end ValueClass
