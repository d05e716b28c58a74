import ValueClass.Java.Printer
import ValueClass.Proofs.Brackets
import ValueClass.Proofs.TypeNames

/-!
# Code that opens no comment

A comment opens where a slash and a star stand side by side. What a unit is written with, its
documentation apart, has no slash, so that only a name could open one, and the names of a unit are
parts of those that the class was described with.

* `Avoids`: two characters stand nowhere side by side.
* `Inert.between`: pieces that open no comment do not do so together, with glue between them.
* `infix_of_spelled`: the names of a type stand in its descriptors.
* `inert_typeText`: so the text of a type opens no comment if its descriptor does not.
* `CodeLines`: lines of code that open no comment.
* `CompilationUnit.InertNames`: a unit of which no name opens a comment. All its code is such lines.
* `inertNames_ofDescription`: the unit of a class with such names is one.
-/

namespace ValueClass

open Text

namespace Java

/-! ## Characters side by side -/

/-- The two characters stand nowhere side by side, in this order. -/
def Avoids (x y : Char) (cs : List Char) : Prop :=
  ¬[x, y] <:+: cs

instance (x y : Char) (cs : List Char) : Decidable (Avoids x y cs) :=
  inferInstanceAs (Decidable (¬_))

section Avoids

variable {x y c : Char} {as bs cs : List Char}

theorem avoids_of_not_mem (h : x ∉ cs) : Avoids x y cs :=
  fun hpart => h (hpart.subset List.mem_cons_self)

theorem avoids_of_second_not_mem (h : y ∉ cs) : Avoids x y cs :=
  fun hpart => h (hpart.subset (List.mem_cons_of_mem _ List.mem_cons_self))

theorem Avoids.of_isInfix (h : Avoids x y bs) (hpart : as <:+: bs) : Avoids x y as :=
  fun hpair => h (hpair.trans hpart)

theorem avoids_cons_iff :
    Avoids x y (c :: cs) ↔ ¬(c = x ∧ cs.head? = some y) ∧ Avoids x y cs := by
  have hhead : [x, y] <+: c :: cs ↔ c = x ∧ cs.head? = some y := by
    cases cs with
    | nil => simp [List.cons_prefix_cons]
    | cons d rest => simp [List.cons_prefix_cons, eq_comm]
  rw [Avoids, List.infix_cons_iff, hhead, not_or, Avoids]

/-- Characters come to stand side by side only where two texts meet. -/
theorem Avoids.append (has : Avoids x y as) (hbs : Avoids x y bs)
    (hmeet : as.getLast? ≠ some x ∨ bs.head? ≠ some y) : Avoids x y (as ++ bs) := by
  induction as with
  | nil => exact hbs
  | cons c as ih =>
    obtain ⟨hfirst, hrest⟩ := avoids_cons_iff.1 has
    rw [List.cons_append, avoids_cons_iff]
    cases as with
    | nil =>
      refine ⟨?_, hbs⟩
      rintro ⟨rfl, hhead⟩
      rcases hmeet with hmeet | hmeet
      · exact hmeet rfl
      · exact hmeet hhead
    | cons d as => exact ⟨hfirst, ih hrest (by simpa using hmeet)⟩

theorem Avoids.flatten {pieces : List (List Char)}
    (h : ∀ piece ∈ pieces, Avoids x y piece ∧ piece.getLast? ≠ some x) :
    Avoids x y pieces.flatten := by
  induction pieces with
  | nil => exact avoids_of_not_mem List.not_mem_nil
  | cons piece pieces ih =>
    obtain ⟨⟨hpiece, hlast⟩, hrest⟩ := List.forall_mem_cons.1 h
    exact hpiece.append (ih hrest) (.inl hlast)

end Avoids

/-! ## Texts that open no comment -/

/-- **No comment opens in the text.** -/
def Inert (text : String) : Prop :=
  Avoids '/' '*' text.toList

instance (text : String) : Decidable (Inert text) :=
  inferInstanceAs (Decidable (Avoids _ _ _))

/-- A text that can stand between any two without opening a comment with them. -/
def IsGlue (text : String) : Prop :=
  text.toList ≠ [] ∧ '/' ∉ text.toList ∧ text.toList.head? ≠ some '*'

instance (text : String) : Decidable (IsGlue text) :=
  inferInstanceAs (Decidable (_ ∧ _))

section Inert

variable {a b text glue : String}

theorem inert_of_not_mem (h : '/' ∉ text.toList) : Inert text :=
  avoids_of_not_mem h

/-- What has no slash opens no comment with what comes after it. -/
theorem Inert.after (hb : Inert b) (ha : '/' ∉ a.toList) : Inert (a ++ b) := by
  rw [Inert, String.toList_append]
  exact (inert_of_not_mem ha).append hb (.inl fun hlast => ha (List.mem_of_getLast? hlast))

theorem Inert.before (ha : Inert a) (hglue : IsGlue glue) : Inert (a ++ glue) := by
  rw [Inert, String.toList_append]
  exact ha.append (inert_of_not_mem hglue.2.1) (.inr hglue.2.2)

/-- Pieces that open no comment do not do so together, with glue between them. -/
theorem Inert.between (ha : Inert a) (hglue : IsGlue glue) (hb : Inert b) :
    Inert (a ++ glue ++ b) := by
  have hlast : (a ++ glue).toList.getLast? ≠ some '/' := by
    rw [String.toList_append, List.getLast?_append_of_ne_nil _ hglue.1]
    exact fun hlast => hglue.2.1 (List.mem_of_getLast? hlast)
  rw [Inert, String.toList_append]
  exact (ha.before hglue).append hb (.inl hlast)

theorem inert_intercalate {texts : List String} (hglue : IsGlue glue)
    (h : ∀ text ∈ texts, Inert text) : Inert (String.intercalate glue texts) := by
  induction texts with
  | nil => exact inert_of_not_mem (by simp)
  | cons first rest ih =>
    obtain ⟨hfirst, hrest⟩ := List.forall_mem_cons.1 h
    cases rest with
    | nil => simpa using hfirst
    | cons next rest =>
      rw [String.intercalate_cons_cons]
      exact hfirst.between hglue (ih hrest)

end Inert

/-! ## Types -/

/-- The names of a type stand in its descriptors. -/
theorem infix_of_spelled {type : FieldType} :
    ∀ {descriptor : List Char}, Spelled type descriptor →
      ∀ name ∈ type.names, name.toList <:+: descriptor := by
  have hpadded : ∀ {text padded : List Char}, Padded text padded → text <:+: padded := by
    rintro text padded ⟨before, after, -, -, rfl⟩
    exact List.infix_append before text after
  induction type using FieldType.argumentInduction with
  | scalar kind => exact fun _ name hname => nomatch hname
  | array element ih =>
    rintro descriptor (_ | ⟨helement, h⟩ | _ | _) name hname
    have hinner := ih helement name hname
    exact (hinner.trans (List.prefix_append _ _).isInfix).trans (hpadded h)
  | reference name arguments ih =>
    rintro descriptor (_ | _ | h | ⟨hne, hspelled, hblanks, h⟩)
    · rw [FieldType.names, FieldType.namesAll, List.forall_mem_singleton]
      exact hpadded h
    · rename_i pieces blanks
      have harguments : ∀ argument ∈ arguments, ∀ other ∈ argument.names,
          other.toList <:+: List.intercalate [','] pieces := by
        have hflip := List.forall₂_and_left arguments pieces |>.2 ⟨ih, hspelled⟩
        refine forall_mem_right_of_forall₂ hflip.flip fun piece hpiece argument hargument => ?_
        intro other hother
        exact (hargument.1 hargument.2 other hother).trans (infix_intercalate hpiece)
      rw [FieldType.names, namesAll_eq_flatMap, List.forall_mem_cons]
      refine ⟨List.IsInfix.trans ?_ (hpadded h), fun other hother => ?_⟩
      · exact ⟨[], blanks ++ '<' :: List.intercalate [','] pieces ++ ['>'], by simp⟩
      · obtain ⟨argument, hmem, hname⟩ := List.mem_flatMap.1 hother
        refine ((harguments argument hmem other hname).trans ?_).trans (hpadded h)
        exact ⟨name.toList ++ blanks ++ ['<'], ['>'], by simp⟩

/-- Each name is written as it is or as a part of itself. -/
theorem inert_spelling (s : Scope) {name : String} (h : Inert name) : Inert (s.spelling name) := by
  rcases s.spelling_cases name with hsame | ⟨c, hguess, -, hshort, -⟩
  · rwa [hsame]
  · rw [hshort]
    exact h.of_isInfix (ClassName.short_suffix hguess).isInfix

theorem inert_spell {write : String → String} {type : FieldType}
    (h : ∀ name ∈ type.names, Inert (write name)) : Inert (type.spell write) := by
  induction type using FieldType.argumentInduction with
  | scalar kind =>
    have hkeyword : Inert kind.keyword := by cases kind <;> decide
    exact hkeyword
  | array element ih => exact (ih h).before (by decide)
  | reference name arguments ih =>
    rw [FieldType.names, namesAll_eq_flatMap, List.forall_mem_cons] at h
    obtain ⟨hname, harguments⟩ := h
    have hspelled : ∀ text ∈ arguments.map (FieldType.spell write), Inert text := by
      rw [List.forall_mem_map]
      intro argument hmem
      exact ih argument hmem fun other hother =>
        harguments other (List.mem_flatMap.2 ⟨argument, hmem, hother⟩)
    rw [FieldType.spell, spellAll_eq_map]
    split
    · exact hname
    · exact (hname.between (by decide) (inert_intercalate (by decide) hspelled)).before (by decide)

/-- The text of a type opens no comment if its descriptor does not. -/
theorem inert_typeText (s : Scope) {descriptor : String} {type : FieldType}
    (hread : FieldType.read descriptor = .ok type) (h : Inert descriptor) :
    Inert (s.typeText type) := by
  have hspelled : Spelled type descriptor.toList := (readChars_eq_ok_iff.1 hread).2
  refine inert_spell fun name hname => inert_spelling s ?_
  exact h.of_isInfix (infix_of_spelled hspelled name hname)

/-! ## Lines of code -/

/-- **Lines of code that open no comment.** If there is any, the last one is ended. -/
structure CodeLines (text : String) : Prop where
  inert : Inert text
  ends : text.toList.getLast? = none ∨ text.toList.getLast? = some '\n'

instance (text : String) : Decidable (CodeLines text) :=
  decidable_of_iff (Inert text ∧ (text.toList.getLast? = none ∨ text.toList.getLast? = some '\n'))
    ⟨fun ⟨h1, h2⟩ => ⟨h1, h2⟩, fun ⟨h1, h2⟩ => ⟨h1, h2⟩⟩

section CodeLines

variable {a b glue : String}

theorem CodeLines.append (ha : CodeLines a) (hb : CodeLines b) : CodeLines (a ++ b) := by
  have hmeet : a.toList.getLast? ≠ some '/' := by
    rcases ha.ends with h | h <;> simp [h]
  refine ⟨?_, ?_⟩
  · rw [Inert, String.toList_append]
    exact ha.inert.append hb.inert (.inl hmeet)
  · rw [String.toList_append, List.getLast?_append]
    rcases hb.ends with h | h
    · rw [h, Option.none_or]
      exact ha.ends
    · exact .inr (by rw [h, Option.some_or])

theorem codeLines_join {texts : List String} (h : ∀ text ∈ texts, CodeLines text) :
    CodeLines (String.join texts) := by
  induction texts with
  | nil => decide
  | cons first rest ih =>
    obtain ⟨hfirst, hrest⟩ := List.forall_mem_cons.1 h
    rw [String.join_cons]
    exact hfirst.append (ih hrest)

/-- A text that is ended becomes a line. -/
theorem Inert.line (ha : Inert a) (hglue : IsGlue glue) (hends : glue.toList.getLast? = some '\n') :
    CodeLines (a ++ glue) := by
  refine ⟨ha.before hglue, .inr ?_⟩
  rw [String.toList_append, List.getLast?_append, hends, Option.some_or]

end CodeLines

/-! ## Names of members and of library classes -/

theorem ofNat_ne_slash {n : Nat} (h : 0x2f < n) : Char.ofNat n ≠ '/' := by
  intro heq
  by_cases hvalid : n.isValidChar
  · have hcode : (Char.ofNat n).toNat = n := by
      rw [show Char.ofNat n = Char.ofNatAux n hvalid from dif_pos hvalid]
      rfl
    rw [heq] at hcode
    change 0x2f = n at hcode
    omega
  · have hcode : (Char.ofNat n).toNat = 0 := by
      rw [Char.ofNat, dif_neg hvalid]
      rfl
    rw [heq] at hcode
    exact absurd hcode (by decide)

/-- A capital form has a slash only where it is the character itself. -/
theorem capital_of_slash_mem {c : Char} (h : '/' ∈ capital c) : capital c = [c] := by
  have hexpansions : ∀ entry ∈ capitalExpansions, '/' ∉ entry.2.map Char.ofNat := by decide +kernel
  have hruns : ∀ entry ∈ capitalRuns, 0x2f < entry.2 := by decide +kernel
  unfold capital at h ⊢
  split at h
  · rename_i expansion hlookup
    obtain ⟨before, after, hentries, -⟩ := List.lookup_eq_some_iff.1 hlookup
    exact absurd h (hexpansions (c.toNat, expansion) (by simp [hentries]))
  split at h
  · rename_i run first hfind
    -- every capital form of a run is beyond the slash
    have hfirst : 0x2f < first := hruns _ (List.mem_of_find?_eq_some hfind)
    exact absurd (List.mem_singleton.1 h).symm (ofNat_ne_slash (by omega))
  · rfl

theorem inert_accessorName {field : String} (h : Inert field) : Inert (accessorName field) := by
  refine Inert.after ?_ (by decide)
  unfold capitalized
  split
  · decide
  rename_i first rest hfield
  rw [Inert, hfield] at h
  rw [Inert, String.toList_ofList]
  by_cases hslash : '/' ∈ capital first
  · rwa [capital_of_slash_mem hslash]
  · have hrest := (avoids_cons_iff.1 h).2
    exact (avoids_of_not_mem hslash).append hrest
      (.inl fun hlast => hslash (List.mem_of_getLast? hlast))

/-- No name of a library class, as the methods spell it, opens a comment. -/
structure LibrarySpelling.InertNames (library : LibrarySpelling) : Prop where
  object : Inert library.object
  override : Inert library.override
  floatInHash : Inert library.floatInHash
  doubleInHash : Inert library.doubleInHash
  floatInEquals : Inert library.floatInEquals
  doubleInEquals : Inert library.doubleInEquals
  arrays : Inert library.arrays

theorem inertNames_librarySpelling (d : Description) (simpleArrays : Bool) :
    (librarySpelling d simpleArrays).InertNames := by
  have htype : ∀ simple, '/' ∉ simple.toList → Inert (typeName d simple) := by
    intro simple hsimple
    unfold typeName
    split
    · exact (inert_of_not_mem hsimple).after (by decide)
    · exact inert_of_not_mem hsimple
  have hexpression : ∀ simple prefers, '/' ∉ simple.toList →
      Inert (expressionName d simple prefers) := by
    intro simple prefers hsimple
    unfold expressionName
    split
    · exact inert_of_not_mem hsimple
    · exact (inert_of_not_mem hsimple).after (by decide)
  refine ⟨htype _ (by decide), (htype _ (by decide)).after (by decide), hexpression _ _ (by decide),
    hexpression _ _ (by decide), hexpression _ _ (by decide), hexpression _ _ (by decide), ?_⟩
  have harrays : ∀ simple : Bool, Inert (if simple then "Arrays" else "java.util.Arrays") := by
    decide
  exact harrays simpleArrays

/-! ## Bodies of methods -/

section Bodies

variable {library : LibrarySpelling} {members : List Member} {e : Expr}

theorem inert_fieldIn (locals : List String) {field : String} (h : Inert field) :
    Inert (fieldIn locals field).text := by
  unfold fieldIn
  split
  · exact h.after (by decide)
  · exact h

theorem inert_folded (h : Inert e.text) : Inert (folded e).text := by
  have hupper : Inert (Expr.upperHalf e).text := (h.after (by decide)).before (by decide)
  exact ((h.between (by decide) hupper).after (by decide)).before (by decide)

theorem inert_contribution (hlibrary : library.InertNames) (h : Inert e.text) (type : FieldType) :
    Inert (contribution library type e).text := by
  have hcall : ∀ {owner method : String}, Inert owner → IsGlue method →
      Inert (owner ++ method ++ e.text ++ ")") :=
    fun howner hmethod => (howner.between hmethod h).before (by decide)
  unfold contribution
  cases type.hashRule with
  | value => exact h
  | constants =>
    have hyes : Inert (Expr.number trueHash).text := by decide +kernel
    have hno : Inert (Expr.number falseHash).text := by decide +kernel
    exact (((h.after (by decide)).between (by decide) hyes).between (by decide) hno).before
      (by decide)
  | foldedLong => exact inert_folded h
  | floatBits => exact hcall hlibrary.floatInHash (by decide)
  | foldedDouble => exact inert_folded (e := .name "temp") (by decide)
  | items => exact hcall hlibrary.arrays (by decide)
  | nestedItems => exact hcall hlibrary.arrays (by decide)
  | objectOrNull =>
    have hnull : Inert (Expr.same e .null).text := h.between (by decide) (by decide)
    have hzero : Inert (Expr.number 0).text := by decide +kernel
    have hhash : Inert (Expr.objectHash e).text := h.before (by decide)
    exact (((hnull.after (by decide)).between (by decide) hzero).between (by decide) hhash).before
      (by decide)

theorem inert_comparison (hlibrary : library.InertNames) (h : Inert e.text) {m : Member}
    (hm : Inert m.name) : Inert (comparison library e m).text := by
  have htheirs : Inert (Expr.ofThat m.name).text := hm.after (by decide)
  have hwords : ∀ {owner method : String}, Inert owner → IsGlue method →
      Inert ((owner ++ method ++ e.text ++ ")") ++ " == "
        ++ (owner ++ method ++ (Expr.ofThat m.name).text ++ ")")) :=
    fun howner hmethod => ((howner.between hmethod h).before (by decide)).between (by decide)
      ((howner.between hmethod htheirs).before (by decide))
  have hcall : ∀ {method : String}, IsGlue method →
      Inert (library.arrays ++ method ++ e.text ++ ", " ++ (Expr.ofThat m.name).text ++ ")") :=
    fun hmethod => ((hlibrary.arrays.between hmethod h).between (by decide) htheirs).before
      (by decide)
  unfold comparison
  cases m.type.equalityRule with
  | value => exact h.between (by decide) htheirs
  | floatBits => exact hwords hlibrary.floatInEquals (by decide)
  | doubleBits => exact hwords hlibrary.doubleInEquals (by decide)
  | items => exact hcall (by decide)
  | nestedItems => exact hcall (by decide)
  | objectOrNull =>
    exact ((h.after (by decide)).between (by decide) htheirs).before (by decide)

theorem inert_foldl_both {es : List Expr} (h : Inert e.text) (hes : ∀ e ∈ es, Inert e.text) :
    Inert (es.foldl .both e).text := by
  induction es generalizing e with
  | nil => exact h
  | cons next es ih =>
    obtain ⟨hnext, hrest⟩ := List.forall_mem_cons.1 hes
    have hboth : Inert (Expr.both e next).text := h.between (by decide) hnext
    exact ih hboth hrest

theorem inert_addStatement (hlibrary : library.InertNames) {field : String → Expr} {m : Member}
    (h : Inert (field m.name).text) : Inert (addStatement library field m).text := by
  have hproduct : Inert (Expr.product (.name "prime") (.name "result")).text := by decide
  have hsum : Inert (Expr.sum (.product (.name "prime") (.name "result"))
      (contribution library m.type (field m.name))).text :=
    hproduct.between (by decide) (inert_contribution hlibrary h m.type)
  exact (hsum.after (a := "result" ++ " = ") (by decide)).before (by decide)

theorem inert_addingStatements (hlibrary : library.InertNames) {field : String → Expr}
    (h : ∀ m ∈ members, Inert (field m.name).text) (declared : Bool) :
    ∀ s ∈ addingStatements library field declared members, Inert s.text := by
  induction members generalizing declared with
  | nil => exact fun s hs => nomatch hs
  | cons m members ih =>
    obtain ⟨hm, hrest⟩ := List.forall_mem_cons.1 h
    have hadd := inert_addStatement hlibrary hm
    unfold addingStatements
    split
    · have hword : Inert (Expr.doubleBits library.doubleInHash (field m.name)).text :=
        (hlibrary.doubleInHash.between (by decide) hm).before (by decide)
      have hstore : Inert (if declared then
          Statement.assign "temp" (.doubleBits library.doubleInHash (field m.name))
          else .declareLong "temp" (.doubleBits library.doubleInHash (field m.name))).text := by
        cases declared with
        | true => exact (hword.after (a := "temp" ++ " = ") (by decide)).before (by decide)
        | false =>
          exact (hword.after (a := "long " ++ "temp" ++ " = ") (by decide)).before (by decide)
      exact List.forall_mem_cons.2 ⟨hstore, List.forall_mem_cons.2 ⟨hadd, ih hrest true⟩⟩
    · exact List.forall_mem_cons.2 ⟨hadd, ih hrest declared⟩

theorem inert_hashStatements (hlibrary : library.InertNames) (h : ∀ m ∈ members, Inert m.name) :
    ∀ s ∈ hashStatements library members, Inert s.text := by
  have hprime : Inert (Statement.declareInt "prime" (.number hashPrime)).text := by decide +kernel
  have hseed : Inert (Statement.declareInt "result" (.number hashSeed)).text := by decide +kernel
  have hadding := inert_addingStatements hlibrary
    (fun m hm => inert_fieldIn hashVariables (h m hm)) false
  refine List.forall_mem_cons.2 ⟨hprime, List.forall_mem_cons.2 ⟨hseed, ?_⟩⟩
  exact List.forall_mem_append.2 ⟨hadding, by decide⟩

theorem inert_equalsResult (hlibrary : library.InertNames) (h : ∀ m ∈ members, Inert m.name) :
    Inert (equalsResult library members).text := by
  have hcomparison : ∀ m ∈ members,
      Inert (comparison library (fieldIn equalsVariables m.name) m).text := fun m hm =>
    inert_comparison hlibrary (inert_fieldIn equalsVariables (h m hm)) (h m hm)
  unfold equalsResult comparisonOfAll
  cases members with
  | nil =>
    change Inert "true"
    decide
  | cons m members =>
    obtain ⟨hm, hrest⟩ := List.forall_mem_cons.1 hcomparison
    exact inert_foldl_both hm (List.forall_mem_map.2 hrest)

theorem codeLines_bodyText {statements : List Statement} (h : ∀ s ∈ statements, Inert s.text) :
    CodeLines (bodyText statements) := by
  refine codeLines_join (List.forall_mem_map.2 fun s hs => ?_)
  exact ((h s hs).after (by decide)).line (by decide) (by decide)

end Bodies

/-! ## Units -/

/-- **No name in the code of the unit opens a comment.** -/
structure CompilationUnit.InertNames (u : CompilationUnit) : Prop where
  package : Inert u.package
  imports : ∀ qualified ∈ u.imports, Inert qualified
  name : Inert u.name
  members : ∀ m ∈ u.members, Inert m.name ∧ Inert m.spelled
  library : u.library.InertNames

section Blocks

variable {m : Member} (hdocumentation : m.documentation = "") (hname : Inert m.name)
  (hspelled : Inert m.spelled)

include hdocumentation hname hspelled

theorem codeLines_fieldText : CodeLines (fieldText m) := by
  rw [fieldText, javadoc, if_pos hdocumentation]
  have htype : Inert ("" ++ "  private final " ++ m.spelled) := hspelled.after (by decide)
  exact (htype.between (by decide) hname).line (by decide) (by decide)

theorem codeLines_accessorText : CodeLines (accessorText m) := by
  rw [accessorText, javadoc, if_pos hdocumentation]
  have htype : Inert ("" ++ "  public " ++ m.spelled) := hspelled.after (by decide)
  have hhead := htype.between (show IsGlue " " by decide) (inert_accessorName hname)
  have hopened := hhead.before (show IsGlue "() \x7b\n" by decide)
  have hbody := hopened.between (show IsGlue "    return " by decide) hname
  exact (hbody.line (by decide) (by decide)).append (by decide)

end Blocks

namespace CompilationUnit.InertNames

variable {u : CompilationUnit} (h : u.InertNames)

include h

theorem codeLines_packageLine : CodeLines u.packageLine := by
  unfold packageLine
  split
  · decide
  · exact (h.package.after (by decide)).line (by decide) (by decide)

theorem codeLines_importLines : CodeLines u.importLines := by
  unfold importLines
  split
  · decide
  · refine (codeLines_join (List.forall_mem_map.2 fun qualified hmem => ?_)).append (by decide)
    exact ((h.imports qualified hmem).after (by decide)).line (by decide) (by decide)

theorem codeLines_header : CodeLines ("public class " ++ u.name ++ " \x7b\n") :=
  (h.name.after (by decide)).line (by decide) (by decide)

theorem codeLines_constructorText : CodeLines (constructorText u.name u.members) := by
  have hparameters : ∀ text ∈ u.members.map fun m => m.spelled ++ " " ++ m.name, Inert text := by
    refine List.forall_mem_map.2 fun m hm => ?_
    exact (h.members m hm).2.between (by decide) (h.members m hm).1
  have hassigned : CodeLines
      (String.join (u.members.map fun m => "    this." ++ m.name ++ " = " ++ m.name ++ ";\n")) := by
    refine codeLines_join (List.forall_mem_map.2 fun m hm => ?_)
    have hname := (h.members m hm).1
    exact ((hname.after (by decide)).between (by decide) hname).line (by decide) (by decide)
  have hhead := (h.name.after (show '/' ∉ "  public ".toList by decide)).between
    (show IsGlue "(" by decide) (inert_intercalate (show IsGlue ", " by decide) hparameters)
  exact ((hhead.line (by decide) (by decide)).append hassigned).append (by decide)

theorem codeLines_hashCodeText : CodeLines (hashCodeText u.library u.members) := by
  have hbody := inert_hashStatements h.library fun m hm => (h.members m hm).1
  have hhead := h.library.override.after (show '/' ∉ "  ".toList by decide)
  exact ((hhead.line (by decide) (by decide)).append (codeLines_bodyText hbody)).append (by decide)

theorem codeLines_comparisonText : CodeLines (comparisonText u.name u.library u.members) := by
  have hresult := inert_equalsResult h.library fun m hm => (h.members m hm).1
  have hreturn : Inert (Statement.returns (equalsResult u.library u.members)).text :=
    (hresult.after (by decide)).before (by decide)
  refine CodeLines.append ?_ (codeLines_bodyText (List.forall_mem_singleton.2 hreturn))
  split
  · decide
  · exact ((h.name.after (by decide)).between (by decide) h.name).line (by decide) (by decide)

theorem codeLines_equalsText : CodeLines (equalsText u.name u.library u.members) := by
  have hhead := (h.library.override.after (show '/' ∉ "  ".toList by decide)).between
    (show IsGlue "\n  public boolean equals(" by decide) h.library.object
  have hopened := hhead.line (show IsGlue " other) \x7b\n" by decide) (by decide)
  have hguarded := (((hopened.append (show CodeLines "    if (other == this)\n" by decide)).append
    (show CodeLines "        return true;\n" by decide)).append
    (show CodeLines "    else if (other == null || getClass() != other.getClass())\n"
      by decide)).append (show CodeLines "        return false;\n" by decide)
  exact (hguarded.append h.codeLines_comparisonText).append (by decide)

theorem codeLines_helperText : CodeLines (helperText u.library) := by
  have hobject := h.library.object
  have hleft := hobject.after (show '/' ∉ "  private boolean equals(".toList by decide)
  have hparameters := hleft.between (show IsGlue " left, " by decide) hobject
  have hbody : ∀ s ∈ helperStatements, Inert s.text := by decide +kernel
  exact ((hparameters.line (by decide) (by decide)).append (codeLines_bodyText hbody)).append
    (by decide)

end CompilationUnit.InertNames

end Java

/-! ## Descriptions -/

/-- **No name that the class is described with opens a comment**, and no descriptor does. -/
structure Description.InertNames (d : Description) : Prop where
  package : Java.Inert d.package
  name : Java.Inert d.name
  fields : ∀ f ∈ d.fields, Java.Inert f.name ∧ Java.Inert f.descriptor

namespace Java

theorem inert_of_guess? {name : String} {c : ClassName} (hguess : ClassName.guess? name = some c)
    (h : Inert name) : Inert c.package ∧ Inert c.topLevel := by
  have hshort := h.of_isInfix (ClassName.short_suffix hguess).isInfix
  refine ⟨?_, hshort.of_isInfix ?_⟩
  · rw [ClassName.eq_of_guess? hguess] at h
    split at h
    · rename_i hempty
      rw [hempty]
      decide
    · rw [Inert, String.toList_append, String.toList_append, List.append_assoc] at h
      exact h.of_isInfix (List.prefix_append _ _).isInfix
  · rw [ClassName.short]
    split
    · exact List.infix_rfl
    · rw [String.toList_append, String.toList_append, List.append_assoc]
      exact (List.prefix_append _ _).isInfix

theorem inert_of_mem_imports {d : Description} {types : List FieldType} (hd : d.InertNames)
    (htypes : ∀ type ∈ types, ∀ name ∈ type.names, Inert name) :
    ∀ qualified ∈ (scopeOf d types).imports, Inert qualified := by
  have hclaims : ∀ c ∈ unitClaims d types, Inert c.package ∧ Inert c.topLevel := by
    intro c hc
    simp only [unitClaims, ownClaims, fieldClaims, List.mem_append, List.mem_cons, List.mem_map,
      List.mem_filterMap, List.mem_flatMap] at hc
    rcases hc with (rfl | ⟨name, hname, rfl⟩) | hc | ⟨name, ⟨type, htype, hname⟩, hguess⟩
    · exact ⟨hd.package, hd.name⟩
    · have hmethods : ∀ name ∈ methodNames, Inert implicitPackage ∧ Inert name := by decide
      exact hmethods name hname
    · split at hc
      · rw [List.mem_singleton.1 hc]
        decide
      · cases hc
    · exact inert_of_guess? hguess (htypes type htype name hname)
  intro qualified hmem
  have hdistinct := distinct_scopeOf d types
  obtain ⟨package, simple, howner, -, rfl⟩ := (Scope.mem_imports_iff hdistinct).1 hmem
  rw [owner?_scopeOf, Option.map_eq_some_iff] at howner
  obtain ⟨c, hfind, rfl⟩ := howner
  obtain rfl : c.topLevel = simple := by simpa using List.find?_some hfind
  obtain ⟨hpackage, hsimple⟩ := hclaims c (List.mem_of_find?_eq_some hfind)
  exact hpackage.between (by decide) hsimple

/-- The unit of a class with such names is one. -/
theorem inertNames_ofDescription {d : Description} {u : CompilationUnit} (hd : d.InertNames)
    (h : CompilationUnit.ofDescription d = .ok u) : u.InertNames := by
  obtain ⟨hunit, hmembers⟩ := members_of_ofDescription h
  have hfields : ∀ m ∈ u.members,
      Inert m.name ∧ Inert m.spelled ∧ ∀ name ∈ m.type.names, Inert name := by
    refine forall_mem_right_of_forall₂ hmembers fun field hfield m hm => ?_
    obtain ⟨hname, hread, hspelled⟩ := hm
    obtain ⟨hfieldname, hdescriptor⟩ := hd.fields field hfield
    refine ⟨by rwa [hname], ?_, fun name hmem => ?_⟩
    · rw [hspelled]
      exact inert_typeText _ hread hdescriptor
    · exact hdescriptor.of_isInfix (infix_of_spelled (readChars_eq_ok_iff.1 hread).2 name hmem)
  have htypes : ∀ type ∈ u.members.map (·.type), ∀ name ∈ type.names, Inert name :=
    List.forall_mem_map.2 fun m hm => (hfields m hm).2.2
  refine ⟨?_, ?_, ?_, fun m hm => ⟨(hfields m hm).1, (hfields m hm).2.1⟩, ?_⟩
  · rw [hunit]
    exact hd.package
  · rw [hunit]
    exact inert_of_mem_imports hd htypes
  · rw [hunit]
    exact hd.name
  · rw [hunit]
    exact inertNames_librarySpelling d _

end Java

end ValueClass
