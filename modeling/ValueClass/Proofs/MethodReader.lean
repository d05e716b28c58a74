import ValueClass.Java.Printer
import ValueClass.Proofs.Equals
import ValueClass.Proofs.ExpressionReader
import ValueClass.Proofs.HashCode
import ValueClass.Proofs.Lists

/-!
# Reading methods

The texts of `hashCode`, of `equals` and of the helper method, read as the language is read, give
the statements that the methods were written from. So what the statements do is what the texts say,
as long as the fields have names that can be read.

* `readStatements`: the statements up to the end of a method. `readMethod` reads the text of a
  method that starts in the way given.
* `readMethod_bodyText`: **a body that can be read again is read again.**
* `LibrarySpelling.Readable`: the names of the classes of the library can be read.
* `readable_of_mem_hashStatements`, `readable_equalsResult`: the generated bodies can be read again,
  so brackets stand in them wherever they are needed.
* `methods_read`: **all methods of a unit are read as the statements they stand for.**
* `methods_return`: so what is read from their texts, run on objects of the class, returns the hash
  code of an object and whether two are equal.
-/

namespace ValueClass.Java

variable {e : Expr} {s : Statement} {rest : List Token} {library : LibrarySpelling}

/-! ## Readers -/

/-- Reads an expression and the mark that ends it. -/
def readTo (c : Char) (tokens : List Token) : Option (Expr × List Token) := do
  let (e, rest) ← readExpr tokens
  let rest ← [Token.mark c].isPrefixOf? rest
  return (e, rest)

/-- **Reads a statement**, and gives what comes after it. -/
def readStatement : List Token → Option (Statement × List Token)
  | .word "int" :: .word id :: .mark '=' :: rest => do
    let (e, rest) ← readTo ';' rest
    return (.declareInt id e, rest)
  | .word "long" :: .word id :: .mark '=' :: rest => do
    let (e, rest) ← readTo ';' rest
    return (.declareLong id e, rest)
  | .word "return" :: rest => do
    let (e, rest) ← readTo ';' rest
    return (.returns e, rest)
  | .word "if" :: .mark '(' :: rest => do
    let (condition, rest) ← readTo ')' rest
    let rest ← [Token.word "return"].isPrefixOf? rest
    let (yes, rest) ← readTo ';' rest
    let rest ← [Token.word "else", .word "return"].isPrefixOf? rest
    let (no, rest) ← readTo ';' rest
    return (.returnsEither condition yes no, rest)
  | .word id :: .mark '=' :: rest => do
    let (e, rest) ← readTo ';' rest
    return (.assign id e, rest)
  | _ => none

/-- Reads the statements up to the bracket that ends a method. -/
def readStatements (tokens : List Token) : Option (List Statement) :=
  if tokens = [.mark '\x7d'] then some []
  else do
    let (s, rest) ← readStatement tokens
    if _ : rest.length < tokens.length then
      let statements ← readStatements rest
      return s :: statements
    else none
termination_by tokens.length

/-- **Reads a method** after the text that it starts with. -/
def readMethod (start text : String) : Option (List Statement) := do
  let body ← start.toList.isPrefixOf? text.toList
  readStatements (tokensFrom [] body)

/-! ## Statements -/

theorem readTo_tokens (c : Char) (h : e.Readable) (hc : (Token.mark c).level? = none) :
    readTo c (e.tokens ++ .mark c :: rest) = some (e, rest) := by
  have hread := (reads_of_readable h).readExpr (ends_mark c hc 0 rest)
  have hmark := isPrefixOf?_append [Token.mark c] rest
  rw [List.singleton_append] at hmark
  simp only [readTo, hread, hmark, Option.bind_eq_bind, Option.bind_some]
  rfl

/-- Every statement that can be read again is read again. -/
theorem readStatement_tokens (h : s.Readable) :
    readStatement (s.tokens ++ rest) = some (s, rest) := by
  cases s with
  | declareInt id e =>
    have htokens : (Statement.declareInt id e).tokens ++ rest
        = .word "int" :: .word id :: .mark '=' :: (e.tokens ++ .mark ';' :: rest) := by
      simp [Statement.tokens]
    rw [htokens, readStatement, readTo_tokens ';' h.2 rfl]
    rfl
  | declareLong id e =>
    have htokens : (Statement.declareLong id e).tokens ++ rest
        = .word "long" :: .word id :: .mark '=' :: (e.tokens ++ .mark ';' :: rest) := by
      simp [Statement.tokens]
    rw [htokens, readStatement, readTo_tokens ';' h.2 rfl]
    rfl
  | assign id e =>
    have htokens : (Statement.assign id e).tokens ++ rest
        = .word id :: .mark '=' :: (e.tokens ++ .mark ';' :: rest) := by
      simp [Statement.tokens]
    have hreturn : id ≠ "return" := fun heq => h.1.not_reserved (by rw [heq]; decide)
    rw [htokens, readStatement, readTo_tokens ';' h.2 rfl]
    · rfl
    · exact hreturn
  | returns e =>
    have htokens : (Statement.returns e).tokens ++ rest
        = .word "return" :: (e.tokens ++ .mark ';' :: rest) := by
      simp [Statement.tokens]
    rw [htokens, readStatement, readTo_tokens ';' h rfl]
    rfl
  | returnsEither condition yes no =>
    have htokens : (Statement.returnsEither condition yes no).tokens ++ rest
        = .word "if" :: .mark '(' :: (condition.tokens ++ .mark ')' ::
          ([.word "return"] ++ (yes.tokens ++ .mark ';' ::
            ([.word "else", .word "return"] ++ (no.tokens ++ .mark ';' :: rest))))) := by
      simp [Statement.tokens]
    rw [htokens, readStatement, readTo_tokens ')' h.1 rfl]
    simp only [isPrefixOf?_append, readTo_tokens ';' h.2.1 rfl, readTo_tokens ';' h.2.2 rfl,
      Option.bind_eq_bind, Option.bind_some]
    rfl

theorem length_lt_statementTokens (s : Statement) (rest : List Token) :
    rest.length < (s.tokens ++ rest).length := by
  have hpos : 0 < s.tokens.length := by
    cases s <;> simp [Statement.tokens]
  rw [List.length_append]
  omega

/-- A statement starts with a word, so none is taken for the end of the method. -/
theorem tokens_ne_closing (s : Statement) (rest : List Token) :
    s.tokens ++ rest ≠ [.mark '\x7d'] := by
  cases s <;> simp [Statement.tokens]

theorem readStatements_tokens {statements : List Statement} (h : ∀ s ∈ statements, s.Readable) :
    readStatements (statements.flatMap Statement.tokens ++ [.mark '\x7d']) = some statements := by
  induction statements with
  | nil => rw [List.flatMap_nil, List.nil_append, readStatements, if_pos rfl]
  | cons s statements ih =>
    obtain ⟨hs, hstatements⟩ := List.forall_mem_cons.1 h
    rw [List.flatMap_cons, List.append_assoc, readStatements, if_neg (tokens_ne_closing s _),
      readStatement_tokens hs]
    simp only [length_lt_statementTokens, ih hstatements, dif_pos, Option.bind_eq_bind,
      Option.bind_some]
    rfl

theorem hasTokens_bodyText {statements : List Statement} (h : ∀ s ∈ statements, s.Readable) :
    HasTokens (bodyText statements) (statements.flatMap Statement.tokens) := by
  refine hasTokens_join fun s hs => ?_
  have hindent : HasTokens "    " [] := fun _ => rfl
  have hend : HasTokens "\n" [] := fun _ => rfl
  have hline := (hindent.append (hasTokens_statementText (h s hs))).append hend
  rwa [List.nil_append, List.append_nil] at hline

/-- **A body that can be read again is read again.** -/
theorem readMethod_bodyText (start : String) {statements : List Statement}
    (h : ∀ s ∈ statements, s.Readable) :
    readMethod start (start ++ bodyText statements ++ "  \x7d\n") = some statements := by
  have htext : (start ++ bodyText statements ++ "  \x7d\n").toList
      = start.toList ++ ((bodyText statements).toList ++ "  \x7d\n".toList) := by
    rw [String.toList_append, String.toList_append, List.append_assoc]
  have htokens : tokensFrom [] ((bodyText statements).toList ++ "  \x7d\n".toList)
      = statements.flatMap Statement.tokens ++ [.mark '\x7d'] := hasTokens_bodyText h _
  rw [readMethod, htext, isPrefixOf?_append]
  dsimp only [Option.bind_eq_bind, Option.bind_some]
  rw [htokens, readStatements_tokens h]

/-! ## Generated bodies -/

/-- The names of the classes of the library can be read where an expression uses them. -/
structure LibrarySpelling.Readable (library : LibrarySpelling) : Prop where
  floatInHash : IsDotted library.floatInHash
  doubleInHash : IsDotted library.doubleInHash
  floatInEquals : IsDotted library.floatInEquals
  doubleInEquals : IsDotted library.doubleInEquals
  arrays : IsDotted library.arrays

theorem readable_librarySpelling (d : Description) (simpleArrays : Bool) :
    (librarySpelling d simpleArrays).Readable := by
  have hname : ∀ simple ∈ ["Float", "Double"], ∀ preferSimple,
      IsDotted (expressionName d simple preferSimple) := by
    intro simple hsimple preferSimple
    rw [expressionName]
    simp only [List.mem_cons, List.not_mem_nil, or_false] at hsimple
    rcases hsimple with rfl | rfl <;> split <;> decide
  have harrays : IsDotted (if simpleArrays then "Arrays" else "java.util.Arrays") := by
    cases simpleArrays <;> decide
  exact
    { floatInHash := hname "Float" (by decide) true
      doubleInHash := hname "Double" (by decide) true
      floatInEquals := hname "Float" (by decide) false
      doubleInEquals := hname "Double" (by decide) false
      arrays := harrays }

/-- An expression that refers to a field, by its name alone or as a field of this object. -/
structure RefersToField (e : Expr) : Prop where
  readable : e.Readable
  path_ne_nil : e.path ≠ []

theorem refersToField_fieldIn (locals : List String) {field : String} (h : IsIdentifier field) :
    RefersToField (fieldIn locals field) := by
  rw [fieldIn]
  split
  · exact ⟨h, List.cons_ne_nil _ _⟩
  · exact ⟨h, List.cons_ne_nil _ _⟩

theorem readable_folded {word : Expr} (h : RefersToField word) : (folded word).Readable := by
  have hlevel := level_of_path h.path_ne_nil
  exact ⟨⟨h.readable, by omega⟩, ⟨h.readable, by omega⟩, by simp [Expr.level]⟩

/-- What a field adds is a name, a call or in brackets. -/
theorem readable_contribution (hlibrary : library.Readable) (type : FieldType)
    (he : RefersToField e) :
    (contribution library type e).Readable ∧ (contribution library type e).level = 7 := by
  have hlevel := level_of_path he.path_ne_nil
  unfold contribution
  cases type.hashRule with
  | value => exact ⟨he.readable, hlevel⟩
  | constants =>
    have htrue : 0 ≤ trueHash.toInt := by decide
    have hfalse : 0 ≤ falseHash.toInt := by decide
    exact ⟨⟨he.readable, htrue, hfalse⟩, rfl⟩
  | foldedLong => exact ⟨readable_folded he, rfl⟩
  | floatBits => exact ⟨⟨hlibrary.floatInHash, he.readable⟩, rfl⟩
  | foldedDouble =>
    have htemp : IsIdentifier "temp" := by decide
    exact ⟨readable_folded ⟨htemp, List.cons_ne_nil _ _⟩, rfl⟩
  | items => exact ⟨⟨hlibrary.arrays, he.readable⟩, rfl⟩
  | nestedItems => exact ⟨⟨hlibrary.arrays, he.readable⟩, rfl⟩
  | objectOrNull =>
    have hnull : (Expr.same e .null).Readable :=
      ⟨⟨he.readable, by omega⟩, trivial, by simp [Expr.level]⟩
    have hzero : 0 ≤ (0 : Int32).toInt := by decide
    exact ⟨⟨hnull, hzero, he.readable, he.path_ne_nil⟩, rfl⟩

theorem readable_addStatement (hlibrary : library.Readable) {field : String → Expr} {m : Member}
    (hm : RefersToField (field m.name)) : (addStatement library field m).Readable := by
  have hprime : IsIdentifier "prime" := by decide
  have hresult : IsIdentifier "result" := by decide
  have hproduct : (Expr.product (.name "prime") (.name "result")).Readable :=
    ⟨⟨hprime, by decide⟩, hresult, by decide⟩
  obtain ⟨hpart, hlevel⟩ := readable_contribution hlibrary m.type hm
  exact ⟨hresult, ⟨hproduct, by decide⟩, hpart, by omega⟩

theorem readable_of_mem_addingStatements (hlibrary : library.Readable) {field : String → Expr}
    {declared : Bool} {members : List Member}
    (hmembers : ∀ m ∈ members, RefersToField (field m.name)) :
    ∀ s ∈ addingStatements library field declared members, s.Readable := by
  induction members generalizing declared with
  | nil => exact List.forall_mem_nil _
  | cons m members ih =>
    obtain ⟨hm, hmembers⟩ := List.forall_mem_cons.1 hmembers
    have hadd := readable_addStatement hlibrary hm
    have hword : (Expr.doubleBits library.doubleInHash (field m.name)).Readable :=
      ⟨hlibrary.doubleInHash, hm.readable⟩
    rw [addingStatements]
    split
    · rw [List.forall_mem_cons, List.forall_mem_cons]
      refine ⟨?_, hadd, ih hmembers⟩
      have htemp : IsIdentifier "temp" := by decide
      cases declared with
      | true => exact ⟨htemp, hword⟩
      | false => exact ⟨htemp, hword⟩
    · rw [List.forall_mem_cons]
      exact ⟨hadd, ih hmembers⟩

theorem readable_of_mem_hashStatements (hlibrary : library.Readable) {members : List Member}
    (hnames : ∀ m ∈ members, IsIdentifier m.name) :
    ∀ s ∈ hashStatements library members, s.Readable := by
  have hadding : ∀ s ∈ addingStatements library (fieldIn hashVariables) false members, s.Readable :=
    readable_of_mem_addingStatements hlibrary fun m hm => refersToField_fieldIn _ (hnames m hm)
  have hprime : IsIdentifier "prime" ∧ 0 ≤ hashPrime.toInt := by decide
  have hresult : IsIdentifier "result" ∧ 0 ≤ hashSeed.toInt := by decide
  rw [hashStatements, hashBody, List.cons_append, List.cons_append, List.forall_mem_cons,
    List.forall_mem_cons, List.forall_mem_append, List.forall_mem_singleton]
  exact ⟨hprime, hresult, hadding, hresult.1⟩

/-- The comparison of a field is no conjunction. -/
theorem readable_comparison (hlibrary : library.Readable) {m : Member} (hname : IsIdentifier m.name)
    (he : RefersToField e) :
    (comparison library e m).Readable ∧ 2 ≤ (comparison library e m).level := by
  have hlevel := level_of_path he.path_ne_nil
  have htheirs : (Expr.ofThat m.name).Readable := hname
  unfold comparison
  cases m.type.equalityRule with
  | value =>
    exact ⟨⟨⟨he.readable, by omega⟩, htheirs, by simp [Expr.level]⟩, by simp [Expr.level]⟩
  | floatBits =>
    have hmine : IsDotted library.floatInEquals ∧ e.Readable :=
      ⟨hlibrary.floatInEquals, he.readable⟩
    exact ⟨⟨⟨hmine, by simp [Expr.level]⟩, ⟨hmine.1, htheirs⟩, by simp [Expr.level]⟩,
      by simp [Expr.level]⟩
  | doubleBits =>
    have hmine : IsDotted library.doubleInEquals ∧ e.Readable :=
      ⟨hlibrary.doubleInEquals, he.readable⟩
    exact ⟨⟨⟨hmine, by simp [Expr.level]⟩, ⟨hmine.1, htheirs⟩, by simp [Expr.level]⟩,
      by simp [Expr.level]⟩
  | items => exact ⟨⟨hlibrary.arrays, he.readable, htheirs⟩, by simp [Expr.level]⟩
  | nestedItems => exact ⟨⟨hlibrary.arrays, he.readable, htheirs⟩, by simp [Expr.level]⟩
  | objectOrNull => exact ⟨⟨he.readable, htheirs⟩, by simp [Expr.level]⟩

/-- Conditions are read from left to right. -/
theorem readable_conjunction {conditions : List Expr}
    (h : ∀ condition ∈ conditions, condition.Readable ∧ 2 ≤ condition.level) :
    (conjunction conditions).Readable := by
  have hfold : ∀ (conditions : List Expr) (first : Expr), first.Readable →
      (∀ condition ∈ conditions, condition.Readable ∧ 2 ≤ condition.level) →
        (conditions.foldl .both first).Readable := by
    intro conditions
    induction conditions with
    | nil => exact fun first hfirst _ => hfirst
    | cons condition conditions ih =>
      intro first hfirst hconditions
      obtain ⟨hcondition, hrest⟩ := List.forall_mem_cons.1 hconditions
      exact ih _ ⟨⟨hfirst, (level_le first).1⟩, hcondition⟩ hrest
  cases conditions with
  | nil => trivial
  | cons first conditions =>
    obtain ⟨hfirst, hconditions⟩ := List.forall_mem_cons.1 h
    exact hfold conditions first hfirst.1 hconditions

theorem readable_equalsResult (hlibrary : library.Readable) {members : List Member}
    (hnames : ∀ m ∈ members, IsIdentifier m.name) : (equalsResult library members).Readable := by
  refine readable_conjunction (List.forall_mem_map.2 fun m hm => ?_)
  exact readable_comparison hlibrary (hnames m hm) (refersToField_fieldIn _ (hnames m hm))

theorem readable_of_mem_helperStatements : ∀ s ∈ helperStatements, s.Readable := by
  rw [helperStatements, List.forall_mem_singleton]
  have hleft : IsIdentifier "left" := by decide
  have hright : IsIdentifier "right" := by decide
  exact ⟨⟨⟨hleft, by decide⟩, trivial, by decide⟩, ⟨⟨hright, by decide⟩, trivial, by decide⟩,
    ⟨hleft, List.cons_ne_nil _ _⟩, hright⟩

/-! ## Units -/

/-- What the text of `equals` starts with: the comparison with the object itself and with objects of
other classes, and the variable for the other object if there are fields to compare. -/
def equalsStart (u : CompilationUnit) : String :=
  "  " ++ u.library.override ++ "\n  public boolean equals(" ++ u.library.object ++ " other) \x7b\n"
    ++ "    if (other == this)\n"
    ++ "        return true;\n"
    ++ "    else if (other == null || getClass() != other.getClass())\n"
    ++ "        return false;\n"
    ++ (if u.members.isEmpty then "" else "    " ++ u.name ++ " that = (" ++ u.name ++ ") other;\n")

theorem equalsText_eq (u : CompilationUnit) :
    equalsText u.name u.library u.members = equalsStart u
      ++ bodyText [.returns (equalsResult u.library u.members)] ++ "  \x7d\n" := by
  unfold equalsText comparisonText equalsStart
  rw [← String.append_assoc]

/-- **All methods of a unit are read as the statements they stand for**, if the fields have names
that can be read. -/
theorem methods_read {d : Description} {u : CompilationUnit}
    (h : CompilationUnit.ofDescription d = .ok u) (hnames : ∀ m ∈ u.members, IsIdentifier m.name) :
    readMethod ("  " ++ u.library.override ++ "\n  public int hashCode() \x7b\n")
        (hashCodeText u.library u.members) = some (hashStatements u.library u.members) ∧
      readMethod (equalsStart u) (equalsText u.name u.library u.members)
        = some [.returns (equalsResult u.library u.members)] ∧
      readMethod ("  private boolean equals(" ++ u.library.object ++ " left, " ++ u.library.object
        ++ " right) \x7b\n") (helperText u.library) = some helperStatements := by
  have hlibrary : u.library.Readable := by
    obtain ⟨types, -, rfl⟩ := map_eq_ok_iff.1 h
    exact readable_librarySpelling d _
  refine ⟨?_, ?_, ?_⟩
  · exact readMethod_bodyText _ (readable_of_mem_hashStatements hlibrary hnames)
  · rw [equalsText_eq u]
    refine readMethod_bodyText _ (List.forall_mem_singleton.2 ?_)
    exact readable_equalsResult hlibrary hnames
  · exact readMethod_bodyText _ readable_of_mem_helperStatements

/-- A class with a field that the variable of `equals` hides, and with one that it does not. -/
theorem methods_read_hidden_field :
    let d : Description := ⟨"", "Pair", "", [⟨"that", "double", ""⟩, ⟨"name", "String", ""⟩]⟩
    let u := CompilationUnit.ofTypes d [.scalar .double, .reference "String" []]
    CompilationUnit.ofDescription d = .ok u ∧ (∀ m ∈ u.members, IsIdentifier m.name) ∧
      readMethod (equalsStart u) (equalsText u.name u.library u.members) = some
        [.returns (.both
          (.same (.doubleBits "java.lang.Double" (.ofThis "that"))
            (.doubleBits "java.lang.Double" (.ofThat "that")))
          (.nullSafeEquals (.name "name") (.ofThat "name")))] := by
  intro d u
  have hu : CompilationUnit.ofDescription d = .ok u := by decide +kernel
  have hnames : ∀ m ∈ u.members, IsIdentifier m.name := by decide +kernel
  exact ⟨hu, hnames, (methods_read hu hnames).2.1⟩

/-- **The texts of `hashCode` and `equals` return the hash code of an object and whether two are
equal**, read and run on objects of the class. -/
theorem methods_return {d : Description} {u : CompilationUnit}
    (h : CompilationUnit.ofDescription d = .ok u) (hnames : ∀ m ∈ u.members, IsIdentifier m.name)
    (distinct : (u.members.map Member.name).Nodup) (a b : Object u.members) :
    (∃ body code,
      readMethod ("  " ++ u.library.override ++ "\n  public int hashCode() \x7b\n")
        (hashCodeText u.library u.members) = some body ∧
      a.toInstance.hashCode = .ok code ∧ run a.hashFrame body = some (.int code)) ∧
    ∃ body answer,
      readMethod (equalsStart u) (equalsText u.name u.library u.members) = some body ∧
      a.toInstance.equals b.toInstance = .ok answer ∧
      run (a.equalsFrame b) body = some (.boolean answer) := by
  obtain ⟨hhash, hequals, -⟩ := methods_read h hnames
  obtain ⟨code, hcode, hrun⟩ := exists_run_hashStatements u.library distinct a
  obtain ⟨answer, hanswer, heval⟩ := exists_eval_equalsResult u.library distinct a b
  have hreturn : run (a.equalsFrame b) [.returns (equalsResult u.library u.members)]
      = some (.boolean answer) := by
    simp [run, Statement.exec, heval]
  exact ⟨⟨_, code, hhash, hcode, hrun⟩, _, answer, hequals, hanswer, hreturn⟩

end ValueClass.Java
