import ValueClass.Proofs.TypeNames

/-!
# Names of library classes in method bodies

Method bodies name three classes of the library, each by its simple name or with its package. A
field, and the class itself, hide what has their name: a simple name is then of no use, and after
`java` no qualified one is.

* `Expr.uses`, `CompilationUnit.hashUses`, `CompilationUnit.equalsUses`: where the bodies name a
  class of the library, and how.
* `RightFor`: **a spelling is right if its first name is not hidden.**
* `spelledAs_of_mem_hashUses`, `spelledAs_of_mem_equalsUses`: a body spells a class in one way
  throughout.
* `spelled_right_iff`: the spelling is right where one is, unless the class itself is called `java`.
-/

namespace ValueClass.Java

/-! ## Uses -/

/-- A class of the library that method bodies name. -/
inductive LibraryClass where
  | float
  | double
  | arrays
  deriving DecidableEq, Repr

namespace LibraryClass

def simple : LibraryClass → String
  | float => "Float"
  | double => "Double"
  | arrays => "Arrays"

def package : LibraryClass → String
  | float | double => implicitPackage
  | arrays => "java.util"

def qualified (c : LibraryClass) : String :=
  c.package ++ "." ++ c.simple

theorem simple_ne_qualified (c : LibraryClass) : c.simple ≠ c.qualified := by
  cases c <;> decide

theorem simple_ne_java (c : LibraryClass) : c.simple ≠ "java" := by
  cases c <;> decide

end LibraryClass

/-- A class of the library, and how it is spelled where it is named. -/
abbrev LibraryUse :=
  LibraryClass × String

/-- The classes of the library that an expression names. -/
def Expr.uses : Expr → List LibraryUse
  | .name _ | .ofThis _ | .ofThat _ | .null | .number _ | .truth => []
  | .product a b | .sum a b | .exclusiveOr a b | .same a b | .nullSafeEquals a b
  | .objectEquals a b | .both a b => a.uses ++ b.uses
  | .upperHalf e | .toInt e | .objectHash e => e.uses
  | .choice condition yes no => condition.uses ++ yes.uses ++ no.uses
  | .floatBits owner e => (.float, owner) :: e.uses
  | .doubleBits owner e => (.double, owner) :: e.uses
  | .arrayHash owner _ e => (.arrays, owner) :: e.uses
  | .arrayEquals owner _ a b => (.arrays, owner) :: (a.uses ++ b.uses)

/-- The classes of the library that a statement names. -/
def Statement.uses : Statement → List LibraryUse
  | .declareInt _ e | .declareLong _ e | .assign _ e | .returns e => e.uses
  | .returnsEither condition yes no => condition.uses ++ yes.uses ++ no.uses

/-- The classes of the library that `hashCode` names. -/
def CompilationUnit.hashUses (u : CompilationUnit) : List LibraryUse :=
  (hashStatements u.library u.members).flatMap Statement.uses

/-- The classes of the library that `equals` names. -/
def CompilationUnit.equalsUses (u : CompilationUnit) : List LibraryUse :=
  (equalsResult u.library u.members).uses

/-- A use that is spelled in one of the given ways. Arrays are named only where a member is one. -/
def SpelledAs (float double arrays : String) (members : List Member) (use : LibraryUse) : Prop :=
  use = (.float, float) ∨ use = (.double, double) ∨
    use = (.arrays, arrays) ∧ ∃ m ∈ members, m.type.element?.isSome = true

theorem SpelledAs.cons {float double arrays : String} {members : List Member} {use : LibraryUse}
    (h : SpelledAs float double arrays members use) (m : Member) :
    SpelledAs float double arrays (m :: members) use := by
  rcases h with hfloat | hdouble | ⟨harrays, other, hother, harray⟩
  · exact .inl hfloat
  · exact .inr (.inl hdouble)
  · exact .inr (.inr ⟨harrays, other, List.mem_cons_of_mem m hother, harray⟩)

theorem arrays_of_spelledAs {float double arrays spelled : String} {members : List Member}
    (h : SpelledAs float double arrays members (.arrays, spelled)) :
    spelled = arrays ∧ ∃ m ∈ members, m.type.element?.isSome = true := by
  rcases h with hfloat | hdouble | ⟨harrays, harray⟩
  · cases hfloat
  · cases hdouble
  · exact ⟨congrArg Prod.snd harrays, harray⟩

variable {library : LibrarySpelling} {members : List Member} {m : Member} {use : LibraryUse}

@[simp] theorem uses_fieldIn (locals : List String) (field : String) :
    (fieldIn locals field).uses = [] := by
  unfold fieldIn
  split <;> rfl

theorem uses_contribution (library : LibrarySpelling) (type : FieldType) {field : Expr}
    (hfield : field.uses = []) :
    (contribution library type field).uses =
      if type = .scalar .float then [(.float, library.floatInHash)]
      else if type.element?.isSome then [(.arrays, library.arrays)] else [] := by
  unfold contribution
  cases type with
  | scalar kind =>
    cases kind <;> simp [FieldType.hashRule, FieldType.element?, Expr.uses, folded, hfield]
  | array element =>
    cases element <;> simp [FieldType.hashRule, FieldType.element?, Expr.uses, hfield]
  | reference name arguments =>
    simp [FieldType.hashRule, FieldType.element?, Expr.uses, hfield]

theorem uses_comparison (library : LibrarySpelling) {mine : Expr} (hmine : mine.uses = [])
    (m : Member) :
    (comparison library mine m).uses =
      if m.type = .scalar .float then List.replicate 2 (.float, library.floatInEquals)
      else if m.type = .scalar .double then List.replicate 2 (.double, library.doubleInEquals)
      else if m.type.element?.isSome then [(.arrays, library.arrays)] else [] := by
  unfold comparison
  cases m.type with
  | scalar kind =>
    cases kind <;> simp [FieldType.equalityRule, FieldType.element?, Expr.uses, hmine]
  | array element =>
    cases element <;> simp [FieldType.equalityRule, FieldType.element?, Expr.uses, hmine]
  | reference name arguments =>
    simp [FieldType.equalityRule, FieldType.element?, Expr.uses, hmine]

/-- The statement that adds a member names at most one class. -/
theorem spelledAs_of_mem_addStatement {field : String → Expr} (hfield : (field m.name).uses = [])
    (h : use ∈ (addStatement library field m).uses) :
    SpelledAs library.floatInHash library.doubleInHash library.arrays (m :: members) use := by
  have huses : (addStatement library field m).uses =
      (contribution library m.type (field m.name)).uses := rfl
  rw [huses, uses_contribution library m.type hfield] at h
  split at h
  · exact .inl (List.mem_singleton.1 h)
  split at h
  · rename_i harray
    exact .inr (.inr ⟨List.mem_singleton.1 h, m, List.mem_cons_self, harray⟩)
  · cases h

/-- **The statements that add the members spell each class in one way.** -/
theorem spelledAs_of_mem_addingStatements {field : String → Expr}
    (hfield : ∀ name, (field name).uses = []) {declared : Bool}
    (h : use ∈ (addingStatements library field declared members).flatMap Statement.uses) :
    SpelledAs library.floatInHash library.doubleInHash library.arrays members use := by
  induction members generalizing declared with
  | nil => cases h
  | cons m members ih =>
    simp only [addingStatements] at h
    split at h
    · -- the word of a double precision number is stored before the member is added
      have hstore : (if declared then
          Statement.assign "temp" (.doubleBits library.doubleInHash (field m.name))
          else .declareLong "temp" (.doubleBits library.doubleInHash (field m.name))).uses
            = [(.double, library.doubleInHash)] := by
        cases declared <;> simp [Statement.uses, Expr.uses, hfield]
      rw [List.flatMap_cons, hstore, List.flatMap_cons, List.mem_append, List.mem_append] at h
      rcases h with h | h | h
      · exact .inr (.inl (List.mem_singleton.1 h))
      · exact spelledAs_of_mem_addStatement (hfield m.name) h
      · exact (ih h).cons m
    · rw [List.flatMap_cons, List.mem_append] at h
      rcases h with h | h
      · exact spelledAs_of_mem_addStatement (hfield m.name) h
      · exact (ih h).cons m

theorem uses_foldl_both (es : List Expr) (e : Expr) :
    (es.foldl .both e).uses = e.uses ++ es.flatMap Expr.uses := by
  induction es generalizing e with
  | nil => simp
  | cons e' es ih =>
    rw [List.foldl_cons, ih, List.flatMap_cons, Expr.uses, List.append_assoc]

theorem uses_conjunction (es : List Expr) : (conjunction es).uses = es.flatMap Expr.uses := by
  cases es with
  | nil => rfl
  | cons e es => exact uses_foldl_both es e

variable {u : CompilationUnit}

/-- `hashCode` spells each class in one way. -/
theorem spelledAs_of_mem_hashUses (h : use ∈ u.hashUses) :
    SpelledAs u.library.floatInHash u.library.doubleInHash u.library.arrays u.members use := by
  have huses : u.hashUses = (addingStatements u.library (fieldIn hashVariables) false
      u.members).flatMap Statement.uses := by
    simp [CompilationUnit.hashUses, hashStatements, hashBody, Statement.uses, Expr.uses]
  rw [huses] at h
  exact spelledAs_of_mem_addingStatements (uses_fieldIn hashVariables) h

/-- `equals` spells each class in one way. -/
theorem spelledAs_of_mem_equalsUses (h : use ∈ u.equalsUses) :
    SpelledAs u.library.floatInEquals u.library.doubleInEquals u.library.arrays u.members use := by
  rw [CompilationUnit.equalsUses, equalsResult, comparisonOfAll, uses_conjunction,
    List.flatMap_map, List.mem_flatMap] at h
  obtain ⟨m, hm, h⟩ := h
  rw [uses_comparison u.library (uses_fieldIn equalsVariables m.name) m] at h
  split at h
  · exact .inl (List.eq_of_mem_replicate h)
  split at h
  · exact .inr (.inl (List.eq_of_mem_replicate h))
  split at h
  · rename_i harray
    exact .inr (.inr ⟨List.mem_singleton.1 h, m, hm, harray⟩)
  · cases h

/-! ## Right spellings -/

variable {d : Description} {types : List FieldType} {c : LibraryClass}

/-- Whether a field, or the class itself, hides what else has the given name. -/
def Hides (d : Description) (id : String) : Prop :=
  hasField d id = true ∨ d.name = id

/-- **Whether a spelling of a library class is right**: nothing hides the name it starts with. -/
def RightFor (d : Description) (c : LibraryClass) (spelled : String) : Prop :=
  spelled = c.simple ∧ ¬Hides d c.simple ∨ spelled = c.qualified ∧ ¬Hides d "java"

/-- Whether there is a right spelling. -/
def Nameable (d : Description) (c : LibraryClass) : Prop :=
  RightFor d c c.simple ∨ RightFor d c c.qualified

/-- The class itself is called `java`, and no field has that name or the simple one. -/
def CalledJava (d : Description) (c : LibraryClass) : Prop :=
  d.name = "java" ∧ hasField d "java" = false ∧ hasField d c.simple = false

instance (d : Description) (id : String) : Decidable (Hides d id) :=
  inferInstanceAs (Decidable (_ ∨ _))

instance (d : Description) (c : LibraryClass) (spelled : String) :
    Decidable (RightFor d c spelled) :=
  inferInstanceAs (Decidable (_ ∨ _))

instance (d : Description) (c : LibraryClass) : Decidable (Nameable d c) :=
  inferInstanceAs (Decidable (_ ∨ _))

instance (d : Description) (c : LibraryClass) : Decidable (CalledJava d c) :=
  inferInstanceAs (Decidable (_ ∧ _))

@[simp] theorem rightFor_simple_iff : RightFor d c c.simple ↔ ¬Hides d c.simple := by
  simp [RightFor, c.simple_ne_qualified]

@[simp] theorem rightFor_qualified_iff : RightFor d c c.qualified ↔ ¬Hides d "java" := by
  simp [RightFor, c.simple_ne_qualified.symm]

theorem not_hides_iff {id : String} : ¬Hides d id ↔ id ≠ d.name ∧ hasField d id = false := by
  rw [Hides, not_or, Bool.not_eq_true, and_comm, ne_comm]

/-- **Where a field called `java` is the only reason to take the simple name**, the spelling is
right if one is, unless the class is called `java` itself. -/
theorem right_choice_iff {simpler : Prop} [Decidable simpler]
    (honly : simpler → hasField d "java" = true)
    (hthen : hasField d "java" = true → ¬Hides d c.simple → simpler) :
    (Nameable d c → RightFor d c (if simpler then c.simple else c.qualified)) ↔
      ¬CalledJava d c := by
  by_cases hsimpler : simpler
  · have hfield := honly hsimpler
    have hjava : Hides d "java" := .inl hfield
    simp [Nameable, hsimpler, hjava, CalledJava, hfield]
  · have hfree : ¬Hides d c.simple → hasField d "java" = false := by
      intro hshown
      rw [← Bool.not_eq_true]
      exact fun hfield => hsimpler (hthen hfield hshown)
    rw [if_neg hsimpler, rightFor_qualified_iff]
    constructor
    · -- the package is hidden by the class alone, and nothing hides the simple name
      rintro hright ⟨hname, -, hfield⟩
      have hshown : ¬Hides d c.simple := by
        rw [not_hides_iff, hname]
        exact ⟨c.simple_ne_java, hfield⟩
      exact hright (.inl (rightFor_simple_iff.2 hshown)) (.inr hname)
    · rintro hnot (hsimple | hqualified)
      · have hshown := rightFor_simple_iff.1 hsimple
        rintro (hfield | hname)
        · exact absurd hfield (by simp [hfree hshown])
        · exact hnot ⟨hname, hfree hshown, (not_hides_iff.1 hshown).2⟩
      · exact rightFor_qualified_iff.1 hqualified

theorem expressionName_eq (hc : c ≠ .arrays) (preferSimple : Bool) :
    expressionName d c.simple preferSimple =
      if c.simple ≠ d.name ∧ hasField d c.simple = false ∧ (hasField d "java" ∨ preferSimple)
      then c.simple else c.qualified := by
  cases c with
  | arrays => exact absurd rfl hc
  | float | double => rfl

/-- A name that is simple wherever it can be is right if one is. -/
theorem right_expressionName (hc : c ≠ .arrays) (h : Nameable d c) :
    RightFor d c (expressionName d c.simple true) := by
  rw [expressionName_eq hc]
  split
  · rename_i hshown
    rw [rightFor_simple_iff, not_hides_iff]
    exact ⟨hshown.1, hshown.2.1⟩
  · rename_i hhidden
    have hsimple : Hides d c.simple := by
      by_contra hshown
      obtain ⟨hname, hfield⟩ := not_hides_iff.1 hshown
      exact hhidden ⟨hname, hfield, .inr rfl⟩
    simpa [Nameable, hsimple] using h

/-- A name that is qualified wherever it can be, as far as fields are concerned. -/
theorem right_expressionName_qualified_iff (hc : c ≠ .arrays) :
    (Nameable d c → RightFor d c (expressionName d c.simple false)) ↔ ¬CalledJava d c := by
  rw [expressionName_eq hc]
  refine right_choice_iff (fun hsimpler => ?_) fun hfield hshown => ?_
  · simpa using hsimpler.2.2
  · obtain ⟨hname, hsimple⟩ := not_hides_iff.1 hshown
    exact ⟨hname, hsimple, .inl hfield⟩

/-! ## `Arrays` -/

/-- Before its fields are looked at, only the class itself can own the name. -/
theorem owner?_ofClass_arrays (package name : String) :
    (Scope.ofClass package name).owner? "Arrays" =
      if name = "Arrays" then some package else none := by
  have hmethods : (methodNames.map (⟨implicitPackage, ·, ""⟩ : String → ClassName)).find?
      (·.topLevel == "Arrays") = none := by decide
  rw [ofClass_eq, Scope.owner?_claimAll, List.find?_cons]
  by_cases hname : name = "Arrays"
  · rw [if_pos hname, hname, beq_self_eq_true]
    rfl
  · rw [if_neg hname, beq_eq_false_iff_ne.2 hname]
    dsimp only
    rw [hmethods]
    rfl

theorem simpleArrays_eq_true_iff :
    simpleArrays d types = true ↔
      wantsSimpleArrays d types = true ∧ (d.name = "Arrays" → d.package = "java.util") := by
  have howns : ((Scope.ofClass d.package d.name).claim "java.util" "Arrays").owns "java.util"
      "Arrays" = true ↔ (d.name = "Arrays" → d.package = "java.util") := by
    rw [Scope.owns, Scope.owner?_claim, owner?_ofClass_arrays]
    by_cases hname : d.name = "Arrays" <;> simp [hname]
  rw [simpleArrays, Bool.and_eq_true, howns]

/-- How the methods name `Arrays`, in a class that has a field with an array. -/
theorem right_arrays_iff (harray : types.any (·.element?.isSome) = true) :
    (Nameable d .arrays →
        RightFor d .arrays (librarySpelling d (simpleArrays d types)).arrays) ↔
      ¬CalledJava d .arrays := by
  have hspelled : (librarySpelling d (simpleArrays d types)).arrays =
      if simpleArrays d types = true then LibraryClass.arrays.simple
      else LibraryClass.arrays.qualified := rfl
  rw [hspelled]
  refine right_choice_iff (fun hsimpler => ?_) fun hfield hshown => ?_
  · obtain ⟨hwants, -⟩ := simpleArrays_eq_true_iff.1 hsimpler
    simp only [wantsSimpleArrays, Bool.and_eq_true] at hwants
    exact hwants.1.1
  · obtain ⟨hname, hsimple⟩ := not_hides_iff.1 hshown
    refine simpleArrays_eq_true_iff.2 ⟨?_, fun hsame => absurd hsame (Ne.symm hname)⟩
    have hnone : hasField d "Arrays" = false := hsimple
    simp [wantsSimpleArrays, hfield, harray, hnone]

/-- **The simple name of `Arrays` comes with its import**, if an import is needed. -/
theorem imported_of_simpleArrays (h : simpleArrays d types = true) :
    LibraryClass.arrays.qualified ∈ (scopeOf d types).imports ∨
      d.package = LibraryClass.arrays.package := by
  obtain ⟨hwants, hown⟩ := simpleArrays_eq_true_iff.1 h
  by_cases hpackage : d.package = "java.util"
  · exact .inr hpackage
  · have hname : "Arrays" ≠ d.name := fun hname => hpackage (hown hname.symm)
    have howner : (scopeOf d types).owner? "Arrays" = some "java.util" := by
      have hmethod : "Arrays" ∉ methodNames := by decide
      rw [owner?_scopeOf_cases, if_neg hname, if_neg hmethod, fieldClaims, if_pos hwants]
      rfl
    have hneeds : (scopeOf d types).needsImport "java.util" = true := by
      rw [needsImport_scopeOf]
      exact ⟨by decide, by decide, Ne.symm hpackage⟩
    exact .inl ((mem_imports_scopeOf_iff (by decide)).2 ⟨howner, hneeds⟩)

/-! ## The spellings of a unit -/

section Unit

variable (hunit : u = CompilationUnit.ofTypes d types)

include hunit

theorem right_of_mem_hashUses {spelled : String} (huse : (c, spelled) ∈ u.hashUses)
    (hc : c ≠ .arrays) (h : Nameable d c) : RightFor d c spelled := by
  rcases spelledAs_of_mem_hashUses huse with hfloat | hdouble | ⟨harrays, -⟩
  · cases hfloat
    rw [hunit]
    exact right_expressionName hc h
  · cases hdouble
    rw [hunit]
    exact right_expressionName hc h
  · cases harrays
    exact absurd rfl hc

theorem right_arrays_of_member (harray : ∃ m ∈ u.members, m.type.element?.isSome = true)
    (htypes : u.members.map (·.type) = types) :
    (Nameable d .arrays → RightFor d .arrays u.library.arrays) ↔ ¬CalledJava d .arrays := by
  obtain ⟨m, hm, hsome⟩ := harray
  have hany : types.any (·.element?.isSome) = true := by
    rw [← htypes]
    exact List.any_eq_true.2 ⟨m.type, List.mem_map_of_mem hm, hsome⟩
  rw [hunit]
  exact right_arrays_iff hany

theorem right_of_mem_equalsUses_iff {spelled : String} (huse : (c, spelled) ∈ u.equalsUses)
    (htypes : u.members.map (·.type) = types) :
    (Nameable d c → RightFor d c spelled) ↔ ¬CalledJava d c := by
  rcases spelledAs_of_mem_equalsUses huse with hfloat | hdouble | ⟨harrays, harray⟩
  · cases hfloat
    rw [hunit]
    exact right_expressionName_qualified_iff (by decide)
  · cases hdouble
    rw [hunit]
    exact right_expressionName_qualified_iff (by decide)
  · cases harrays
    exact right_arrays_of_member hunit harray htypes

theorem imported_of_arrays_simple (h : u.library.arrays = LibraryClass.arrays.simple) :
    LibraryClass.arrays.qualified ∈ u.imports ∨ d.package = LibraryClass.arrays.package := by
  rw [hunit] at h ⊢
  refine imported_of_simpleArrays ?_
  by_contra hqualified
  have hspelled : (CompilationUnit.ofTypes d types).library.arrays
      = LibraryClass.arrays.qualified := if_neg hqualified
  exact LibraryClass.arrays.simple_ne_qualified (h.symm.trans hspelled)

end Unit

/-- **The spelling of a library class is right wherever one is, unless the class itself is called
`java`**, which `equals` and the spelling of `Arrays` do not look for. The simple name of a class
that has to be imported comes with the import. -/
theorem spelled_right_iff (h : CompilationUnit.ofDescription d = .ok u) :
    (∀ c spelled, (c, spelled) ∈ u.hashUses → c ≠ .arrays →
        Nameable d c → RightFor d c spelled) ∧
      (∀ c spelled, (c, spelled) ∈ u.equalsUses ∨ (c, spelled) ∈ u.hashUses ∧ c = .arrays →
        ((Nameable d c → RightFor d c spelled) ↔ ¬CalledJava d c)) ∧
      ∀ c spelled, (c, spelled) ∈ u.hashUses ∨ (c, spelled) ∈ u.equalsUses →
        spelled = c.simple → c.package ≠ implicitPackage →
          c.qualified ∈ u.imports ∨ d.package = c.package := by
  obtain ⟨hunit, -⟩ := members_of_ofDescription h
  refine ⟨fun c spelled huse hc => right_of_mem_hashUses hunit huse hc,
    fun c spelled huse => ?_, fun c spelled huse hsimple hpackage => ?_⟩
  · rcases huse with huse | ⟨huse, rfl⟩
    · exact right_of_mem_equalsUses_iff hunit huse rfl
    · obtain ⟨rfl, harray⟩ := arrays_of_spelledAs (spelledAs_of_mem_hashUses huse)
      exact right_arrays_of_member hunit harray rfl
  · -- the classes that need no import are those of the language
    obtain rfl : c = .arrays := by
      cases c with
      | arrays => rfl
      | float | double => exact absurd rfl hpackage
    have hspelled : spelled = u.library.arrays := by
      rcases huse with huse | huse
      · exact (arrays_of_spelledAs (spelledAs_of_mem_hashUses huse)).1
      · exact (arrays_of_spelledAs (spelledAs_of_mem_equalsUses huse)).1
    exact imported_of_arrays_simple hunit (hspelled.symm.trans hsimple)

/-- A field called `java` rules out the qualified names, and `Arrays` is imported. -/
theorem spelled_right_field_java :
    let d : Description := ⟨"geo", "Grid", "", [⟨"java", "int[]", ""⟩, ⟨"ratio", "float", ""⟩]⟩
    ∃ u, CompilationUnit.ofDescription d = .ok u ∧ (.float, "Float") ∈ u.hashUses ∧
      RightFor d .float "Float" ∧ (.arrays, "Arrays") ∈ u.equalsUses ∧
      RightFor d .arrays "Arrays" ∧ "java.util.Arrays" ∈ u.imports := by
  intro d
  have hread : CompilationUnit.ofDescription d =
      .ok (CompilationUnit.ofTypes d [.array (.scalar .int), .scalar .float]) :=
    ofDescription_of_text (by decide) (by decide)
  obtain ⟨hhash, hequals, himport⟩ := spelled_right_iff hread
  refine ⟨_, hread, by decide, hhash .float "Float" (by decide) (by decide) (by decide),
    by decide, (hequals .arrays "Arrays" (.inl (by decide))).2 (by decide) (by decide), ?_⟩
  exact (himport .arrays "Arrays" (.inr (by decide)) rfl (by decide)).resolve_right (by decide)

/-- In a class called `java` the bodies use names that start with `java`, although the simple ones
would be right. -/
theorem spelled_wrong_class_java :
    let d : Description := ⟨"", "java", "", [⟨"x", "float", ""⟩, ⟨"y", "int[]", ""⟩]⟩
    ∃ u, CompilationUnit.ofDescription d = .ok u ∧ (d.fields.map (·.name)).Nodup ∧
      (.float, "java.lang.Float") ∈ u.equalsUses ∧ RightFor d .float "Float" ∧
      ¬RightFor d .float "java.lang.Float" ∧
      (.arrays, "java.util.Arrays") ∈ u.hashUses ∧ (.arrays, "java.util.Arrays") ∈ u.equalsUses ∧
      RightFor d .arrays "Arrays" ∧ ¬RightFor d .arrays "java.util.Arrays" := by
  intro d
  have hread : CompilationUnit.ofDescription d =
      .ok (CompilationUnit.ofTypes d [.scalar .float, .array (.scalar .int)]) :=
    ofDescription_of_text (by decide) (by decide)
  exact ⟨_, hread, by decide⟩

end ValueClass.Java
