import ValueClass.Proofs.LibraryNames
import ValueClass.Proofs.Lists

/-!
# Why a class is imported

The imports of a unit come from the claims for simple names. The class itself and what its methods
name in any case claim first and need no import, so each import goes back to a name in the types of
the fields, or to the claim for `Arrays`.

* `mem_hashUses_of_array`, `mem_equalsUses_of_array`: both methods name `Arrays` if there is an
  array among the members.
* `claimed_of_owner?`: **where the owner of a simple name comes from**, if it needs an import.
* `CompilationUnit.Needed`: what an import has to be.
* `imports_needed`: **every import is needed, and no two imports have one simple name.**
-/

namespace ValueClass.Java

variable {d : Description} {types : List FieldType} {u : CompilationUnit} {m : Member}
  {package simple : String}

/-! ## Where `Arrays` is named -/

theorem addStatement_mem {members : List Member} (h : m ∈ members) (library : LibrarySpelling)
    (field : String → Expr) (declared : Bool) :
    addStatement library field m ∈ addingStatements library field declared members := by
  induction members generalizing declared with
  | nil => cases h
  | cons other rest ih =>
    simp only [addingStatements]
    rcases List.mem_cons.1 h with rfl | hrest
    · split <;> simp
    · split <;> simp [ih hrest]

theorem mem_hashUses_of_array (hm : m ∈ u.members) (harray : m.type.element?.isSome = true) :
    (.arrays, u.library.arrays) ∈ u.hashUses := by
  have hstatement : addStatement u.library (fieldIn hashVariables) m ∈
      hashStatements u.library u.members := by
    simp [hashStatements, hashBody, addStatement_mem hm]
  have huses : (addStatement u.library (fieldIn hashVariables) m).uses =
      (contribution u.library m.type (fieldIn hashVariables m.name)).uses := rfl
  refine List.mem_flatMap.2 ⟨_, hstatement, ?_⟩
  rw [huses, uses_contribution u.library m.type (uses_fieldIn hashVariables m.name)]
  cases htype : m.type <;> simp [htype, FieldType.element?] at harray ⊢

theorem mem_equalsUses_of_array (hm : m ∈ u.members) (harray : m.type.element?.isSome = true) :
    (.arrays, u.library.arrays) ∈ u.equalsUses := by
  rw [CompilationUnit.equalsUses, equalsResult, comparisonOfAll, uses_conjunction,
    List.flatMap_map, List.mem_flatMap]
  refine ⟨m, hm, ?_⟩
  rw [uses_comparison u.library (uses_fieldIn equalsVariables m.name) m]
  cases htype : m.type <;> simp [htype, FieldType.element?] at harray ⊢

/-! ## Where an owner comes from -/

/-- **Where the owner of a simple name comes from**, if it needs an import: neither from the class
nor from what its methods name in any case, so a field claimed the name. -/
theorem claimed_of_owner? (howner : (scopeOf d types).owner? simple = some package)
    (hneeds : (scopeOf d types).needsImport package = true) :
    simple ≠ d.name ∧ simple ∉ methodNames ∧
      ∃ c ∈ fieldClaims d types, c.package = package ∧ c.topLevel = simple := by
  obtain ⟨-, himplicit, hown⟩ := (needsImport_scopeOf package).1 hneeds
  have hcases := owner?_scopeOf_cases d types simple
  rw [howner] at hcases
  -- the owners that claim before the fields do need no import
  have hname : simple ≠ d.name := by
    intro hname
    rw [if_pos hname, Option.some.injEq] at hcases
    exact hown hcases
  have hmethod : simple ∉ methodNames := by
    intro hmethod
    rw [if_neg hname, if_pos hmethod, Option.some.injEq] at hcases
    exact himplicit hcases
  rw [if_neg hname, if_neg hmethod] at hcases
  obtain ⟨c, hfind, hpackage⟩ := Option.map_eq_some_iff.1 hcases.symm
  have htop := List.find?_some hfind
  rw [beq_iff_eq] at htop
  exact ⟨hname, hmethod, c, List.mem_of_find?_eq_some hfind, hpackage, htop⟩

/-- The type of some member has a name with the given package and outermost class, and it is written
without the package. -/
def CompilationUnit.WritesShort (u : CompilationUnit) (s : Scope) (package simple : String) :
    Prop :=
  ∃ m ∈ u.members, m.spelled = s.typeText m.type ∧ ∃ name ∈ m.type.names, ∃ c,
    ClassName.guess? name = some c ∧ c.package = package ∧ c.topLevel = simple ∧
      s.spelling name = c.short ∧ name = package ++ "." ++ s.spelling name

/-- Both methods name `Arrays`, by its simple name and in no other way. -/
def CompilationUnit.NamesSimpleArrays (u : CompilationUnit) : Prop :=
  (.arrays, "Arrays") ∈ u.hashUses ∧ (.arrays, "Arrays") ∈ u.equalsUses ∧
    ∀ spelled, (.arrays, spelled) ∈ u.hashUses ∨ (.arrays, spelled) ∈ u.equalsUses →
      spelled = "Arrays"

/-- **What an import has to be.** Its class is in sight in no other way, its simple name is taken
neither by the class that the unit declares nor by those that all methods name, and the unit uses
it: in the type of a field, or in the bodies of the methods. -/
structure CompilationUnit.Needed (u : CompilationUnit) (s : Scope) (package simple : String) :
    Prop where
  package_ne_empty : package ≠ ""
  package_ne_implicit : package ≠ implicitPackage
  package_ne_own : package ≠ u.package
  simple_ne_name : simple ≠ u.name
  simple_not_mem : simple ∉ methodNames
  used : u.WritesShort s package simple ∨
    package = "java.util" ∧ simple = "Arrays" ∧ u.NamesSimpleArrays

/-- A name of which the package owns the outermost class is written without it. -/
theorem spelling_of_owner? {s : Scope} {name : String} {c : ClassName}
    (hguess : ClassName.guess? name = some c) (hpackage : c.package ≠ "")
    (howner : s.owner? c.topLevel = some c.package) :
    s.spelling name = c.short ∧ name = c.package ++ "." ++ s.spelling name := by
  have hshort : s.spelling name = c.short := by
    have howns : s.owns c.package c.topLevel = true := beq_iff_eq.2 howner
    simp only [Scope.spelling, hguess, howns, if_true]
  have hname := ClassName.eq_of_guess? hguess
  rw [if_neg hpackage] at hname
  exact ⟨hshort, by rw [hshort]; exact hname⟩

section Unit

variable (h : CompilationUnit.ofDescription d = .ok u)

include h

theorem exists_member_of_type {type : FieldType} (htype : type ∈ u.members.map (·.type)) :
    ∃ m ∈ u.members, m.type = type ∧
      m.spelled = (scopeOf d (u.members.map (·.type))).typeText type := by
  obtain ⟨-, hmembers⟩ := members_of_ofDescription h
  have hspelled : ∀ m ∈ u.members,
      m.spelled = (scopeOf d (u.members.map (·.type))).typeText m.type :=
    forall_mem_right_of_forall₂ hmembers fun _ _ _ hm => hm.2.2
  obtain ⟨m, hm, rfl⟩ := List.mem_map.1 htype
  exact ⟨m, hm, rfl, hspelled m hm⟩

/-- The claim for `Arrays` was made for the methods, which name it so. -/
theorem namesSimpleArrays_of_wants
    (hwants : wantsSimpleArrays d (u.members.map (·.type)) = true) (hname : "Arrays" ≠ d.name) :
    u.NamesSimpleArrays := by
  obtain ⟨hunit, -⟩ := members_of_ofDescription h
  have hsimple : simpleArrays d (u.members.map (·.type)) = true :=
    simpleArrays_eq_true_iff.2 ⟨hwants, fun hsame => absurd hsame.symm hname⟩
  have hspelled : u.library.arrays = "Arrays" := by
    rw [hunit]
    exact if_pos hsimple
  have harray : (u.members.map (·.type)).any (·.element?.isSome) = true := by
    simp only [wantsSimpleArrays, Bool.and_eq_true] at hwants
    exact hwants.1.2
  obtain ⟨type, htype, hsome⟩ := List.any_eq_true.1 harray
  obtain ⟨m, hm, rfl⟩ := List.mem_map.1 htype
  refine ⟨?_, ?_, fun spelled huse => ?_⟩
  · rw [← hspelled]
    exact mem_hashUses_of_array hm hsome
  · rw [← hspelled]
    exact mem_equalsUses_of_array hm hsome
  · rw [← hspelled]
    rcases huse with huse | huse
    · exact (arrays_of_spelledAs (spelledAs_of_mem_hashUses huse)).1
    · exact (arrays_of_spelledAs (spelledAs_of_mem_equalsUses huse)).1

/-- **A class of which the package owns the simple name and needs an import is needed.** -/
theorem needed_of_owner?
    (howner : (scopeOf d (u.members.map (·.type))).owner? simple = some package)
    (hneeds : (scopeOf d (u.members.map (·.type))).needsImport package = true) :
    u.Needed (scopeOf d (u.members.map (·.type))) package simple := by
  obtain ⟨hunit, -⟩ := members_of_ofDescription h
  have hpackage : u.package = d.package := congrArg CompilationUnit.package hunit
  have hname : u.name = d.name := congrArg CompilationUnit.name hunit
  obtain ⟨hempty, himplicit, hown⟩ := (needsImport_scopeOf package).1 hneeds
  obtain ⟨hne, hmethod, c, hclaim, rfl, rfl⟩ := claimed_of_owner? howner hneeds
  refine ⟨hempty, himplicit, hpackage ▸ hown, hname ▸ hne, hmethod, ?_⟩
  -- the name was claimed for the methods, or for a type
  rcases List.mem_append.1 hclaim with harrays | hnames
  · right
    split at harrays
    · rename_i hwants
      obtain rfl := List.mem_singleton.1 harrays
      exact ⟨rfl, rfl, namesSimpleArrays_of_wants h hwants hne⟩
    · cases harrays
  · left
    obtain ⟨name, hmem, hguess⟩ := List.mem_filterMap.1 hnames
    obtain ⟨type, htype, hname⟩ := List.mem_flatMap.1 hmem
    obtain ⟨m, hm, rfl, hspelled⟩ := exists_member_of_type h htype
    exact ⟨m, hm, hspelled, name, hname, c, hguess, rfl, rfl,
      spelling_of_owner? hguess hempty howner⟩

end Unit

/-! ## The imports -/

/-- **Every import is needed, and no two imports have one simple name.** -/
theorem imports_needed (h : CompilationUnit.ofDescription d = .ok u) :
    (∀ qualified ∈ u.imports, ∃ package simple, qualified = package ++ "." ++ simple ∧
      '.' ∉ simple.toList ∧ u.Needed (scopeOf d (u.members.map (·.type))) package simple) ∧
    u.imports.Nodup ∧
    ∀ package other simple, '.' ∉ simple.toList → package ++ "." ++ simple ∈ u.imports →
      other ++ "." ++ simple ∈ u.imports → package = other := by
  obtain ⟨hunit, -⟩ := members_of_ofDescription h
  have himports : u.imports = (scopeOf d (u.members.map (·.type))).imports :=
    congrArg CompilationUnit.imports hunit
  refine ⟨fun qualified hmem => ?_, ?_, fun package other simple hdot hmem hother => ?_⟩
  · rw [himports, Scope.mem_imports_iff (distinct_scopeOf d _)] at hmem
    obtain ⟨package, simple, howner, hneeds, rfl⟩ := hmem
    have hneeded := needed_of_owner? h howner hneeds
    have hdot := dot_not_mem_of_owner? (claimed_of_owner? howner hneeds).1 howner
    exact ⟨package, simple, rfl, hdot, hneeded⟩
  · rw [himports]
    exact nodup_eraseDups _
  · rw [himports, mem_imports_scopeOf_iff hdot] at hmem hother
    exact Option.some.inj (hmem.1.symm.trans hother.1)

/-- A class, the outermost class of a nested one and `Arrays` are imported, and of two classes with
one name only the first. -/
theorem imports_needed_grid :
    let d : Description := ⟨"geo", "Grid", "", [⟨"java", "int[]", ""⟩,
      ⟨"cells", "java.util.Map.Entry<com.a.Item, com.b.Item>", ""⟩]⟩
    ∃ u, CompilationUnit.ofDescription d = .ok u ∧ "java.util" ++ "." ++ "Arrays" ∈ u.imports ∧
      "java.util" ++ "." ++ "Map" ∈ u.imports ∧ "com.a" ++ "." ++ "Item" ∈ u.imports ∧
      (∀ qualified ∈ u.imports, ∃ package simple, qualified = package ++ "." ++ simple ∧
        '.' ∉ simple.toList ∧ u.Needed (scopeOf d (u.members.map (·.type))) package simple) ∧
      ∀ package, package ++ "." ++ "Item" ∈ u.imports → package = "com.a" := by
  intro d
  let types : List FieldType := [.array (.scalar .int), .reference "java.util.Map.Entry"
    [.reference "com.a.Item" [], .reference "com.b.Item" []]]
  have hread : CompilationUnit.ofDescription d = .ok (CompilationUnit.ofTypes d types) :=
    ofDescription_of_text (by decide) (by decide)
  have hitem : "com.a" ++ "." ++ "Item" ∈ (scopeOf d types).imports :=
    (mem_imports_scopeOf_iff (by decide)).2 (by decide +kernel)
  obtain ⟨hneeded, -, hone⟩ := imports_needed hread
  refine ⟨_, hread, (mem_imports_scopeOf_iff (by decide)).2 (by decide +kernel),
    (mem_imports_scopeOf_iff (by decide)).2 (by decide +kernel), hitem, hneeded, ?_⟩
  exact fun package hmem => hone package "com.a" "Item" (by decide) hmem hitem

end ValueClass.Java
