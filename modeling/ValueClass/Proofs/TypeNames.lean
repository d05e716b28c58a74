import ValueClass.Proofs.Ownership
import ValueClass.Proofs.Renaming

/-!
# Names in the types of a unit

A unit writes the types of its fields with their names as short as its scope allows.

* `spelling_injective`: **qualified names that differ are written differently.**
* `denotes_of_owner?`: a simple name stands for the class of the package that owns it.
* `read_spelled_faithful`: **the types of a unit, read again, are the declared ones**, and every
  qualified name stands for the class it names.
* `not_imported_iff`: when no import gives another meaning to an unqualified name, which depends on
  the order of the fields.
-/

namespace ValueClass.Java

/-! ## How a scope writes names -/

/-- The name has no package, by what can be told from it. -/
def IsUnqualified (name : String) : Prop :=
  ∃ c, ClassName.guess? name = some c ∧ c.package = ""

namespace Scope

/-- **A name is written as it is, or without the package that owns it.** -/
theorem spelling_cases (s : Scope) (name : String) :
    s.spelling name = name ∨ ∃ c, ClassName.guess? name = some c ∧ c.package ≠ "" ∧
      s.spelling name = c.short ∧ s.owner? c.topLevel = some c.package := by
  unfold spelling
  split
  · rename_i c hguess
    split
    · rename_i howns
      by_cases hpackage : c.package = ""
      · have hname := ClassName.eq_of_guess? hguess
        rw [if_pos hpackage] at hname
        exact .inl hname.symm
      · exact .inr ⟨c, hguess, hpackage, rfl, beq_iff_eq.1 howns⟩
    · exact .inl rfl
  · exact .inl rfl

theorem keepsNames_spelling (s : Scope) : KeepsNames s.spelling where
  outer {_ name} hname := by
    rcases s.spelling_cases name with hsame | ⟨c, hguess, -, hshort, -⟩
    · rwa [hsame]
    · rw [hshort]
      exact ClassName.isOuterName_short hguess hname
  plain {_ name} hname := by
    rcases s.spelling_cases name with hsame | ⟨c, hguess, -, hshort, -⟩
    · rwa [hsame]
    · rw [hshort]
      exact ClassName.isPlainName_short hguess hname

/-- **Qualified names that differ are written differently.** -/
theorem spelling_injective {s : Scope} {a b : String} (ha : ¬IsUnqualified a)
    (hb : ¬IsUnqualified b) (h : s.spelling a = s.spelling b) : a = b := by
  rcases s.spelling_cases a with hsame | ⟨c, hguess, hpackage, hshort, howner⟩ <;>
    rcases s.spelling_cases b with hsame' | ⟨c', hguess', hpackage', hshort', howner'⟩
  · rw [← hsame, h, hsame']
  · -- what is written without its package has none to be told
    refine absurd (⟨{ c' with package := "" }, ?_, rfl⟩ : IsUnqualified a) ha
    rw [← hsame, h, hshort']
    exact ClassName.guess?_short hguess'
  · refine absurd (⟨{ c with package := "" }, ?_, rfl⟩ : IsUnqualified b) hb
    rw [← hsame', ← h, hshort]
    exact ClassName.guess?_short hguess
  · have hshorts : c.short = c'.short := by rw [← hshort, h, hshort']
    have hparts := ClassName.guess?_short hguess
    rw [hshorts, ClassName.guess?_short hguess', Option.some.injEq, ClassName.mk.injEq] at hparts
    -- of one simple name there is one owner
    rw [hparts.2.1, howner, Option.some.injEq] at howner'
    rw [ClassName.eq_of_guess? hguess, ClassName.eq_of_guess? hguess', if_neg hpackage,
      if_neg hpackage', hshorts, howner']

end Scope

/-! ## What names stand for in a unit -/

/-- **In the unit, the simple name stands for the class of the package.** Either it is the one class
of this name that is imported, or none is, and the class is in sight without an import and is not
hidden by the class that the unit declares. -/
def CompilationUnit.Denotes (u : CompilationUnit) (package simple : String) : Prop :=
  (package ++ "." ++ simple ∈ u.imports ∧
      ∀ other, other ++ "." ++ simple ∈ u.imports → other = package) ∨
    ((∀ other, other ++ "." ++ simple ∉ u.imports) ∧
      (package = implicitPackage ∨ package = u.package) ∧
      (simple = u.name → package = u.package))

/-- Names are written by `write` in such a way that the types of the unit mean what their members
hold. -/
structure CompilationUnit.Faithful (u : CompilationUnit) (write : String → String) : Prop where
  read_spelled : ∀ m ∈ u.members, FieldType.read m.spelled = .ok (m.type.rename write)
  of_guess_none : ∀ name, ClassName.guess? name = none → write name = name
  of_guess_some : ∀ name c, ClassName.guess? name = some c →
    write name = name ∨
      c.package ≠ "" ∧ name = c.package ++ "." ++ write name ∧ u.Denotes c.package c.topLevel
  injective : ∀ a b, ¬IsUnqualified a → ¬IsUnqualified b → write a = write b → a = b

variable {d : Description} {types : List FieldType} {u : CompilationUnit}

/-- **A simple name stands for the class of the package that owns it.** -/
theorem denotes_of_owner? {package simple : String} (hdot : '.' ∉ simple.toList)
    (hpackage : package ≠ "") (h : (scopeOf d types).owner? simple = some package) :
    (CompilationUnit.ofTypes d types).Denotes package simple := by
  have howner : ∀ other, other ++ "." ++ simple ∈ (scopeOf d types).imports → other = package := by
    intro other hmem
    have hother := ((mem_imports_scopeOf_iff hdot).1 hmem).1
    rw [h] at hother
    exact (Option.some.inj hother).symm
  by_cases hneeds : (scopeOf d types).needsImport package = true
  · exact .inl ⟨(mem_imports_scopeOf_iff hdot).2 ⟨h, hneeds⟩, howner⟩
  · refine .inr ⟨fun other hmem => ?_, ?_, ?_⟩
    · rw [howner other hmem] at hmem
      exact hneeds ((mem_imports_scopeOf_iff hdot).1 hmem).2
    · rw [needsImport_scopeOf] at hneeds
      by_contra hnot
      exact hneeds ⟨hpackage, fun h => hnot (.inl h), fun h => hnot (.inr h)⟩
    · rintro rfl
      have hown : some d.package = some package := (owner?_scopeOf_name d types).symm.trans h
      exact (Option.some.inj hown).symm

/-! ## The members of a unit -/

/-- A class is accepted if the descriptors of its fields are normal forms of plain types. -/
theorem ofDescription_of_text (hplain : ∀ type ∈ types, type.Plain)
    (h : d.fields.map (·.descriptor) = types.map (·.text)) :
    CompilationUnit.ofDescription d = .ok (CompilationUnit.ofTypes d types) := by
  refine map_eq_ok_iff.2 ⟨types, readAll_eq_ok_iff.2 ?_, rfl⟩
  have hchars : d.fields.map (·.descriptor.toList) = types.map (·.text.toList) := by
    simpa [Function.comp_def] using congrArg (List.map String.toList) h
  rw [hchars, List.forall₂_map_left_iff, List.forall₂_same]
  exact fun type hmem => read_text (hplain type hmem).legible

/-- The members of an accepted class have the types of its fields, in its scope. -/
theorem members_of_ofDescription (h : CompilationUnit.ofDescription d = .ok u) :
    u = CompilationUnit.ofTypes d (u.members.map (·.type)) ∧
      List.Forall₂ (fun field m => m.name = field.name ∧
          FieldType.read field.descriptor = .ok m.type ∧
          m.spelled = (scopeOf d (u.members.map (·.type))).typeText m.type) d.fields u.members := by
  obtain ⟨types, hread, rfl⟩ := map_eq_ok_iff.1 h
  rw [readAll_eq_ok_iff, List.forall₂_map_left_iff] at hread
  have htypes : (CompilationUnit.ofTypes d types).members.map (·.type) = types :=
    map_zipWith_of_forall₂ hread fun _ _ => rfl
  rw [htypes]
  exact ⟨rfl, forall₂_zipWith hread fun _ _ hfield => ⟨rfl, hfield, rfl⟩⟩

/-- **The types of a unit, read again, are the declared ones** with names that stand for the same
classes. -/
theorem read_spelled_faithful (h : CompilationUnit.ofDescription d = .ok u) :
    List.Forall₂ (fun field m => m.name = field.name ∧
        FieldType.read field.descriptor = .ok m.type) d.fields u.members ∧
      ∃ write, u.Faithful write := by
  obtain ⟨hunit, hmembers⟩ := members_of_ofDescription h
  generalize u.members.map (·.type) = types at hunit hmembers
  refine ⟨hmembers.imp fun _ _ hm => ⟨hm.1, hm.2.1⟩, (scopeOf d types).spelling, ?_, ?_, ?_, ?_⟩
  · refine forall_mem_right_of_forall₂ hmembers fun field _ m hm => ?_
    obtain ⟨-, hread, hspelled⟩ := hm
    have hlegible : m.type.Legible := (readChars_eq_ok_iff.1 hread).1
    rw [hspelled]
    exact read_spell (Scope.keepsNames_spelling _) hlegible
  · intro name hnone
    rcases (scopeOf d types).spelling_cases name with hsame | ⟨c, hguess, -⟩
    · exact hsame
    · rw [hnone] at hguess
      cases hguess
  · intro name c hguess
    rcases (scopeOf d types).spelling_cases name with
      hsame | ⟨found, hfound, hpackage, hshort, howner⟩
    · exact .inl hsame
    · rw [hguess] at hfound
      cases hfound
      have hname := ClassName.eq_of_guess? hguess
      rw [if_neg hpackage] at hname
      refine .inr ⟨hpackage, by rw [hshort, ← hname], ?_⟩
      rw [hunit]
      exact denotes_of_owner? (ClassName.dot_not_mem_topLevel hguess) hpackage howner
  · exact fun _ _ => Scope.spelling_injective

/-- Two classes of one name, a class of the language, one of the same package, and one with the name
of the class itself. -/
theorem read_spelled_faithful_clashes :
    let d : Description := ⟨"geo", "Shape", "",
      [⟨"items", "java.util.Map<com.a.Item, com.b.Item[]>", ""⟩, ⟨"name", "java.lang.String", ""⟩,
        ⟨"inner", "geo.Point.Inner", ""⟩, ⟨"other", "com.c.Shape", ""⟩]⟩
    ∃ u, CompilationUnit.ofDescription d = .ok u ∧
      u.members.map (·.spelled)
        = ["Map<Item, com.b.Item[]>", "String", "Point.Inner", "com.c.Shape"] ∧
      List.Forall₂ (fun field m => m.name = field.name ∧
        FieldType.read field.descriptor = .ok m.type) d.fields u.members ∧
      ∃ write, u.Faithful write := by
  intro d
  have hread : CompilationUnit.ofDescription d = .ok (CompilationUnit.ofTypes d
      [.reference "java.util.Map" [.reference "com.a.Item" [], .array (.reference "com.b.Item" [])],
        .reference "java.lang.String" [], .reference "geo.Point.Inner" [],
        .reference "com.c.Shape" []]) :=
    ofDescription_of_text (by decide) (by decide)
  exact ⟨_, hread, by decide +kernel, read_spelled_faithful hread⟩

/-! ## Unqualified names -/

/-- The simple name is the outermost class of an unqualified name in the types of the unit. -/
def CompilationUnit.NamesUnqualified (u : CompilationUnit) (simple : String) : Prop :=
  ∃ m ∈ u.members, ∃ name ∈ m.type.names, ∃ c,
    ClassName.guess? name = some c ∧ c.package = "" ∧ c.topLevel = simple

/-- The first to claim the simple name can be seen without an import: the class itself, a class that
all methods name, or the first class of this name in the types of the fields. -/
def ClaimedInSight (d : Description) (types : List FieldType) (simple : String) : Prop :=
  simple = d.name ∨ simple ∈ methodNames ∨
    ∃ first, (fieldClaims d types).find? (·.topLevel == simple) = some first ∧
      (first.package = "" ∨ first.package = implicitPackage ∨ first.package = d.package)

/-- The first class of the fields that claims a name, where some class does. -/
theorem exists_find?_of_namesUnqualified {simple : String} (h : u.NamesUnqualified simple)
    (d : Description) :
    ∃ first,
      (fieldClaims d (u.members.map (·.type))).find? (·.topLevel == simple) = some first := by
  obtain ⟨m, hm, name, hname, c, hguess, -, rfl⟩ := h
  have hnames : name ∈ (u.members.map (·.type)).flatMap FieldType.names :=
    List.mem_flatMap.2 ⟨m.type, List.mem_map_of_mem hm, hname⟩
  have hclaim : c ∈ fieldClaims d (u.members.map (·.type)) :=
    List.mem_append_right _ (List.mem_filterMap.2 ⟨name, hnames, hguess⟩)
  exact Option.isSome_iff_exists.1 (List.find?_isSome.2 ⟨c, hclaim, beq_self_eq_true _⟩)

/-- **No import gives another meaning to an unqualified name exactly if the first to claim it can be
seen without an import.** -/
theorem not_imported_iff (h : CompilationUnit.ofDescription d = .ok u) {simple : String}
    (hsimple : u.NamesUnqualified simple) :
    (∀ package, package ++ "." ++ simple ∉ u.imports) ↔
      ClaimedInSight d (u.members.map (·.type)) simple := by
  obtain ⟨hunit, -⟩ := members_of_ofDescription h
  obtain ⟨first, hfirst⟩ := exists_find?_of_namesUnqualified hsimple d
  obtain ⟨m, hm, name, hname, c, hguess, -, rfl⟩ := hsimple
  have hdot := ClassName.dot_not_mem_topLevel hguess
  generalize u.members.map (·.type) = types at hunit hfirst ⊢
  have himports : u.imports = (scopeOf d types).imports := by
    rw [hunit]
    rfl
  have howner := owner?_scopeOf_cases d types c.topLevel
  rw [himports, ClaimedInSight, hfirst]
  simp only [mem_imports_scopeOf_iff hdot, needsImport_scopeOf, howner, hfirst]
  -- the class itself and its methods come first, and need no import
  by_cases hown : c.topLevel = d.name
  · simp [hown]
  by_cases hmethod : c.topLevel ∈ methodNames
  · simp [hown, hmethod]
  simp only [hown, hmethod, if_false, false_or, Option.map_some, Option.some.injEq]
  constructor
  · intro hnot
    refine ⟨first, rfl, ?_⟩
    by_contra hsight
    simp only [not_or] at hsight
    exact hnot first.package ⟨rfl, hsight⟩
  · rintro ⟨_, rfl, hsight⟩ _ ⟨rfl, h1, h2, h3⟩
    exact hsight.elim h1 fun hsight => hsight.elim h2 h3

/-- An unqualified name inside type arguments keeps the class with a package from being imported. -/
theorem not_imported_unqualified_first :
    let d : Description := ⟨"geo", "Shape", "",
      [⟨"parts", "List<Item.Part[]>", ""⟩, ⟨"item", "com.b.Item", ""⟩]⟩
    ∃ u, CompilationUnit.ofDescription d = .ok u ∧ u.NamesUnqualified "Item" ∧
      ∀ package, package ++ "." ++ "Item" ∉ u.imports := by
  intro d
  have hread : CompilationUnit.ofDescription d = .ok (CompilationUnit.ofTypes d
      [.reference "List" [.array (.reference "Item.Part" [])], .reference "com.b.Item" []]) :=
    ofDescription_of_text (by decide) (by decide)
  have hguess : ClassName.guess? "Item.Part" = some ⟨"", "Item", "Part"⟩ := by decide +kernel
  have hunqualified : (CompilationUnit.ofTypes d
      [.reference "List" [.array (.reference "Item.Part" [])],
        .reference "com.b.Item" []]).NamesUnqualified "Item" :=
    ⟨_, List.mem_cons_self, "Item.Part", by decide, _, hguess, rfl, rfl⟩
  refine ⟨_, hread, hunqualified, (not_imported_iff hread hunqualified).2 ?_⟩
  exact .inr (.inr ⟨⟨"", "Item", "Part"⟩, by decide +kernel, .inl rfl⟩)

/-- In the other order the class is imported, and both fields are written with its name. -/
theorem imported_qualified_first :
    let d : Description := ⟨"", "A", "", [⟨"a", "com.b.Item", ""⟩, ⟨"b", "Item", ""⟩]⟩
    ∃ u, CompilationUnit.ofDescription d = .ok u ∧ u.NamesUnqualified "Item" ∧
      "com.b" ++ "." ++ "Item" ∈ u.imports ∧ u.members.map (·.spelled) = ["Item", "Item"] := by
  intro d
  have hread : CompilationUnit.ofDescription d = .ok (CompilationUnit.ofTypes d
      [.reference "com.b.Item" [], .reference "Item" []]) :=
    ofDescription_of_text (by decide) (by decide)
  have hguess : ClassName.guess? "Item" = some ⟨"", "Item", ""⟩ := by decide +kernel
  have hunqualified : (CompilationUnit.ofTypes d
      [.reference "com.b.Item" [], .reference "Item" []]).NamesUnqualified "Item" :=
    ⟨_, List.mem_cons_of_mem _ List.mem_cons_self, "Item", by decide, _, hguess, rfl, rfl⟩
  refine ⟨_, hread, hunqualified, ?_, by decide +kernel⟩
  exact (mem_imports_scopeOf_iff (by decide)).2 ⟨by decide +kernel, by decide +kernel⟩

end ValueClass.Java
