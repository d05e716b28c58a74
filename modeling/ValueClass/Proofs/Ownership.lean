import ValueClass.Java.Unit
import ValueClass.Proofs.ClassName

/-!
# Owners of simple names

A simple name belongs to the first package that claims it, and whatever claims it later changes
nothing.

* `owner?_claimAll`: **the owner of a name is the first to claim it.**
* `mem_imports_iff`: the imports are the names of which the owner needs one.
* `unitClaims`: the claims of a unit in their order, and `scopeOf_eq`, that its scope is made by
  them.
* `owner?_scopeOf_cases`: the owner of each name in the scope of a unit.
* `mem_imports_scopeOf_iff`: a class is imported exactly if its package owns its name and needs an
  import.
-/

namespace ValueClass.Java

open Text

namespace Scope

/-! ## Claims one after the other -/

/-- The scope after several classes asked for their names. -/
def claimAll (s : Scope) (claims : List ClassName) : Scope :=
  claims.foldl (fun s c => s.claim c.package c.topLevel) s

theorem claimAll_append (s : Scope) (as bs : List ClassName) :
    s.claimAll (as ++ bs) = (s.claimAll as).claimAll bs :=
  List.foldl_append

@[simp] theorem package_claim (s : Scope) (package simple : String) :
    (s.claim package simple).package = s.package := by
  unfold claim
  split <;> rfl

@[simp] theorem package_claimAll (s : Scope) (claims : List ClassName) :
    (s.claimAll claims).package = s.package := by
  induction claims generalizing s with
  | nil => rfl
  | cons c claims ih => exact (ih _).trans (package_claim s _ _)

theorem owner?_claim (s : Scope) (package simple other : String) :
    (s.claim package simple).owner? other
      = (s.owner? other).or (if other = simple then some package else none) := by
  have hone : [(simple, package)].lookup other = if other = simple then some package else none := by
    by_cases h : other = simple
    · rw [if_pos h, h, List.lookup_cons_self]
    · rw [if_neg h, List.lookup_cons, beq_eq_false_iff_ne.2 h]
      rfl
  unfold claim
  split
  · rename_i owner howner
    by_cases h : other = simple
    · rw [h, howner, Option.some_or]
    · rw [if_neg h, Option.or_none]
  · rw [owner?, List.lookup_append, hone, owner?]

/-- **The owner of a name is the first to claim it.** -/
theorem owner?_claimAll (s : Scope) (claims : List ClassName) (simple : String) :
    (s.claimAll claims).owner? simple
      = (s.owner? simple).or ((claims.find? (·.topLevel == simple)).map (·.package)) := by
  induction claims generalizing s with
  | nil => exact Option.or_none.symm
  | cons c claims ih =>
    have hrest := ih (s.claim c.package c.topLevel)
    rw [owner?_claim, Option.or_assoc] at hrest
    refine hrest.trans (congrArg (s.owner? simple).or ?_)
    by_cases h : simple = c.topLevel
    · simp [h]
    · have hne : (c.topLevel == simple) = false := beq_eq_false_iff_ne.2 (Ne.symm h)
      rw [if_neg h, Option.none_or, List.find?_cons, hne]

/-- Each simple name has one owner. -/
def Distinct (s : Scope) : Prop :=
  (s.owners.map (·.1)).Nodup

theorem distinct_claim {s : Scope} (h : s.Distinct) (package simple : String) :
    (s.claim package simple).Distinct := by
  unfold claim
  split
  · exact h
  · rename_i hnone
    rw [owner?, List.lookup_eq_none_iff] at hnone
    rw [Distinct, List.map_append, List.map_singleton, List.nodup_append]
    refine ⟨h, List.pairwise_singleton _ simple, ?_⟩
    rintro _ hmem _ hsimple rfl
    obtain ⟨entry, hentry, rfl⟩ := List.mem_map.1 hmem
    rw [List.mem_singleton] at hsimple
    exact bne_iff_ne.1 (hnone entry hentry) hsimple.symm

theorem distinct_claimAll {s : Scope} (h : s.Distinct) (claims : List ClassName) :
    (s.claimAll claims).Distinct := by
  induction claims generalizing s with
  | nil => exact h
  | cons c claims ih => exact ih (distinct_claim h c.package c.topLevel)

theorem mem_owners_iff {s : Scope} (h : s.Distinct) {simple package : String} :
    (simple, package) ∈ s.owners ↔ s.owner? simple = some package := by
  rw [owner?, List.lookup_eq_some_iff]
  constructor
  · intro hmem
    obtain ⟨before, after, howners⟩ := List.append_of_mem hmem
    refine ⟨before, after, howners, fun entry hentry => bne_iff_ne.2 ?_⟩
    rw [Distinct, howners, List.map_append, List.nodup_append] at h
    exact (h.2.2 entry.1 (List.mem_map_of_mem hentry) simple (by simp)).symm
  · rintro ⟨before, after, howners, -⟩
    rw [howners]
    simp

/-- **The imports are the names of which the owner needs one.** -/
theorem mem_imports_iff {s : Scope} (h : s.Distinct) {qualified : String} :
    qualified ∈ s.imports ↔ ∃ package simple, s.owner? simple = some package ∧
      s.needsImport package = true ∧ qualified = package ++ "." ++ simple := by
  rw [imports, List.mem_eraseDups, List.mem_mergeSort, List.mem_map]
  constructor
  · rintro ⟨⟨simple, package⟩, hmem, rfl⟩
    obtain ⟨howners, hneeds⟩ := List.mem_filter.1 hmem
    exact ⟨package, simple, (mem_owners_iff h).1 howners, hneeds, rfl⟩
  · rintro ⟨package, simple, howner, hneeds, rfl⟩
    exact ⟨(simple, package), List.mem_filter.2 ⟨(mem_owners_iff h).2 howner, hneeds⟩, rfl⟩

theorem claimName_eq (s : Scope) (name : String) :
    s.claimName name = s.claimAll (ClassName.guess? name).toList := by
  unfold claimName
  split <;> rename_i h <;> rw [h] <;> rfl

theorem foldl_claimType (s : Scope) (types : List FieldType) :
    types.foldl claimType s
      = s.claimAll ((types.flatMap FieldType.names).filterMap ClassName.guess?) := by
  have hnames : ∀ (names : List String) (s : Scope),
      names.foldl claimName s = s.claimAll (names.filterMap ClassName.guess?) := by
    intro names
    induction names with
    | nil => exact fun _ => rfl
    | cons name names ih =>
      intro s
      rw [List.foldl_cons, ih, claimName_eq, ← claimAll_append, List.filterMap_cons]
      cases ClassName.guess? name <;> rfl
  induction types generalizing s with
  | nil => rfl
  | cons type types ih =>
    rw [List.foldl_cons, ih, claimType, hnames, ← claimAll_append, List.flatMap_cons,
      List.filterMap_append]

end Scope

/-! ## The claims of a unit -/

/-- The claims for the class itself and for what its methods name in any case. -/
def ownClaims (d : Description) : List ClassName :=
  ⟨d.package, d.name, ""⟩ :: methodNames.map (⟨implicitPackage, ·, ""⟩)

/-- The claims for the fields: for `Arrays` if the methods want it, then for each name in the types,
in their order. -/
def fieldClaims (d : Description) (types : List FieldType) : List ClassName :=
  (if wantsSimpleArrays d types then [⟨"java.util", "Arrays", ""⟩] else [])
    ++ (types.flatMap FieldType.names).filterMap ClassName.guess?

/-- All claims of a unit, in their order. -/
def unitClaims (d : Description) (types : List FieldType) : List ClassName :=
  ownClaims d ++ fieldClaims d types

variable {d : Description} {types : List FieldType}

theorem ofClass_eq (package name : String) :
    Scope.ofClass package name = Scope.claimAll ⟨package, []⟩
      (⟨package, name, ""⟩ :: methodNames.map (⟨implicitPackage, ·, ""⟩)) :=
  rfl

/-- **The scope of a unit is made by its claims.** -/
theorem scopeOf_eq (d : Description) (types : List FieldType) :
    scopeOf d types = Scope.claimAll ⟨d.package, []⟩ (unitClaims d types) := by
  rw [unitClaims, ownClaims, fieldClaims, Scope.claimAll_append, ← ofClass_eq,
    Scope.claimAll_append, ← Scope.foldl_claimType, scopeOf]
  split <;> rfl

theorem owner?_scopeOf (d : Description) (types : List FieldType) (simple : String) :
    (scopeOf d types).owner? simple
      = ((unitClaims d types).find? (·.topLevel == simple)).map (·.package) := by
  rw [scopeOf_eq, Scope.owner?_claimAll]
  rfl

theorem package_scopeOf (d : Description) (types : List FieldType) :
    (scopeOf d types).package = d.package := by
  rw [scopeOf_eq, Scope.package_claimAll]

theorem distinct_scopeOf (d : Description) (types : List FieldType) :
    (scopeOf d types).Distinct := by
  have hstart : Scope.Distinct ⟨d.package, []⟩ := List.Pairwise.nil
  rw [scopeOf_eq]
  exact Scope.distinct_claimAll hstart _

/-- The class owns its own name. -/
theorem owner?_scopeOf_name (d : Description) (types : List FieldType) :
    (scopeOf d types).owner? d.name = some d.package := by
  rw [owner?_scopeOf, unitClaims, ownClaims, List.cons_append, List.find?_cons, beq_self_eq_true]
  rfl

theorem find?_methodNames (simple : String) :
    methodNames.find? (· == simple) = if simple ∈ methodNames then some simple else none := by
  split
  · rename_i hmem
    have hsome : (methodNames.find? (· == simple)).isSome = true :=
      List.find?_isSome.2 ⟨simple, hmem, beq_self_eq_true simple⟩
    obtain ⟨found, hfound⟩ := Option.isSome_iff_exists.1 hsome
    have hsame := List.find?_some hfound
    rw [beq_iff_eq] at hsame
    rw [hfound, hsame]
  · rename_i hmem
    refine List.find?_eq_none.2 fun other hother hsame => hmem ?_
    rwa [← beq_iff_eq.1 hsame]

/-- The owner of a name that neither the class nor its methods use is the first of the fields to
claim it. -/
theorem owner?_scopeOf_cases (d : Description) (types : List FieldType) (simple : String) :
    (scopeOf d types).owner? simple =
      if simple = d.name then some d.package
      else if simple ∈ methodNames then some implicitPackage
      else ((fieldClaims d types).find? (·.topLevel == simple)).map (·.package) := by
  by_cases hname : simple = d.name
  · rw [if_pos hname, hname, owner?_scopeOf_name]
  · have hne : (d.name == simple) = false := beq_eq_false_iff_ne.2 (Ne.symm hname)
    have hmethods : (methodNames.map (⟨implicitPackage, ·, ""⟩ : String → ClassName)).find?
        (·.topLevel == simple) = (methodNames.find? (· == simple)).map (⟨implicitPackage, ·, ""⟩) :=
      List.find?_map
    rw [if_neg hname, owner?_scopeOf, unitClaims, ownClaims, List.find?_append, List.find?_cons,
      hne]
    dsimp only
    rw [hmethods, find?_methodNames]
    split <;> rfl

theorem dot_not_mem_of_fieldClaims {c : ClassName} (h : c ∈ fieldClaims d types) :
    '.' ∉ c.topLevel.toList := by
  rcases List.mem_append.1 h with harrays | hnames
  · split at harrays
    · rw [List.mem_singleton.1 harrays]
      decide
    · cases harrays
  · obtain ⟨name, -, hguess⟩ := List.mem_filterMap.1 hnames
    exact ClassName.dot_not_mem_topLevel hguess

/-- Only the name of the class itself may hold a dot. -/
theorem dot_not_mem_of_owner? {package simple : String} (hne : simple ≠ d.name)
    (h : (scopeOf d types).owner? simple = some package) : '.' ∉ simple.toList := by
  rw [owner?_scopeOf] at h
  obtain ⟨c, hfind, -⟩ := Option.map_eq_some_iff.1 h
  have hsimple := List.find?_some hfind
  rw [beq_iff_eq] at hsimple
  subst hsimple
  rcases List.mem_append.1 (List.mem_of_find?_eq_some hfind) with hown | hfields
  · rcases List.mem_cons.1 hown with rfl | hmethods
    · exact absurd rfl hne
    · have hdotless : ∀ simple ∈ methodNames, '.' ∉ simple.toList := by decide
      obtain ⟨simple, hsimple, rfl⟩ := List.mem_map.1 hmethods
      exact hdotless simple hsimple
  · exact dot_not_mem_of_fieldClaims hfields

theorem needsImport_scopeOf (package : String) :
    (scopeOf d types).needsImport package = true ↔
      package ≠ "" ∧ package ≠ implicitPackage ∧ package ≠ d.package := by
  simp [Scope.needsImport, package_scopeOf, and_assoc]

/-- **A class is imported exactly if its package owns its name and needs an import.** -/
theorem mem_imports_scopeOf_iff {package simple : String} (hdot : '.' ∉ simple.toList) :
    package ++ "." ++ simple ∈ (scopeOf d types).imports ↔
      (scopeOf d types).owner? simple = some package ∧
        (scopeOf d types).needsImport package = true := by
  rw [Scope.mem_imports_iff (distinct_scopeOf d types)]
  constructor
  · rintro ⟨owner, name, howner, hneeds, heq⟩
    -- the classes of the unit's own package need no import
    have hname : name ≠ d.name := by
      rintro rfl
      rw [owner?_scopeOf_name] at howner
      cases howner
      simp [Scope.needsImport, package_scopeOf] at hneeds
    have hparts : (package.toList, simple.toList) = (owner.toList, name.toList) := by
      apply Option.some.inj
      rw [← cutLast_append_sep hdot package.toList,
        ← cutLast_append_sep (dot_not_mem_of_owner? hname howner) owner.toList]
      have hchars := congrArg String.toList heq
      simp only [String.toList_append, List.append_assoc] at hchars
      exact congrArg (cutLast '.') hchars
    obtain ⟨hpackage, hsimple⟩ := Prod.mk.inj hparts
    rw [String.toList_inj.1 hpackage, String.toList_inj.1 hsimple]
    exact ⟨howner, hneeds⟩
  · rintro ⟨howner, hneeds⟩
    exact ⟨package, simple, howner, hneeds, rfl⟩

end ValueClass.Java
