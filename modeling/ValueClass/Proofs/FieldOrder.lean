import Mathlib.Data.List.Nodup
import ValueClass.Java.Printer
import ValueClass.Proofs.Layout
import ValueClass.Proofs.TypeNames

/-!
# The order of fields

Simple names go to whoever asks first, so the order of the fields can decide how their types are
written. It decides nothing where no two classes in the types ask for one simple name.

* `find?_eq_of_perm`: the first of several that agree is the same in any order.
* `owner?_scopeOf_reordered`: **if no name is contested, its owner does not depend on the order.**
* `imports_eq_of_owner?`, `typeText_eq_of_owner?`: imports and types are written by the owners of
  names alone.
* `ofDescription_reordered`: fields that change places keep their types, and the unit its imports.
-/

namespace ValueClass.Java

/-! ## Scopes with the same owners -/

theorem mergeSort_eq_of_perm {as bs : List String} (h : as.Perm bs) :
    (as.mergeSort fun a b => !decide (b < a)) = bs.mergeSort fun a b => !decide (b < a) := by
  have hsorted : ((as.mergeSort fun a b => !decide (b < a)).Perm
      (bs.mergeSort fun a b => !decide (b < a))) :=
    (List.mergeSort_perm as _).trans (h.trans (List.mergeSort_perm bs _).symm)
  exact hsorted.eq_of_pairwise (fun _ _ _ _ => Std.le_antisymm) (pairwise_mergeSort_key id as)
    (pairwise_mergeSort_key id bs)

namespace Scope

variable {s t : Scope}

/-- Imports are told by the owners, whenever these got their names. -/
theorem imports_eq_of_owner? (hs : s.Distinct) (ht : t.Distinct) (hpackage : s.package = t.package)
    (howner : ∀ simple, s.owner? simple = t.owner? simple) : s.imports = t.imports := by
  have hperm : s.owners.Perm t.owners := by
    refine (List.perm_ext_iff_of_nodup (List.Nodup.of_map _ hs) (List.Nodup.of_map _ ht)).2 ?_
    rintro ⟨simple, package⟩
    rw [mem_owners_iff hs, mem_owners_iff ht, howner]
  have hneeds : s.needsImport = t.needsImport := by
    funext package
    rw [needsImport, hpackage, needsImport]
  unfold imports
  dsimp only
  rw [hneeds, mergeSort_eq_of_perm ((hperm.filter _).map _)]

theorem typeText_eq_of_owner? (howner : ∀ simple, s.owner? simple = t.owner? simple)
    (type : FieldType) : s.typeText type = t.typeText type := by
  have hspelling : s.spelling = t.spelling := by
    funext name
    unfold spelling owns
    simp only [howner]
  rw [typeText, hspelling, typeText]

end Scope

/-! ## Fields in another order -/

/-- The classes that the types name, at any depth. -/
def classesIn (types : List FieldType) : List ClassName :=
  (types.flatMap FieldType.names).filterMap ClassName.guess?

/-- **No simple name is contested**: of the classes that the types name, those with one outermost
class have one package. -/
def Uncontested (types : List FieldType) : Prop :=
  ∀ c ∈ classesIn types, ∀ e ∈ classesIn types, c.topLevel = e.topLevel → c.package = e.package

instance (types : List FieldType) : Decidable (Uncontested types) :=
  List.decidableBAll (fun c : ClassName => ∀ e ∈ classesIn types,
    c.topLevel = e.topLevel → c.package = e.package) (classesIn types)

variable {d : Description} {fields : List Field} {types others : List FieldType}

theorem hasField_reordered (h : d.fields.Perm fields) (name : String) :
    hasField { d with fields } name = hasField d name :=
  (List.Perm.any_eq h).symm

theorem wantsSimpleArrays_reordered (h : d.fields.Perm fields) (htypes : types.Perm others) :
    wantsSimpleArrays { d with fields } others = wantsSimpleArrays d types := by
  unfold wantsSimpleArrays
  rw [hasField_reordered h, hasField_reordered h, List.Perm.any_eq htypes]

/-- **If no name is contested, its owner does not depend on the order of the fields.** -/
theorem owner?_scopeOf_reordered (h : d.fields.Perm fields) (htypes : types.Perm others)
    (huncontested : Uncontested types) (simple : String) :
    (scopeOf d types).owner? simple = (scopeOf { d with fields } others).owner? simple := by
  -- whichever class in the types comes first, the others with its name agree with it
  have hnames : ((classesIn types).find? (·.topLevel == simple)).map (·.package)
      = ((classesIn others).find? (·.topLevel == simple)).map (·.package) := by
    have hperm : (classesIn types).Perm (classesIn others) :=
      (htypes.flatMap_right _).filterMap _
    refine find?_eq_of_perm hperm fun c hc e he hctop hetop => huncontested c hc e he ?_
    rw [beq_iff_eq] at hctop hetop
    exact hctop.trans hetop.symm
  -- `Arrays` is claimed before the types claim, in both orders or in none
  have hclaims : ((fieldClaims d types).find? (·.topLevel == simple)).map (·.package)
      = ((fieldClaims { d with fields } others).find? (·.topLevel == simple)).map (·.package) := by
    unfold fieldClaims
    rw [wantsSimpleArrays_reordered h htypes, List.find?_append, List.find?_append, Option.map_or,
      Option.map_or]
    exact congrArg _ hnames
  rw [owner?_scopeOf_cases, owner?_scopeOf_cases, hclaims]

/-- The types of fields that can be read are given by a function of the field. -/
theorem exists_eq_map_of_read
    (h : List.Forall₂ (fun field type => FieldType.read field.descriptor = .ok type) fields types) :
    ∃ typeOf : Field → FieldType, types = fields.map typeOf ∧
      ∀ field ∈ fields, FieldType.read field.descriptor = .ok (typeOf field) := by
  refine ⟨fun field => (FieldType.read field.descriptor).toOption.getD (.scalar .boolean), ?_, ?_⟩
  · induction h with
    | nil => rfl
    | cons hread _ ih =>
      rw [List.map_cons, hread, ← ih]
      rfl
  · refine forall_mem_right_of_forall₂ h.flip fun type _ field hread => ?_
    have hfield : FieldType.read field.descriptor = .ok type := hread
    simp [hfield, Except.toOption]

/-- The members of a class with fields of the given types. -/
theorem members_ofTypes_map (d : Description) (typeOf : Field → FieldType) :
    (CompilationUnit.ofTypes d (d.fields.map typeOf)).members = d.fields.map fun field =>
      ⟨field.name, field.documentation, typeOf field,
        (scopeOf d (d.fields.map typeOf)).typeText (typeOf field)⟩ := by
  simp only [CompilationUnit.ofTypes, List.zipWith_map_right, List.zipWith_self]

/-- **Where no simple name is contested, the order of the fields matters to no name.** A class whose
fields change places is accepted as before, with the same imports, and each field has the same
member, type and its spelling included. -/
theorem ofDescription_reordered {u : CompilationUnit} (h : CompilationUnit.ofDescription d = .ok u)
    (huncontested : Uncontested (u.members.map (·.type))) (hperm : d.fields.Perm fields) :
    ∃ v, CompilationUnit.ofDescription { d with fields } = .ok v ∧ v.imports = u.imports ∧
      v.importLines = u.importLines ∧
      ∃ member : Field → Member, u.members = d.fields.map member ∧
        v.members = fields.map member := by
  obtain ⟨types, hread, rfl⟩ := map_eq_ok_iff.1 h
  rw [readAll_eq_ok_iff, List.forall₂_map_left_iff] at hread
  obtain ⟨typeOf, rfl, hall⟩ := exists_eq_map_of_read hread
  have hmembers := members_ofTypes_map d typeOf
  have hothers := members_ofTypes_map { d with fields } typeOf
  rw [hmembers, List.map_map] at huncontested
  have htypes : (d.fields.map typeOf).Perm (fields.map typeOf) := hperm.map typeOf
  have howner := owner?_scopeOf_reordered hperm htypes huncontested
  have hagain : CompilationUnit.ofDescription { d with fields }
      = .ok (CompilationUnit.ofTypes { d with fields } (fields.map typeOf)) := by
    refine map_eq_ok_iff.2 ⟨fields.map typeOf, readAll_eq_ok_iff.2 ?_, rfl⟩
    rw [List.forall₂_map_left_iff, List.forall₂_map_right_iff, List.forall₂_same]
    exact fun field hmem => hall field (hperm.mem_iff.2 hmem)
  have himports : (CompilationUnit.ofTypes { d with fields } (fields.map typeOf)).imports
      = (CompilationUnit.ofTypes d (d.fields.map typeOf)).imports := by
    refine (Scope.imports_eq_of_owner? (distinct_scopeOf _ _) (distinct_scopeOf _ _) ?_ howner).symm
    rw [package_scopeOf, package_scopeOf]
  refine ⟨_, hagain, himports, ?_, _, hmembers, ?_⟩
  · rw [CompilationUnit.importLines, himports, CompilationUnit.importLines]
  · rw [hothers]
    refine List.map_congr_left fun field _ => ?_
    rw [Scope.typeText_eq_of_owner? howner]

/-- `Arrays` is claimed for the methods, a class of that name in a type comes too late in any order,
and a class named twice is no contest. -/
theorem ofDescription_reordered_grid :
    let d : Description := ⟨"geo", "Grid", "", [⟨"java", "int[]", ""⟩,
      ⟨"cells", "java.util.Map.Entry<com.a.Item, com.c.Arrays>", ""⟩, ⟨"last", "com.a.Item[]", ""⟩]⟩
    ∃ u v, CompilationUnit.ofDescription d = .ok u ∧
      CompilationUnit.ofDescription { d with fields := d.fields.reverse } = .ok v ∧
      v.imports = u.imports ∧ "java.util" ++ "." ++ "Arrays" ∈ u.imports ∧
      v.members.map (·.spelled) = ["Item[]", "Map.Entry<Item, com.c.Arrays>", "int[]"] := by
  intro d
  let types : List FieldType := [.array (.scalar .int), .reference "java.util.Map.Entry"
    [.reference "com.a.Item" [], .reference "com.c.Arrays" []], .array (.reference "com.a.Item" [])]
  have hread : CompilationUnit.ofDescription d = .ok (CompilationUnit.ofTypes d types) :=
    ofDescription_of_text (by decide) (by decide)
  have hspelled : (CompilationUnit.ofTypes d types).members.map (·.spelled)
      = ["int[]", "Map.Entry<Item, com.c.Arrays>", "Item[]"] := by
    decide +kernel
  obtain ⟨v, hv, himports, -, member, hmembers, hothers⟩ :=
    ofDescription_reordered hread (by decide +kernel) (List.reverse_perm d.fields).symm
  have harrays : "java.util" ++ "." ++ "Arrays" ∈ (scopeOf d types).imports :=
    (mem_imports_scopeOf_iff (by decide)).2 (by decide +kernel)
  refine ⟨_, v, hread, hv, himports, harrays, ?_⟩
  rw [hothers, List.map_reverse, ← hmembers, List.map_reverse, hspelled]
  rfl

end ValueClass.Java
