import ValueClass.Java.Printer
import ValueClass.Proofs.Renaming

/-!
# Normal forms of descriptors

The text of a type is one of its descriptors, the one with no blanks but a space after each comma
between arguments. Reading accepts much that no such text was meant for, names with commas and
brackets among it, and still the text of what was read is read as the same type.

* `read_normalForm`: **a descriptor and its normal form are read alike**, as a type or with a fault.
* `ofDescription_normalized`: so are the descriptors of all fields of a class, and nothing else of
  the class depends on how they were written.
* `normalForm_keeps_source`: types, normal forms and sources do not change when descriptors are
  brought into their normal form.
-/

namespace ValueClass

/-- **The normal form of a descriptor**, which is the text of its type. A descriptor that cannot be
read has none and is left as it is. -/
def normalForm (descriptor : String) : String :=
  match FieldType.read descriptor with
  | .ok type => type.text
  | .error _ => descriptor

/-- The class with the normal form of each descriptor. -/
def Description.normalized (d : Description) : Description :=
  { d with fields := d.fields.map fun f => { f with descriptor := normalForm f.descriptor } }

theorem normalForm_of_read {descriptor : String} {type : FieldType}
    (h : FieldType.read descriptor = .ok type) : normalForm descriptor = type.text := by
  unfold normalForm
  rw [h]

/-- The text of a type that was read is read as the type. -/
theorem read_text_of_read {descriptor : String} {type : FieldType}
    (h : FieldType.read descriptor = .ok type) : FieldType.read type.text = .ok type := by
  have hlegible : type.Legible := (readChars_eq_ok_iff.1 h).1
  exact read_text hlegible

theorem normalForm_of_fault {descriptor : String} {fault : Fault}
    (h : FieldType.read descriptor = .error fault) : normalForm descriptor = descriptor := by
  unfold normalForm
  rw [h]

/-- **A descriptor and its normal form are read alike.** -/
theorem read_normalForm (descriptor : String) :
    FieldType.read (normalForm descriptor) = FieldType.read descriptor := by
  cases h : FieldType.read descriptor with
  | error fault => rw [normalForm_of_fault h, h]
  | ok type =>
    rw [normalForm_of_read h]
    exact read_text_of_read h

theorem normalForm_normalForm (descriptor : String) :
    normalForm (normalForm descriptor) = normalForm descriptor := by
  cases h : FieldType.read descriptor with
  | error fault => rw [normalForm_of_fault h, normalForm_of_fault h]
  | ok type =>
    have hnormal : FieldType.read (normalForm descriptor) = .ok type := by rw [read_normalForm, h]
    rw [normalForm_of_read hnormal, normalForm_of_read h]

theorem readAll_normalized (fields : List Field) :
    FieldType.readAll (fields.map fun f => (normalForm f.descriptor).toList) =
      FieldType.readAll (fields.map (·.descriptor.toList)) := by
  induction fields with
  | nil => rfl
  | cons f fields ih =>
    have hfirst := read_normalForm f.descriptor
    unfold FieldType.read at hfirst
    rw [List.map_cons, List.map_cons, FieldType.readAll, FieldType.readAll, hfirst, ih]

namespace Java

/-- The classes have the same names, for themselves and for their fields in order. -/
structure SameNames (d e : Description) : Prop where
  package : d.package = e.package
  name : d.name = e.name
  fields : d.fields.map (·.name) = e.fields.map (·.name)

namespace SameNames

variable {d e : Description} (h : SameNames d e)

include h

theorem hasField_eq : hasField d = hasField e := by
  have hany : ∀ (c : Description) name,
      hasField c name = (c.fields.map (·.name)).any (· == name) := by
    intro c name
    rw [List.any_map]
    rfl
  funext name
  rw [hany, hany, h.fields]

theorem wantsSimpleArrays_eq : wantsSimpleArrays d = wantsSimpleArrays e := by
  unfold wantsSimpleArrays
  rw [h.hasField_eq]

/-- Besides names, the scope of a class depends on types only. -/
theorem scopeOf_eq : scopeOf d = scopeOf e := by
  unfold scopeOf
  rw [h.wantsSimpleArrays_eq, h.package, h.name]

theorem librarySpelling_eq (types : List FieldType) :
    librarySpelling d (simpleArrays d types) = librarySpelling e (simpleArrays e types) := by
  unfold librarySpelling simpleArrays expressionName typeName
  rw [h.hasField_eq, h.wantsSimpleArrays_eq, h.package, h.name]

end SameNames

theorem sameNames_normalized (d : Description) : SameNames d.normalized d :=
  ⟨rfl, rfl, by simp [Description.normalized]⟩

/-- A unit is made of the types of the fields, and does not look at their descriptors again. -/
theorem ofTypes_normalized (d : Description) (types : List FieldType) :
    CompilationUnit.ofTypes d.normalized types = CompilationUnit.ofTypes d types := by
  have hnames := sameNames_normalized d
  unfold CompilationUnit.ofTypes
  rw [hnames.scopeOf_eq, hnames.librarySpelling_eq]
  simp only [Description.normalized, List.zipWith_map_left]

theorem ofDescription_normalized (d : Description) :
    CompilationUnit.ofDescription d.normalized = CompilationUnit.ofDescription d := by
  have hread := readAll_normalized d.fields
  unfold CompilationUnit.ofDescription
  rw [funext (ofTypes_normalized d), Description.normalized, List.map_map, ← hread]
  rfl

end Java

/-- **What a descriptor is read as, its normal form is read as.** So bringing a descriptor into its
normal form twice is doing it once, and doing it to every field changes neither the source of the
class nor, where there is none, the fault. -/
theorem normalForm_keeps_source :
    (∀ descriptor type, FieldType.read descriptor = .ok type →
      normalForm descriptor = type.text ∧ FieldType.read type.text = .ok type) ∧
    (∀ descriptor, normalForm (normalForm descriptor) = normalForm descriptor) ∧
    ∀ d : Description, Java.sourceOf d.normalized = Java.sourceOf d := by
  refine ⟨fun descriptor type h => ⟨normalForm_of_read h, read_text_of_read h⟩,
    normalForm_normalForm, fun d => ?_⟩
  unfold Java.sourceOf
  rw [Java.ofDescription_normalized]

/-- A name with a comma, square brackets and a stray bracket before its arguments, and blanks. -/
theorem normalForm_keeps_source_odd_name :
    let descriptor := " a>b, c[] <int ,K >[]\t"
    let type : FieldType := .array (.reference "a>b, c[]" [.scalar .int, .reference "K" []])
    FieldType.read descriptor = .ok type ∧ normalForm descriptor = "a>b, c[]<int, K>[]" ∧
      FieldType.read "a>b, c[]<int, K>[]" = .ok type := by
  intro descriptor type
  have hint : outermost "int".toList = .ok (.scalar .int) := by decide +kernel
  have hname : outermost "K".toList = .ok (.name "K".toList) := by decide +kernel
  have hgeneric : outermost "a>b, c[] <int ,K >".toList
      = .ok (.generic "a>b, c[]".toList ["int".toList, "K".toList]) := by decide +kernel
  have harray : outermost descriptor.toList = .ok (.array "a>b, c[] <int ,K >".toList) := by
    decide +kernel
  have harguments : FieldType.readAll ["int".toList, "K".toList]
      = .ok [.scalar .int, .reference "K" []] := by
    refine readAll_eq_ok_iff.2 (.cons ?_ (.cons ?_ .nil))
    · exact readChars_of_outermost hint
    · exact readChars_of_outermost hname
  have hread : FieldType.read descriptor = .ok type := by
    rw [FieldType.read, readChars_of_outermost harray, Layer.read,
      readChars_of_outermost hgeneric, Layer.read, harguments]
    rfl
  have htext : type.text = "a>b, c[]<int, K>[]" := by decide
  obtain ⟨hnormal, hagain⟩ := normalForm_keeps_source.1 descriptor type hread
  rw [htext] at hnormal hagain
  exact ⟨hread, hnormal, hagain⟩

end ValueClass
