import ValueClass.Declaration
import ValueClass.FieldType.Reader
import ValueClass.Java.Body
import ValueClass.Java.Scope

/-!
# Compilation units

A description becomes a unit: its types are read, simple names are given to the classes it uses, and
it is settled how the methods name the classes of the library.

A class hides the class of `java.lang` with its name. In a method body a field hides a class or a
package with its name, so that a field called `java` rules out every name that starts with `java.`.
-/

namespace ValueClass.Java

/-- The source of one class, before it is printed. -/
structure CompilationUnit where
  package : String
  imports : List String
  documentation : String
  name : String
  members : List Member
  library : LibrarySpelling
  deriving DecidableEq, Repr

/-- Whether a class has a field of the given name. -/
def hasField (d : Description) (name : String) : Bool :=
  d.fields.any (·.name == name)

/-- The name of a class of `java.lang` where a type is expected. -/
def typeName (d : Description) (simple : String) : String :=
  if simple = d.name then "java.lang." ++ simple else simple

/-- The name of a class of `java.lang` within an expression. The simple name is taken where it is
not hidden and either preferred or the only one left. -/
def expressionName (d : Description) (simple : String) (preferSimple : Bool) : String :=
  if simple ≠ d.name ∧ hasField d simple = false ∧ (hasField d "java" ∨ preferSimple) then simple
  else "java.lang." ++ simple

/-- Whether the methods want to name `Arrays` by its simple name, and import it: only if a field is
called `java`, and none is called `Arrays`. -/
def wantsSimpleArrays (d : Description) (types : List FieldType) : Bool :=
  hasField d "java" && types.any (·.element?.isSome) && !hasField d "Arrays"

/-- How the methods name the classes of the library. Whether `Arrays` could be claimed is known
already. -/
def librarySpelling (d : Description) (simpleArrays : Bool) : LibrarySpelling where
  object := typeName d "Object"
  override := "@" ++ typeName d "Override"
  floatInHash := expressionName d "Float" true
  doubleInHash := expressionName d "Double" true
  floatInEquals := expressionName d "Float" false
  doubleInEquals := expressionName d "Double" false
  arrays := if simpleArrays then "Arrays" else "java.util.Arrays"

/-- The scope of a class with fields of the given types. `Arrays` is claimed before the types claim
their names. -/
def scopeOf (d : Description) (types : List FieldType) : Scope :=
  let own := Scope.ofClass d.package d.name
  let start := if wantsSimpleArrays d types then own.claim "java.util" "Arrays" else own
  types.foldl Scope.claimType start

/-- Whether the methods name `Arrays` by its simple name. -/
def simpleArrays (d : Description) (types : List FieldType) : Bool :=
  wantsSimpleArrays d types
    && ((Scope.ofClass d.package d.name).claim "java.util" "Arrays").owns "java.util" "Arrays"

/-- The unit of a class with fields of the given types. -/
def CompilationUnit.ofTypes (d : Description) (types : List FieldType) : CompilationUnit :=
  let scope := scopeOf d types
  { package := d.package
    imports := scope.imports
    documentation := d.documentation
    name := d.name
    members := List.zipWith
      (fun field type => ⟨field.name, field.documentation, type, scope.typeText type⟩)
      d.fields types
    library := librarySpelling d (simpleArrays d types) }

/-- **The unit of a class**, or what is wrong with the first descriptor that cannot be read. -/
def CompilationUnit.ofDescription (d : Description) : Except Fault CompilationUnit :=
  (FieldType.readAll (d.fields.map (·.descriptor.toList))).map (CompilationUnit.ofTypes d)

end ValueClass.Java
