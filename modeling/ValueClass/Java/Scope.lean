import ValueClass.FieldType
import ValueClass.Java.ClassName

/-!
# Simple names of a compilation unit

Within one unit a simple name stands for one class. It belongs to the package that claims it first:
the generated class claims its own name, then the classes of `java.lang` that generated methods name
are claimed, then the types of the fields claim in order. A class whose simple name belongs to
another package is written with its package.

* `Scope.claim` gives a name to a package unless it has an owner.
* `Scope.claimType` claims the names of a type.
* `Scope.spelling` is the shortest unambiguous way to write a name.
* `Scope.imports` lists the classes that need an import.
-/

namespace ValueClass.Java

/-- The package of which classes need no import. -/
def implicitPackage : String := "java.lang"

/-- The classes of `java.lang` that generated methods name. -/
def methodNames : List String :=
  ["Object", "Override", "Float", "Double"]

/-- The owners of the simple names. -/
structure Scope where
  /-- The package of the unit. -/
  package : String
  /-- Each claimed simple name with the package that owns it, in the order of the claims. -/
  owners : List (String × String)
  deriving DecidableEq, Repr

namespace Scope

/-- The package that owns a simple name. -/
def owner? (s : Scope) (simple : String) : Option String :=
  s.owners.lookup simple

/-- The scope after a package asked for a simple name. -/
def claim (s : Scope) (package simple : String) : Scope :=
  match s.owner? simple with
  | some _ => s
  | none => { s with owners := s.owners ++ [(simple, package)] }

/-- Whether a package owns a simple name. -/
def owns (s : Scope) (package simple : String) : Bool :=
  s.owner? simple == some package

/-- The scope of a unit before its fields are looked at. -/
def ofClass (package name : String) : Scope :=
  methodNames.foldl (·.claim implicitPackage ·) ⟨package, [(name, package)]⟩

/-- Claims the top-level class of a reference name. -/
def claimName (s : Scope) (name : String) : Scope :=
  match ClassName.guess? name with
  | some guess => s.claim guess.package guess.topLevel
  | none => s

/-- Claims the reference names of a type, a class before its arguments. -/
def claimType (s : Scope) (type : FieldType) : Scope :=
  type.names.foldl claimName s

/-- **How a reference name is written**: without its package where its package owns the simple name,
as it was written elsewhere. -/
def spelling (s : Scope) (name : String) : String :=
  match ClassName.guess? name with
  | some guess => if s.owns guess.package guess.topLevel then guess.short else name
  | none => name

/-- A type with its names in their shortest form. -/
def typeText (s : Scope) (type : FieldType) : String :=
  type.spell s.spelling

/-- Whether classes of a package have to be imported. -/
def needsImport (s : Scope) (package : String) : Bool :=
  package != "" && package != implicitPackage && package != s.package

/-- **The qualified names to import**, in order and each once. -/
def imports (s : Scope) : List String :=
  let qualified := (s.owners.filter (s.needsImport ·.2)).map fun (simple, package) =>
    package ++ "." ++ simple
  (qualified.mergeSort fun a b => !decide (b < a)).eraseDups

end Scope

end ValueClass.Java
