/-!
# Class descriptions

What a declaration says about one value class: its package and name, its fields in order, and their
documentation. Types are kept as they were written.
-/

namespace ValueClass

/-- A field of a value class. -/
structure Field where
  name : String
  /-- The type as it was written. -/
  descriptor : String
  /-- The documentation, lines divided by line feeds, empty if there is none. -/
  documentation : String
  deriving DecidableEq, Repr

/-- A value class. -/
structure Description where
  /-- The package, empty for the default package. -/
  package : String
  /-- The name within the package. -/
  name : String
  documentation : String
  fields : List Field
  deriving DecidableEq, Repr

/-- The name with its package in front. -/
def Description.qualifiedName (d : Description) : String :=
  if d.package = "" then d.name else d.package ++ "." ++ d.name

end ValueClass
