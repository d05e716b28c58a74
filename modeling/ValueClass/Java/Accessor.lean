import ValueClass.Text.Capital

/-!
# Names of members

How the accessor of a field is named, and how a method body refers to a field.
-/

namespace ValueClass.Java

/-- A name with its first letter in capital form. -/
def capitalized (name : String) : String :=
  match name.toList with
  | [] => ""
  | first :: rest => String.ofList (Text.capital first ++ rest)

/-- The name of the accessor of a field. -/
def accessorName (field : String) : String :=
  "get" ++ capitalized field

/-- The variables of the `hashCode` method. -/
def hashVariables : List String :=
  ["prime", "result", "temp"]

/-- The parameter and the variable of the `equals` method. -/
def equalsVariables : List String :=
  ["other", "that"]

end ValueClass.Java
