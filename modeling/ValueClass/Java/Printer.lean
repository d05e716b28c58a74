import ValueClass.Declaration.Reader
import ValueClass.Java.Unit

/-!
# Printing compilation units

The text of a unit: package, imports, documentation, and the class with its fields, constructor,
accessors and methods, an empty line between any two of them.

* `javadoc` writes documentation as a comment that its text cannot end.
* `CompilationUnit.text` is the whole source file.
* `sourceOf` goes from a description to the source, `sourceOfDeclaration` from a declaration.
-/

namespace ValueClass.Java

open Text

/-- A line of documentation in which no comment ends. -/
def escapeClosing : List Char → List Char
  | [] => []
  | '*' :: '/' :: rest => '*' :: '&' :: '#' :: '4' :: '7' :: ';' :: escapeClosing rest
  | c :: rest => c :: escapeClosing rest

/-- A line of a documentation comment. -/
def javadocLine (indent : String) (line : List Char) : String :=
  if line = [] then indent ++ " *\n"
  else indent ++ " * " ++ String.ofList (escapeClosing line) ++ "\n"

/-- Documentation as a comment. Empty documentation has none. -/
def javadoc (indent documentation : String) : String :=
  if documentation = "" then ""
  else
    indent ++ "/**\n"
      ++ String.join ((List.splitOn '\n' documentation.toList).map (javadocLine indent))
      ++ indent ++ " */\n"

/-- The declaration of a field. -/
def fieldText (m : Member) : String :=
  javadoc "  " m.documentation ++ "  private final " ++ m.spelled ++ " " ++ m.name ++ ";\n"

/-- The constructor, which takes a value for each field. -/
def constructorText (name : String) (members : List Member) : String :=
  "  public " ++ name ++ "("
    ++ String.intercalate ", " (members.map fun m => m.spelled ++ " " ++ m.name) ++ ") \x7b\n"
    ++ String.join (members.map fun m => "    this." ++ m.name ++ " = " ++ m.name ++ ";\n")
    ++ "  \x7d\n"

/-- The accessor of a field. -/
def accessorText (m : Member) : String :=
  javadoc "  " m.documentation
    ++ "  public " ++ m.spelled ++ " " ++ accessorName m.name ++ "() \x7b\n"
    ++ "    return " ++ m.name ++ ";\n"
    ++ "  \x7d\n"

/-- The statements of a method body, each on a line of its own. -/
def bodyText (statements : List Statement) : String :=
  String.join (statements.map fun s => "    " ++ s.text ++ "\n")

/-- The `hashCode` method. -/
def hashCodeText (library : LibrarySpelling) (members : List Member) : String :=
  "  " ++ library.override ++ "\n  public int hashCode() \x7b\n"
    ++ bodyText (hashStatements library members)
    ++ "  \x7d\n"

/-- The comparison of all fields. Without fields there is nothing to compare. -/
def comparisonText (name : String) (library : LibrarySpelling) (members : List Member) : String :=
  (if members.isEmpty then "" else "    " ++ name ++ " that = (" ++ name ++ ") other;\n")
    ++ bodyText [.returns (equalsResult library members)]

/-- The `equals` method. -/
def equalsText (name : String) (library : LibrarySpelling) (members : List Member) : String :=
  "  " ++ library.override ++ "\n  public boolean equals(" ++ library.object ++ " other) \x7b\n"
    ++ "    if (other == this)\n"
    ++ "        return true;\n"
    ++ "    else if (other == null || getClass() != other.getClass())\n"
    ++ "        return false;\n"
    ++ comparisonText name library members
    ++ "  \x7d\n"

/-- The helper method that compares two references. -/
def helperText (library : LibrarySpelling) : String :=
  "  private boolean equals(" ++ library.object ++ " left, " ++ library.object ++ " right) \x7b\n"
    ++ bodyText helperStatements
    ++ "  \x7d\n"

namespace CompilationUnit

/-- The members of the class, in the order of the source. -/
def blocks (u : CompilationUnit) : List String :=
  u.members.map fieldText ++ [constructorText u.name u.members] ++ u.members.map accessorText
    ++ [hashCodeText u.library u.members, equalsText u.name u.library u.members]
    ++ if needsHelper u.members then [helperText u.library] else []

/-- The package declaration. The default package has none. -/
def packageLine (u : CompilationUnit) : String :=
  if u.package = "" then "" else "package " ++ u.package ++ ";\n\n"

/-- The imports, and an empty line if there are any. -/
def importLines (u : CompilationUnit) : String :=
  if u.imports.isEmpty then ""
  else String.join (u.imports.map fun qualified => "import " ++ qualified ++ ";\n") ++ "\n"

/-- **The source of a unit.** -/
def text (u : CompilationUnit) : String :=
  u.packageLine ++ u.importLines ++ javadoc "" u.documentation
    ++ "public class " ++ u.name ++ " \x7b\n" ++ String.intercalate "\n" u.blocks ++ "\x7d\n"

end CompilationUnit

/-- **The source of the class that a description describes.** -/
def sourceOf (d : Description) : Except Fault String :=
  (CompilationUnit.ofDescription d).map CompilationUnit.text

/-- The source of the class that a declaration describes. -/
def sourceOfDeclaration (target declaration : String) : Except Fault String :=
  match Description.read target declaration with
  | .error fault => .error fault
  | .ok d => sourceOf d

end ValueClass.Java
