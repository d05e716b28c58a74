import ValueClass.Declaration
import ValueClass.Text.Split

/-!
# Writing declarations

`Description.declaration` writes a description in the language that declarations are read from.
-/

namespace ValueClass

open Text

/-- A line of documentation after its marker. -/
def commentLine (line : List Char) : List Char :=
  if line = [] then ['#', '\n'] else '#' :: ' ' :: line ++ ['\n']

/-- Documentation as marked lines. Empty documentation has none. -/
def commentLines (documentation : List Char) : List Char :=
  if documentation = [] then [] else (List.splitOn '\n' documentation).flatMap commentLine

/-- A field with its documentation above it. -/
def Field.declarationChars (f : Field) : List Char :=
  commentLines f.documentation.toList ++ f.name.toList
    ++ ':' :: ' ' :: f.descriptor.toList ++ ['\n']

/-- The characters of a declaration: the documentation of the class and an empty line, if there is
any, then the fields. -/
def Description.declarationChars (d : Description) : List Char :=
  (if d.documentation = "" then [] else commentLines d.documentation.toList ++ ['\n'])
    ++ d.fields.flatMap Field.declarationChars

/-- **The declaration of a class.** -/
def Description.declaration (d : Description) : String :=
  String.ofList d.declarationChars

end ValueClass
