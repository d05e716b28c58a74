import ValueClass.Text.Alphabetic
import ValueClass.Text.Numeric
import ValueClass.Text.Split
import ValueClass.Text.Uppercase
import ValueClass.Text.Utf8

/-!
# Class names

A reference name such as `java.util.Map.Entry` does not say where its package ends. By convention
packages start with a small letter and classes with a capital one, so the first segment with a
capital letter is taken for the top-level class. The name is cut there by an offset in its UTF-8
form, which grows from segment to segment.
-/

namespace ValueClass.Java

open Text

/-- Whether a segment can be an identifier: a letter, underscore or dollar sign, then any number of
those and of numerals. -/
def isIdentifier : List Char → Bool
  | [] => false
  | first :: rest =>
    (isAlphabetic first || first == '_' || first == '$')
      && rest.all fun c => isAlphabetic c || isNumeric c || c == '_' || c == '$'

/-- Whether a segment starts with a capital letter. -/
def isCapitalized : List Char → Bool
  | [] => false
  | first :: _ => isUppercase first

/-- A class name in its parts. -/
structure ClassName where
  /-- The package, empty for an unqualified name. -/
  package : String
  /-- The outermost class. -/
  topLevel : String
  /-- The path of a nested class below the outermost one, empty if there is none. -/
  nested : String
  deriving DecidableEq, Repr

namespace ClassName

/-- Divides a name at the first of some segments that starts with a capital letter. The segments are
what is left of `name` from `offset` on, which counts bytes. -/
def divideFrom (name : String) (offset : Nat) : List (List Char) → Option (Option ClassName)
  | [] => some none
  | segment :: rest =>
    if isCapitalized segment then do
      let package ← (if offset = 0 then some "" else slice? name 0 (offset - 1))
      let below ← slice? name offset name.utf8ByteSize
      let (topLevel, nested) := (cut '.' below.toList).getD (below.toList, [])
      return some ⟨package, String.ofList topLevel, String.ofList nested⟩
    else divideFrom name (offset + (String.ofList segment).utf8ByteSize + 1) rest

/-- Divides a name if all its segments are identifiers. The outer option fails if an offset is none
at which the name can be cut. -/
def divide (name : String) : Option (Option ClassName) :=
  let segments := List.splitOn '.' name.toList
  if segments.all isIdentifier then divideFrom name 0 segments else some none

/-- **The likely parts of a reference name.** None if some segment is no identifier, or none starts
with a capital letter. -/
def guess? (name : String) : Option ClassName :=
  (divide name).join

/-- The name without its package. -/
def short (c : ClassName) : String :=
  if c.nested = "" then c.topLevel else c.topLevel ++ "." ++ c.nested

end ClassName

end ValueClass.Java
