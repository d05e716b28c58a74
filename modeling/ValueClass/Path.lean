import ValueClass.Text.Split
import ValueClass.Text.Utf8

/-!
# Paths

A path is a sequence of bytes, with slashes between the names of directories and files. Names need
not be UTF-8.

* `Path.components` are the steps that a path takes.
* `Path.push` goes on from a path.
* `Path.ancestors` are the path and the directories above it that it names.
-/

namespace ValueClass

/-- The name of a file or directory. -/
abbrev Name :=
  List UInt8

/-- The byte between names. -/
def slash : UInt8 := 0x2f

/-- The byte before the extension of a name. -/
def dot : UInt8 := 0x2e

/-- A path. -/
structure Path where
  bytes : List UInt8
  deriving DecidableEq, Repr

namespace Path

def ofString (text : String) : Path :=
  ⟨Text.utf8 text⟩

/-- The path as text, if it is UTF-8. -/
def text? (p : Path) : Option String :=
  Text.ofUtf8? p.bytes

/-- The path as text, with U+FFFD where it is not UTF-8. -/
def display (p : Path) : String :=
  Text.lossy p.bytes

/-- The path between double quotes. -/
def quoted (p : Path) : String :=
  Text.quoteBytes p.bytes

/-- Whether the path starts at the root directory. -/
def isAbsolute (p : Path) : Bool :=
  p.bytes.head? == some slash

/-- What stands between the slashes. -/
def parts (p : Path) : List Name :=
  List.splitOn slash p.bytes

/-- Parts with slashes between them. -/
def ofParts (parts : List Name) : Path :=
  ⟨List.intercalate [slash] parts⟩

/-- A step of a path. -/
inductive Component where
  | root
  /-- The directory where the path is. -/
  | current
  /-- The directory above. -/
  | parent
  | name (name : Name)
  deriving DecidableEq, Repr

/-- The step of a part within a path. Empty parts and single dots are no steps. -/
def Component.ofPart? (part : Name) : Option Component :=
  if part = [] ∨ part = [dot] then none
  else if part = [dot, dot] then some .parent
  else some (.name part)

/-- **The steps of a path.** A single dot is a step only at the beginning. -/
def components (p : Path) : List Component :=
  if p.isAbsolute then .root :: p.parts.filterMap Component.ofPart?
  else
    match p.parts with
    | [] => []
    | first :: rest =>
      if first = [dot] then .current :: rest.filterMap Component.ofPart?
      else (first :: rest).filterMap Component.ofPart?

/-- The name at the end of a path. -/
def fileName? (p : Path) : Option Name :=
  match p.components.getLast? with
  | some (.name name) => some name
  | _ => none

/-- A name up to its last dot. A dot at the beginning of a name does not count. -/
def stem (name : Name) : Name :=
  match Text.cutLast dot name with
  | some ([], _) => name
  | some (before, _) => before
  | none => name

/-- What stands after the last dot of a name. A dot at the beginning of a name does not count. -/
def extension? (name : Name) : Option Name :=
  match Text.cutLast dot name with
  | some ([], _) => none
  | some (_, after) => some after
  | none => none

/-- **Goes on from a path.** What starts at the root replaces the path. -/
def push (p : Path) (bytes : List UInt8) : Path :=
  if bytes.head? = some slash then ⟨bytes⟩
  else if p.bytes = [] ∨ p.bytes.getLast? = some slash then ⟨p.bytes ++ bytes⟩
  else ⟨p.bytes ++ slash :: bytes⟩

/-- Reversed parts of a path, and of what remains when its last steps are left out one by one. -/
def shorter : List Name → List (List Name)
  | [] => []
  | part :: before =>
    if part = [] ∨ part = [dot] then shorter before else (part :: before) :: shorter before

/-- **The path and the directories above it**, from the longest to the shortest. The last one of a
relative path is the empty path. -/
def ancestors (p : Path) : List Path :=
  let above (base : List Name) (parts : List Name) : List Path :=
    (shorter parts.reverse).map fun reversed => ofParts (base ++ reversed.reverse)
  if p.isAbsolute then above [[]] p.parts.tail ++ [⟨[slash]⟩]
  else
    match p.parts with
    | [] => [⟨[]⟩]
    | first :: rest =>
      if first = [dot] then above [[dot]] rest ++ [⟨[dot]⟩, ⟨[]⟩]
      else above [] (first :: rest) ++ [⟨[]⟩]

/-- The directory that a path is in. -/
def parent? (p : Path) : Option Path :=
  p.ancestors.tail.head?

end Path

end ValueClass
