import ValueClass.Declaration
import ValueClass.Fault
import ValueClass.Text.Blank
import ValueClass.Text.Split

/-!
# Reading declarations

A declaration is read line by line. A line that starts with `#` is documentation for what follows,
a blank line ends a block of documentation, and every other line declares a field as
`name: type`. The first block of documentation that a blank line ends, before any field, belongs to
the class.

* `readTarget` divides a qualified name into package and name.
* `Line.of` says what kind of line a line is.
* `Description.read` reads a whole declaration.
-/

namespace ValueClass

open Text

/-- The first thing that is wrong with the segments of a target, from left to right. -/
def targetFlaw? : List (List Char) → Option TargetFlaw
  | [] => none
  | segment :: rest =>
    if segment = [] then some .emptySegment
    else if segment.any isBlank then some .blank
    else targetFlaw? rest

/-- **The package and the name of a target.** The package is all before the last dot. -/
def readTarget (target : String) : Except Fault (String × String) :=
  if target = "" then .error (.target target .empty)
  else
    match targetFlaw? (List.splitOn '.' target.toList) with
    | some flaw => .error (.target target flaw)
    | none =>
      match cutLast '.' target.toList with
      | some (package, name) => .ok (String.ofList package, String.ofList name)
      | none => .ok ("", target)

/-- What a line of a declaration is. -/
inductive Line where
  | blank
  /-- Documentation, with the text after the marker and at most one space. -/
  | comment (text : List Char)
  | field
  deriving DecidableEq, Repr

/-- The kind of a line. -/
def Line.of (line : List Char) : Line :=
  match trimStart line with
  | [] => .blank
  | '#' :: ' ' :: text => .comment text
  | '#' :: text => .comment text
  | _ => .field

/-- The name and the type that a field line declares. -/
def fieldParts? (line : List Char) : Option (List Char × List Char) :=
  match cut ':' line with
  | none => none
  | some (before, after) =>
    if trim before = [] ∨ trim after = [] then none else some (trim before, trim after)

/-- What has been read so far. -/
structure Reading where
  /-- Documentation that belongs to nothing yet. -/
  pending : List Char := []
  /-- The documentation of the class, once there is some. -/
  ofClass : Option (List Char) := none
  fields : List Field := []

/-- A blank line: what is pending becomes the documentation of the class, if the class has none and
no field came before, and nothing is pending any more. -/
def Reading.separate (r : Reading) : Reading :=
  if r.ofClass = none ∧ r.fields = [] ∧ r.pending ≠ [] then
    { r with pending := [], ofClass := some r.pending }
  else { r with pending := [] }

/-- A line of documentation goes below what is pending. Empty lines are dropped where nothing is
pending. -/
def Reading.comment (r : Reading) (text : List Char) : Reading :=
  { r with pending := if r.pending = [] then text else r.pending ++ '\n' :: text }

/-- A field takes what is pending for its documentation. -/
def Reading.addField (r : Reading) (name descriptor : List Char) : Reading :=
  { r with
    pending := []
    fields := r.fields
      ++ [⟨String.ofList name, String.ofList descriptor, String.ofList r.pending⟩] }

/-- Reads one line, which has the given number. -/
def Reading.line (r : Reading) (number : Nat) (line : List Char) : Except Fault Reading :=
  match Line.of line with
  | .blank => .ok r.separate
  | .comment text => .ok (r.comment text)
  | .field =>
    match fieldParts? line with
    | some (name, descriptor) => .ok (r.addField name descriptor)
    | none => .error (.field number (String.ofList line))

/-- Reads lines one after the other, up to the first that is malformed. -/
def Reading.lines (r : Reading) (number : Nat) : List (List Char) → Except Fault Reading
  | [] => .ok r
  | line :: rest =>
    match r.line number line with
    | .error fault => .error fault
    | .ok next => next.lines (number + 1) rest

/-- **The class that a declaration describes**, under the qualified name `target`. -/
def Description.read (target text : String) : Except Fault Description :=
  match readTarget target with
  | .error fault => .error fault
  | .ok (package, name) =>
    match Reading.lines {} 1 (Text.lines text.toList) with
    | .error fault => .error fault
    | .ok reading =>
      .ok ⟨package, name, String.ofList (reading.ofClass.getD []), reading.fields⟩

end ValueClass
