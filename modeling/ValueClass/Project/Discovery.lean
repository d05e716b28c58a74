import ValueClass.Project.Layout
import ValueClass.Search

/-!
# Finding declarations

Every file below the source root whose name has the ending of declarations is one. They are found by
a search, in the order of the directories, and then put in the order of their targets.

* `Roots.toCheck` and `Roots.toGenerate` look at the roots before anything is done.
* `Roots.pattern` is the text that the search is for.
* `belowRoot` is how a declaration is named from the source root.
* `Roots.declarations` lists the declarations.
-/

namespace ValueClass

open Text

/-- The directory of the declarations, and the directory that sources are written to. -/
structure Roots where
  source : Path
  output : Path
  deriving DecidableEq, Repr

/-- A declaration file. -/
structure Source where
  target : String
  path : Path
  deriving DecidableEq, Repr

/-- The roots, if the source root is a directory. -/
def Roots.toCheck (v : Volume) (source output : Path) : Except ProjectFault Roots :=
  if !v.exists? source then .error (.sourceMissing source)
  else if !v.isDirectory source then .error (.notADirectory source)
  else .ok ⟨source, output⟩

/-- The roots, if the source root is a directory and the output root is one or is not there yet. -/
def Roots.toGenerate (v : Volume) (source output : Path) : Except ProjectFault Roots :=
  match Roots.toCheck v source output with
  | .error fault => .error fault
  | .ok roots =>
    if v.exists? output && !v.isDirectory output then .error (.notADirectory output) else .ok roots

/-- **The pattern of the declarations below the source root.** Slashes and backslashes at the end of
the root are left out. -/
def Roots.pattern (r : Roots) : List UInt8 :=
  let trimmed := (r.source.bytes.reverse.dropWhile fun b => b = slash ∨ b = 0x5c).reverse
  Pattern.escape trimmed ++ utf8 "/**/*" ++ sourceEnding

/-- A path without the steps of the source root in front. The root may have single dots that the
path leaves out. -/
def belowRoot (source p : Path) : Except ProjectFault Path :=
  let ofSteps (steps : List Path.Component) : Path :=
    Path.ofParts <| steps.map fun
      | .name name => name
      | .parent => [dot, dot]
      | .current => [dot]
      | .root => []
  match List.isPrefixOf? source.components p.components with
  | some rest => .ok (ofSteps rest)
  | none =>
    match List.isPrefixOf? (source.components.filter (· ≠ .current)) p.components with
    | some rest => .ok (ofSteps rest)
    | none => .error (.noTarget p)

/-- The declaration at a path. -/
def Roots.sourceAt (r : Roots) (p : Path) : Except ProjectFault Source :=
  match belowRoot r.source p with
  | .error fault => .error fault
  | .ok relative =>
    match targetOfPath relative with
    | .error fault => .error fault
    | .ok target => .ok ⟨target, p⟩

/-- The declarations among what a search has found, up to the first directory that could not be
listed and the first file that gives no target. What is no file is passed over. -/
def Roots.sourcesAmong (r : Roots) (v : Volume) :
    List (Except Path Path) → Except ProjectFault (List Source)
  | [] => .ok []
  | .error p :: _ => .error (.io p .accessDenied)
  | .ok p :: rest =>
    if !v.isFile p then r.sourcesAmong v rest
    else
      match r.sourceAt p with
      | .error fault => .error fault
      | .ok source =>
        match r.sourcesAmong v rest with
        | .error fault => .error fault
        | .ok sources => .ok (source :: sources)

/-- **The declarations below the source root, in the order of their targets.** Those with the same
target stay in the order of the directories. -/
def Roots.declarations (r : Roots) (v : Volume) : Except ProjectFault (List Source) :=
  if r.source.text?.isNone then .error (.noTarget r.source)
  else
    match Pattern.read? r.pattern with
    | none => .error .badPattern
    | some pattern =>
      match r.sourcesAmong v (v.search pattern) with
      | .error fault => .error fault
      | .ok sources => .ok (sources.mergeSort fun a b => !decide (b.target < a.target))

end ValueClass
