import ValueClass.Java.Printer
import ValueClass.Project.Discovery

/-!
# Checking and generating

All declarations are read and their classes generated before anything is written. A declaration
that fails is reported; the policy says whether the others are written then.

* `Roots.rendered` generates every class, in the order of the targets.
* `Roots.check` reports what would fail.
* `Roots.generate` writes the sources.
-/

namespace ValueClass

/-- What happens to the other declarations when one fails. -/
inductive OnFailure where
  | writeNothing
  | writeOthers
  deriving DecidableEq, Repr

instance : Inhabited OnFailure :=
  ⟨.writeNothing⟩

/-- The source of the class of a declaration file. -/
def Source.code (s : Source) (v : Volume) : Except ProjectFault String :=
  match v.readText s.path with
  | .error fault => .error (.io s.path fault)
  | .ok declaration =>
    (Java.sourceOfDeclaration s.target declaration).mapError (.declaration s.target)

/-- Every declaration with the source of its class. -/
def Roots.rendered (r : Roots) (v : Volume) :
    Except ProjectFault (List (Source × Except ProjectFault String)) :=
  (r.declarations v).map fun sources => sources.map fun s => (s, s.code v)

/-- The declarations that did not fail, with the sources of their classes. -/
def successes (rendered : List (Source × Except ProjectFault String)) : List (Source × String) :=
  rendered.filterMap fun (s, result) =>
    match result with
    | .ok code => some (s, code)
    | .error _ => none

/-- The faults of the declarations that failed. -/
def failures (rendered : List (Source × Except ProjectFault String)) : List ProjectFault :=
  rendered.filterMap fun (_, result) =>
    match result with
    | .ok _ => none
    | .error fault => some fault

/-- What a check found. -/
structure CheckResult where
  /-- The targets of the declarations that did not fail. -/
  passed : List String
  failures : List ProjectFault
  deriving DecidableEq, Repr

/-- **Generates every class and writes none.** -/
def Roots.check (r : Roots) (v : Volume) : Except ProjectFault CheckResult :=
  (r.rendered v).map fun rendered =>
    ⟨(successes rendered).map (·.1.target), failures rendered⟩

/-- What a generation did. -/
structure GenerationResult where
  /-- The files that were written. -/
  written : List Path
  failures : List ProjectFault
  deriving DecidableEq, Repr

/-- How far writing came. -/
structure Progress where
  volume : Volume
  written : List Path
  /-- What stopped it before the end. -/
  stop : Option ProjectFault
  deriving DecidableEq, Repr

/-- Writes one source, after making the directories it is in. Gives the volume afterwards, and what
stopped it. -/
def writeSource (v : Volume) (p : Path) (code : String) : Volume × Option ProjectFault :=
  let parent := p.parent?.getD ⟨[]⟩
  match v.makeDirectories parent with
  | (made, some fault) => (made, some (.io parent fault))
  | (made, none) =>
    match made.write p (Text.utf8 code) with
    | .error fault => (made, some (.io p fault))
    | .ok done => (done, none)

/-- Writes sources one after the other, up to the first that cannot be written. -/
def writeAll (output : Path) (v : Volume) : List (Source × String) → Progress
  | [] => ⟨v, [], none⟩
  | (s, code) :: rest =>
    let p := pathOfTarget output s.target
    match writeSource v p code with
    | (after, some fault) => ⟨after, [], some fault⟩
    | (after, none) =>
      let progress := writeAll output after rest
      { progress with written := p :: progress.written }

/-- The volume after a generation, and what the generation answers. -/
structure Generation where
  volume : Volume
  result : Except ProjectFault GenerationResult

/-- **Generates every class and writes the sources.** Under `writeNothing` nothing is written if
some declaration fails. -/
def Roots.generate (r : Roots) (policy : OnFailure) (v : Volume) : Generation :=
  match r.rendered v with
  | .error fault => ⟨v, .error fault⟩
  | .ok rendered =>
    if policy = .writeNothing ∧ failures rendered ≠ [] then ⟨v, .ok ⟨[], failures rendered⟩⟩
    else
      let progress := writeAll r.output v (successes rendered)
      match progress.stop with
      | some fault => ⟨progress.volume, .error fault⟩
      | none => ⟨progress.volume, .ok ⟨progress.written, failures rendered⟩⟩

end ValueClass
