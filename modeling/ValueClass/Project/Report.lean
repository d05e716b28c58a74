import ValueClass.Log
import ValueClass.Project.Build

/-!
# Log lines of a run

What a check or a generation logs, from what it found and did.
-/

namespace ValueClass

/-- The lines about finding and reading the declarations. -/
def Roots.readingLog (r : Roots) (rendered : List (Source × Except ProjectFault String)) :
    List LogLine :=
  let count := toString rendered.length
  [⟨.debug, "Discovered " ++ count ++ " declaration(s) in " ++ r.source.quoted⟩,
    ⟨.info, "Generating " ++ count ++ " unit(s) from " ++ r.source.quoted⟩]
    ++ rendered.map fun (s, _) => ⟨.debug, "Generating " ++ s.target ++ " from " ++ s.path.quoted⟩

/-- The lines of a check. -/
def Roots.checkLog (r : Roots) (v : Volume) : List LogLine :=
  match r.rendered v with
  | .error _ => []
  | .ok rendered =>
    r.readingLog rendered
      ++ [⟨.info, "Checked " ++ toString rendered.length ++ " unit(s), "
          ++ toString (failures rendered).length ++ " failed"⟩]

/-- The lines about the declarations that failed. -/
def failureLog (rendered : List (Source × Except ProjectFault String)) : List LogLine :=
  rendered.filterMap fun (s, result) =>
    match result with
    | .ok _ => none
    | .error fault => some ⟨.warn, "Failed " ++ s.path.quoted ++ ": " ++ fault.message⟩

/-- The lines about writing. -/
def Roots.writingLog (r : Roots) (progress : Progress) : List LogLine :=
  progress.written.map (fun p => ⟨.debug, "Wrote " ++ p.quoted⟩)
    ++ match progress.stop with
      | some _ => []
      | none =>
        [⟨.info, "Generated " ++ toString progress.written.length ++ " file(s) into "
            ++ r.output.quoted⟩]

/-- The lines of a generation. -/
def Roots.generationLog (r : Roots) (policy : OnFailure) (v : Volume) : List LogLine :=
  match r.rendered v with
  | .error _ => []
  | .ok rendered =>
    let failed := (failures rendered).length
    r.readingLog rendered ++ failureLog rendered
      ++ if policy = .writeNothing ∧ failed ≠ 0 then
          [⟨.warn, "Aborting: " ++ toString failed ++ " of " ++ toString rendered.length
              ++ " unit(s) failed, nothing written"⟩]
        else r.writingLog (writeAll r.output v (successes rendered))

end ValueClass
