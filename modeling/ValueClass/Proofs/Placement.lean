import ValueClass.Java.Unit
import ValueClass.Proofs.Discovery

/-!
# Targets and the paths of their sources

A target is divided three times: at its last dot into package and name, at all its dots into the
names of directories and of a file, and these are put together again to a target where a path is
read. The three agree with one another for every target that can be read and has no slash.

* `split_of_readTarget`: the segments of a target are those of its package and then its name.
* `bytes_foldl_push`: going on from a path by names writes them behind it, with slashes between.
* `namesOfTarget_of_readTarget`: the source is in the directories of its package.
* `targetOfPath_of_components`: **these names give the target again.**
* `pathOfTarget_recovers`: what a target, its package and its path have to do with each other.
-/

namespace ValueClass

open Text

variable {p output : Path} {name : Name} {names : List Name} {target package simple : String}

/-! ## Bytes of paths -/

/-- What stands in front of the names that a path goes on by: the path with a slash at its end,
unless it is empty or has one. -/
def Path.opened (p : Path) : List UInt8 :=
  if p.bytes = [] ∨ p.bytes.getLast? = some slash then p.bytes else p.bytes ++ [slash]

theorem bytes_push (h : slash ∉ name) : (p.push name).bytes = p.opened ++ name := by
  rw [push_of_not_mem h, Path.opened]
  split
  · rfl
  · simp

theorem opened_push (h : IsName name) : (p.push name).opened = p.opened ++ name ++ [slash] := by
  have hbytes := bytes_push (p := p) h.slash_not_mem
  have hempty : (p.push name).bytes ≠ [] := by simp [hbytes, h.ne_nil]
  have hlast : (p.push name).bytes.getLast? ≠ some slash := by
    rw [hbytes, List.getLast?_append]
    intro hslash
    rcases Option.or_eq_some_iff.1 hslash with hname | ⟨hname, -⟩
    · exact h.slash_not_mem (List.mem_of_getLast? hname)
    · exact h.ne_nil (List.getLast?_eq_none_iff.1 hname)
  rw [Path.opened, if_neg (not_or.2 ⟨hempty, hlast⟩), hbytes]

/-- **Going on from a path by names writes them behind it**, with slashes between. -/
theorem bytes_foldl_push (hnames : ∀ name ∈ names, IsName name) (hne : names ≠ []) (p : Path) :
    (names.foldl Path.push p).bytes = p.opened ++ (Path.ofParts names).bytes := by
  induction names generalizing p with
  | nil => exact absurd rfl hne
  | cons name rest ih =>
    obtain ⟨hname, hrest⟩ := List.forall_mem_cons.1 hnames
    rw [List.foldl_cons]
    by_cases hlast : rest = []
    · subst hlast
      rw [List.foldl_nil, bytes_push hname.slash_not_mem]
      simp [Path.ofParts]
    · rw [ih hrest hlast, opened_push hname]
      obtain ⟨next, more, rfl⟩ := List.exists_cons_of_ne_nil hlast
      simp [Path.ofParts, List.intercalate_cons_cons]

/-! ## Segments of targets -/

/-- The segments of a package. The default package has none. -/
def packageSegments (package : String) : List (List Char) :=
  if package = "" then [] else List.splitOn '.' package.toList

/-- The names of the directories of a package, and of the file of a class in it. -/
def sourceFile (package simple : String) : List Name :=
  (packageSegments package).map (fun segment => utf8 (String.ofList segment))
    ++ [utf8 (simple ++ ".java")]

/-- The segments of a target are those of its package and then its name. -/
theorem split_of_readTarget (h : readTarget target = .ok (package, simple)) :
    List.splitOn '.' target.toList = packageSegments package ++ [simple.toList] := by
  obtain ⟨hlegible, rfl⟩ := legible_of_readTarget (d := ⟨package, simple, "", []⟩) h
  rw [packageSegments]
  split
  · rename_i hempty
    rw [Description.qualifiedName, if_pos hempty,
      List.splitOn_eq_singleton hlegible.dot_not_mem_name]
    rfl
  · rename_i hfull
    rw [toList_qualifiedName hfull, split_append_dot hlegible.dot_not_mem_name]

theorem sourceNames_concat (segments : List (List Char)) (last : List Char) :
    sourceNames (segments ++ [last]) =
      segments.map (fun segment => utf8 (String.ofList segment))
        ++ [utf8 (String.ofList last ++ ".java")] := by
  induction segments with
  | nil => rfl
  | cons segment rest ih =>
    -- whether a segment is the last is seen from the next one
    obtain ⟨next, more, hrest⟩ := List.exists_cons_of_ne_nil
      (List.append_ne_nil_of_right_ne_nil rest (List.cons_ne_nil last []))
    rw [List.cons_append, hrest, sourceNames, ← hrest, ih, List.map_cons, List.cons_append]

/-- **The source of a class is in the directories of its package.** -/
theorem namesOfTarget_of_readTarget (h : readTarget target = .ok (package, simple)) :
    namesOfTarget target = sourceFile package simple := by
  rw [namesOfTarget, split_of_readTarget h, sourceNames_concat, String.ofList_toList, sourceFile]

theorem placeable_of_readTarget {parts : String × String} (h : readTarget target = .ok parts)
    (hslash : '/' ∉ target.toList) : Placeable target :=
  placeable_of_isSegment (isSegment_of_readTarget h) hslash

/-! ## Targets of paths -/

/-- A name without its ending. -/
theorem stem_append_ending {before after : Name} (hne : before ≠ []) (hdot : dot ∉ after) :
    Path.stem (before ++ dot :: after) = before := by
  obtain ⟨b, rest, rfl⟩ := List.exists_cons_of_ne_nil hne
  rw [Path.stem, cutLast_append_sep hdot]

theorem directoryNames_of_texts (texts : List String) :
    directoryNames (texts.map fun text => .name (utf8 text)) = some texts := by
  induction texts with
  | nil => rfl
  | cons text rest ih => rw [List.map_cons, directoryNames, ofUtf8?_utf8, ih]

theorem intercalate_of_readTarget (h : readTarget target = .ok (package, simple)) :
    String.intercalate "." ((packageSegments package).map String.ofList ++ [simple]) = target := by
  have hsegments : ((packageSegments package).map String.ofList ++ [simple]).map String.toList
      = List.splitOn '.' target.toList := by
    rw [split_of_readTarget h, List.map_append, List.map_map]
    have hid : String.toList ∘ String.ofList = id := funext fun _ => String.toList_ofList
    rw [hid, List.map_id]
    rfl
  rw [← String.toList_inj, String.toList_intercalate, hsegments]
  exact List.intercalate_splitOn '.'

/-- **A path that takes the steps of a source gives its target.** -/
theorem targetOfPath_of_components (h : readTarget target = .ok (package, simple))
    (hsteps : p.components = (sourceFile package simple).map .name) :
    targetOfPath p = .ok target := by
  have hsimple : simple.toList ≠ [] :=
    (legible_of_readTarget (d := ⟨package, simple, "", []⟩) h).1.isSegment_name.1
  have hne : utf8 simple ≠ [] := by
    intro hnil
    have hempty := utf8_inj.1 (hnil.trans (show [] = utf8 "" from rfl))
    exact hsimple (by rw [hempty]; rfl)
  have hstem : Path.stem (utf8 (simple ++ ".java")) = utf8 simple := by
    rw [utf8_append, show utf8 ".java" = dot :: utf8 "java" from rfl]
    exact stem_append_ending hne (by decide)
  have hdirectories : directoryNames (((packageSegments package).map
      fun segment => utf8 (String.ofList segment)).map .name)
        = some ((packageSegments package).map String.ofList) := by
    rw [← directoryNames_of_texts, List.map_map, List.map_map]
    rfl
  rw [sourceFile, List.map_append, List.map_cons, List.map_nil] at hsteps
  unfold targetOfPath Path.fileName?
  rw [hsteps, List.getLast?_concat, List.dropLast_concat, hdirectories]
  simp only [Option.map_some, Option.bind_some, hstem, ofUtf8?_utf8]
  rw [intercalate_of_readTarget h]

/-- What goes on by names from the steps of the root is named by them. -/
theorem belowRoot_of_append {source : Path}
    (h : p.components = source.components ++ names.map .name) :
    belowRoot source p = .ok (.ofParts names) := by
  unfold belowRoot
  dsimp only
  rw [List.isPrefixOf?_eq_some_iff_append_eq.2 h.symm]
  dsimp only
  rw [List.map_map]
  exact congrArg (fun parts => Except.ok (Path.ofParts parts)) (List.map_id names)

theorem components_pathOfTarget (h : readTarget target = .ok (package, simple))
    (hslash : '/' ∉ target.toList) (output : Path) :
    (pathOfTarget output target).components
      = output.components ++ (sourceFile package simple).map .name := by
  rw [pathOfTarget_eq_foldl, components_foldl_push (placeable_of_readTarget h hslash).isName,
    namesOfTarget_of_readTarget h]

theorem exists_relative_of_readTarget (h : readTarget target = .ok (package, simple))
    (hslash : '/' ∉ target.toList) (output : Path) :
    ∃ relative, belowRoot output (pathOfTarget output target) = .ok relative ∧
      output.components ++ relative.components = (pathOfTarget output target).components ∧
      targetOfPath relative = .ok target := by
  have hnames := (placeable_of_readTarget h hslash).isName
  have hcomponents := components_ofParts (namesOfTarget_ne_nil target) hnames
  rw [namesOfTarget_of_readTarget h] at hcomponents
  refine ⟨_, belowRoot_of_append (components_pathOfTarget h hslash output), ?_, ?_⟩
  · rw [hcomponents, components_pathOfTarget h hslash]
  · exact targetOfPath_of_components h hcomponents

/-- **A target, its package and the path of its source agree.** A class that is read under a target
has it for its qualified name, and the package of its unit is the one the target was divided into.
The source is in a file named after the class, in a directory for each segment of the package, below
the output root. Its path below that root gives the target again, and so no other target has that
path. -/
theorem pathOfTarget_recovers (h : readTarget target = .ok (package, simple))
    (hslash : '/' ∉ target.toList) (output : Path) :
    (∀ text d, Description.read target text = .ok d → d.qualifiedName = target ∧
        ∀ unit, Java.CompilationUnit.ofDescription d = .ok unit →
          unit.package = package ∧ unit.name = simple) ∧
      (pathOfTarget output target).bytes
        = output.opened ++ (Path.ofParts (sourceFile package simple)).bytes ∧
      (pathOfTarget output target).components
        = output.components ++ (sourceFile package simple).map .name ∧
      (∃ relative, belowRoot output (pathOfTarget output target) = .ok relative ∧
        output.components ++ relative.components = (pathOfTarget output target).components ∧
        targetOfPath relative = .ok target) ∧
      ∀ other parts, readTarget other = .ok parts → '/' ∉ other.toList →
        pathOfTarget output other = pathOfTarget output target → other = target := by
  obtain ⟨relative, hbelow, hsteps, htarget⟩ := exists_relative_of_readTarget h hslash output
  refine ⟨fun text d hread => ?_, ?_, components_pathOfTarget h hslash output,
    ⟨relative, hbelow, hsteps, htarget⟩, ?_⟩
  · obtain ⟨hlegible, hname⟩ := legible_of_read hread
    refine ⟨hname.symm, fun unit hunit => ?_⟩
    have hparts := readTarget_qualifiedName hlegible.target
    rw [← hname, h] at hparts
    cases hparts
    obtain ⟨types, -, rfl⟩ := map_eq_ok_iff.1 hunit
    exact ⟨rfl, rfl⟩
  · rw [pathOfTarget_eq_foldl, bytes_foldl_push (placeable_of_readTarget h hslash).isName
      (namesOfTarget_ne_nil target), namesOfTarget_of_readTarget h]
  · -- both targets are read off the one path
    intro other parts hother hslash' hpath
    obtain ⟨again, hbelow', -, htarget'⟩ := exists_relative_of_readTarget hother hslash' output
    rw [hpath, hbelow] at hbelow'
    cases hbelow'
    exact Except.ok.inj (htarget'.symm.trans htarget)

/-- Below a root that is spelled with a single dot and a slash at its end. -/
theorem pathOfTarget_recovers_packages :
    let target := "com.été.Person"
    let output : Path := .ofString "./o/"
    readTarget target = .ok ("com.été", "Person") ∧ '/' ∉ target.toList ∧
      pathOfTarget output target = .ofString "./o/com/été/Person.java" ∧
      (∃ relative, belowRoot output (.ofString "./o/com/été/Person.java") = .ok relative ∧
        targetOfPath relative = .ok target) ∧
      pathOfTarget output "com.été.Persons" ≠ pathOfTarget output target := by
  intro target output
  have htarget : readTarget target = .ok ("com.été", "Person") := by decide +kernel
  have hslash : '/' ∉ target.toList := by decide
  have hother : readTarget "com.été.Persons" = .ok ("com.été", "Persons") := by decide +kernel
  obtain ⟨-, hbytes, -, ⟨relative, hbelow, -, hagain⟩, hinj⟩ :=
    pathOfTarget_recovers htarget hslash output
  have hpath : pathOfTarget output target = .ofString "./o/com/été/Person.java" :=
    congrArg Path.mk (hbytes.trans (by decide +kernel))
  refine ⟨htarget, hslash, hpath, ⟨relative, hpath ▸ hbelow, hagain⟩, fun hsame => ?_⟩
  exact absurd (hinj _ _ hother (by decide) hsame) (by decide)

end ValueClass
