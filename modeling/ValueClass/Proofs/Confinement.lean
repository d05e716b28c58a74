import ValueClass.Proofs.Generation

/-!
# What a generation leaves alone

The path of a source goes on from the output root by names only, so that it cannot lead out of it,
whatever the files and directories of the source root are called. A generation changes the files at
such paths and no others, also when it is stopped.

* `components_foldl_push`: going on from a path by names adds a step for each of them.
* `LeadsDown`: a path that leads from the output root down the segments of a target.
* `changed_of_generate`: a generation changes no files but those that the paths of sources lead to.
* `generate_confined`: **every file that changes is the source of a declaration below the output
  root**, and declarations are not changed.
-/

namespace ValueClass

open Text

variable {r : Roots} {policy : OnFailure} {v : Volume} {p output : Path} {name : Name}
  {names : List Name} {location : Location}

/-! ## The steps of a path that goes on -/

/-- The steps of the parts of a path. -/
def stepsOf (absolute : Bool) (parts : List Name) : List Path.Component :=
  if absolute then .root :: parts.filterMap Path.Component.ofPart?
  else
    match parts with
    | [] => []
    | first :: rest =>
      if first = [dot] then .current :: rest.filterMap Path.Component.ofPart?
      else (first :: rest).filterMap Path.Component.ofPart?

theorem components_eq_stepsOf (p : Path) : p.components = stepsOf p.isAbsolute p.parts :=
  rfl

theorem stepsOf_concat {part : Name} (h : part ≠ [dot]) (absolute : Bool) (parts : List Name) :
    stepsOf absolute (parts ++ [part]) =
      stepsOf absolute parts ++ (Path.Component.ofPart? part).toList := by
  have hconcat : ∀ front : List Name, (front ++ [part]).filterMap Path.Component.ofPart? =
      front.filterMap Path.Component.ofPart? ++ (Path.Component.ofPart? part).toList := by
    intro front
    rw [List.filterMap_append, List.filterMap_cons]
    cases Path.Component.ofPart? part <;> rfl
  unfold stepsOf
  cases absolute with
  | true => exact congrArg (.root :: ·) (hconcat parts)
  | false =>
    cases parts with
    | nil =>
      simp only [List.nil_append, h, if_false]
      exact hconcat []
    | cons first rest =>
      by_cases hfirst : first = [dot]
      · simp only [List.cons_append, hfirst, if_true]
        exact congrArg (.current :: ·) (hconcat rest)
      · simp only [List.cons_append, hfirst, if_false]
        exact hconcat (first :: rest)

/-- A slash at the end of a path makes for an empty part, which nothing goes on from. -/
theorem parts_eq_base (p : Path) : p.parts = p.base ∨ p.parts = p.base ++ [[]] := by
  unfold Path.base
  split
  · rename_i hend
    right
    rcases hend with hempty | hlast
    · simp only [Path.parts, hempty]
      rfl
    · obtain ⟨before, hbefore⟩ := List.getLast?_eq_some_iff.1 hlast
      have hparts : p.parts = List.splitOn slash before ++ [[]] := by
        rw [Path.parts, hbefore, List.splitOn_append_cons_self]
        rfl
      rw [hparts, List.dropLast_concat]
  · exact .inl rfl

theorem components_eq_base (p : Path) : p.components = stepsOf p.isAbsolute p.base := by
  rw [components_eq_stepsOf]
  rcases parts_eq_base p with hparts | hparts
  · rw [hparts]
  · rw [hparts, stepsOf_concat (by decide)]
    exact List.append_nil _

theorem ofPart?_of_isName (h : IsName name) :
    Path.Component.ofPart? name = some (.name name) := by
  rw [Path.Component.ofPart?, if_neg (not_or.2 ⟨h.ne_nil, h.ne_dot⟩), if_neg h.ne_dots]

theorem ofPart?_ne_current (part : Name) : Path.Component.ofPart? part ≠ some .current := by
  unfold Path.Component.ofPart?
  split
  · nofun
  split <;> nofun

theorem components_push {part : Name} (hslash : slash ∉ part) (hdot : part ≠ [dot]) :
    (p.push part).components = p.components ++ (Path.Component.ofPart? part).toList := by
  rw [components_eq_stepsOf, isAbsolute_push hslash, parts_push hslash, stepsOf_concat hdot,
    ← components_eq_base]

/-- **Going on from a path by names adds a step for each of them.** -/
theorem components_foldl_push (h : ∀ name ∈ names, IsName name) (p : Path) :
    (names.foldl Path.push p).components = p.components ++ names.map .name := by
  induction names generalizing p with
  | nil => simp
  | cons name rest ih =>
    obtain ⟨hname, hrest⟩ := List.forall_mem_cons.1 h
    rw [List.foldl_cons, ih hrest, components_push hname.slash_not_mem hname.ne_dot,
      ofPart?_of_isName hname, List.map_cons, List.append_assoc]
    rfl

theorem bytes_prefix_push (h : slash ∉ name) (p : Path) : p.bytes <+: (p.push name).bytes := by
  rw [push_of_not_mem h]
  split
  · exact List.prefix_append _ _
  · exact List.prefix_append _ _

theorem bytes_prefix_foldl_push (h : ∀ name ∈ names, IsName name) (p : Path) :
    p.bytes <+: (names.foldl Path.push p).bytes := by
  induction names generalizing p with
  | nil => exact List.prefix_rfl
  | cons name rest ih =>
    obtain ⟨hname, hrest⟩ := List.forall_mem_cons.1 h
    exact (bytes_prefix_push hname.slash_not_mem p).trans (ih hrest (p.push name))

/-! ## Output paths -/

/-- **A path that leads from the output root down the segments of a target.** The last name has the
ending of sources, and none can lead elsewhere. -/
structure LeadsDown (output : Path) (target : String) (p : Path) : Prop where
  segments : ∀ segment ∈ List.splitOn '.' target.toList,
    IsSegment segment ∧ '.' ∉ segment ∧ '/' ∉ segment
  components : p.components = output.components ++ (namesOfTarget target).map .name
  bytes : output.bytes <+: p.bytes

theorem leadsDown_of_code {s : Source} {code : String} (h : s.code v = .ok code)
    (hslash : '/' ∉ s.target.toList) (output : Path) :
    LeadsDown output s.target (pathOfTarget output s.target) := by
  have hplaceable := placeable_of_code h hslash
  refine ⟨fun segment hsegment => ?_, ?_, ?_⟩
  · exact ⟨isSegment_of_code h segment hsegment, not_mem_of_mem_splitOn hsegment,
      (hplaceable segment hsegment).2⟩
  · rw [pathOfTarget_eq_foldl, components_foldl_push hplaceable.isName]
  · rw [pathOfTarget_eq_foldl]
    exact bytes_prefix_foldl_push hplaceable.isName output

theorem exists_sourceNames_eq {segments : List (List Char)} (h : segments ≠ []) :
    ∃ front last, sourceNames segments = front ++ [utf8 (String.ofList last ++ ".java")] := by
  fun_induction sourceNames segments with
  | case1 => exact absurd rfl h
  | case2 last => exact ⟨[], last, rfl⟩
  | case3 segment next rest ih =>
    obtain ⟨front, last, heq⟩ := ih (List.cons_ne_nil _ _)
    exact ⟨utf8 (String.ofList segment) :: front, last, by rw [heq, List.cons_append]⟩

/-- The last name of a source has the ending of sources. -/
theorem exists_namesOfTarget_eq (target : String) :
    ∃ front last, namesOfTarget target = front ++ [utf8 (String.ofList last ++ ".java")] := by
  obtain ⟨first, rest, hsegments⟩ := exists_splitOn_eq '.' target.toList
  rw [namesOfTarget, hsegments]
  exact exists_sourceNames_eq (List.cons_ne_nil _ _)

/-- A file is not both a source and a declaration. -/
theorem not_sourceEnding_suffix (text : String) : ¬sourceEnding <:+ utf8 (text ++ ".java") := by
  rintro ⟨front, hfront⟩
  have hlast := congrArg List.getLast? hfront
  rw [utf8_append, List.getLast?_append, List.getLast?_append,
    show sourceEnding.getLast? = some 0x65 from rfl,
    show (utf8 ".java").getLast? = some 0x61 from rfl] at hlast
  exact absurd hlast (by simp)

/-! ## What changes -/

/-- The declarations for which there is a source. -/
def Roots.renderable (r : Roots) (v : Volume) : List Source :=
  match r.declarations v with
  | .error _ => []
  | .ok sources => sources.filter (·.renders v)

theorem renderable_eq {sources : List Source} (h : r.declarations v = .ok sources) :
    r.renderable v = sources.filter (·.renders v) := by
  rw [Roots.renderable, h]

theorem mem_renderable_of_mem_successes {sources : List Source}
    (h : r.declarations v = .ok sources) {o : Source × String}
    (ho : o ∈ successes (renderedFrom v sources)) : o.1 ∈ r.renderable v := by
  obtain ⟨hs, hcode⟩ := mem_successes_iff.1 ho
  rw [renderable_eq h, List.mem_filter]
  exact ⟨hs, by rw [Source.renders, hcode]; rfl⟩

/-- A declaration for which there is a source has a target that can be looked at segment by
segment. -/
theorem exists_code_of_renderable {s : Source} (h : s ∈ r.renderable v) :
    ∃ code, s.code v = .ok code ∧ '/' ∉ s.target.toList := by
  unfold Roots.renderable at h
  split at h
  · cases h
  rename_i sources hsources
  obtain ⟨hs, hrenders⟩ := List.mem_filter.1 h
  have hslash := slash_not_mem_of_declarations hsources s hs
  unfold Source.renders at hrenders
  cases hcode : s.code v with
  | ok code => exact ⟨code, rfl, hslash⟩
  | error fault =>
    rw [hcode] at hrenders
    cases hrenders

/-- **A generation changes no files but those that the paths of sources lead to**, whether or not it
comes to its end. -/
theorem changed_of_generate (r : Roots) (policy : OnFailure) (v : Volume) :
    ∃ changed, v.Rewritten changed (r.generate policy v).volume ∧
      ∀ location ∈ changed, ∃ s ∈ r.renderable v,
        (r.generate policy v).volume.resolve (pathOfTarget r.output s.target) = .ok location := by
  obtain ⟨fault, -, hgenerate⟩ | ⟨sources, hsources, hcases⟩ := generate_cases r policy v
  · rw [hgenerate]
    exact ⟨[], .refl v, nofun⟩
  obtain ⟨changed, hrewritten, hchanged⟩ :=
    rewritten_of_writeAll r.output v (successes (renderedFrom v sources))
  have hrenderable : ∀ location ∈ changed, ∃ s ∈ r.renderable v,
      (writeAll r.output v (successes (renderedFrom v sources))).volume.resolve
        (pathOfTarget r.output s.target) = .ok location := by
    intro location hlocation
    obtain ⟨o, ho, hresolve⟩ := hchanged location hlocation
    exact ⟨o.1, mem_renderable_of_mem_successes hsources ho, hresolve⟩
  obtain ⟨-, hgenerate⟩ | ⟨-, ⟨fault, -, hgenerate⟩ | ⟨-, hgenerate⟩⟩ := hcases
  · rw [hgenerate]
    exact ⟨[], .refl v, nofun⟩
  · rw [hgenerate]
    exact ⟨changed, hrewritten, hrenderable⟩
  · rw [hgenerate]
    exact ⟨changed, hrewritten, hrenderable⟩

theorem written_of_generate {result : GenerationResult}
    (h : (r.generate policy v).result = .ok result) :
    ∀ p ∈ result.written, ∃ s ∈ r.renderable v, p = pathOfTarget r.output s.target := by
  obtain ⟨sources, hsources, -, ⟨-, hwritten⟩ | ⟨-, hwritten⟩⟩ := result_of_generate h
  · rw [hwritten]
    exact nofun
  · intro p hp
    rw [hwritten, renderedTargets, ← renderable_eq hsources] at hp
    obtain ⟨target, htarget, rfl⟩ := List.mem_map.1 hp
    obtain ⟨s, hs, rfl⟩ := List.mem_map.1 htarget
    exact ⟨s, hs, rfl⟩

/-- **The path of a source leads to a place below the output root.** -/
theorem exists_root_of_resolve {target : String} (h : Placeable target)
    (hresolve : v.resolve (pathOfTarget output target) = .ok location)
    (hbytes : output.bytes ≠ []) :
    ∃ root, v.resolve output = .ok root ∧ location = root ++ namesOfTarget target := by
  rw [pathOfTarget_eq_foldl] at hresolve
  obtain ⟨root, hroot, hdirectory, hlocation⟩ :=
    resolve_foldl_push h.isName (namesOfTarget_ne_nil target) hresolve
  refine ⟨root, ?_, hlocation⟩
  refine resolve_eq_ok_iff.2 ⟨hbytes, ?_⟩
  rcases parts_eq_base output with hparts | hparts
  · rw [hparts, hroot]
  · -- the empty part after a slash stays in the directory
    rw [hparts, follow_append, hroot]
    simp [Except.bind, Volume.follow, hdirectory]

/-- A source that is written has no name of a declaration. -/
theorem not_declaration_of_resolve {target : String} (h : Placeable target)
    (hresolve : v.resolve (pathOfTarget output target) = .ok location) {front : List Name}
    (hlocation : location = front ++ [name]) : ¬sourceEnding <:+ name := by
  rw [pathOfTarget_eq_foldl] at hresolve
  obtain ⟨root, -, -, hfound⟩ :=
    resolve_foldl_push h.isName (namesOfTarget_ne_nil target) hresolve
  obtain ⟨before, last, hnames⟩ := exists_namesOfTarget_eq target
  have hends : front ++ [name] = (root ++ before) ++ [utf8 (String.ofList last ++ ".java")] := by
    rw [← hlocation, hfound, hnames, List.append_assoc]
  obtain ⟨-, hname⟩ := List.append_inj' hends rfl
  rw [List.singleton_inj.1 hname]
  exact not_sourceEnding_suffix _

/-- The file at a location is the same as before, or there is none as before. -/
def SameFile (v after : Volume) (location : Location) : Prop :=
  ∀ content, after.lookup location = some (.file content) ↔
    v.lookup location = some (.file content)

/-- **A generation stays below the output root and changes nothing else.** The path of each source
leads down from the output root by the segments of its target. A file that is not the same as before
is where such a path leads, whatever the generation answers. The files of declarations all stay the
same. -/
theorem generate_confined (r : Roots) (policy : OnFailure) (v : Volume) :
    let after := (r.generate policy v).volume
    (∀ s ∈ r.renderable v, LeadsDown r.output s.target (pathOfTarget r.output s.target)) ∧
      (∀ result, (r.generate policy v).result = .ok result → ∀ p ∈ result.written,
        ∃ s ∈ r.renderable v, p = pathOfTarget r.output s.target) ∧
      (∀ location, SameFile v after location ∨ ∃ s ∈ r.renderable v,
        after.resolve (pathOfTarget r.output s.target) = .ok location ∧
          (r.output.bytes ≠ [] → ∃ root, after.resolve r.output = .ok root ∧
            location = root ++ namesOfTarget s.target)) ∧
      ∀ front name, sourceEnding <:+ name → SameFile v after (front ++ [name]) := by
  intro after
  obtain ⟨changed, hrewritten, hchanged⟩ := changed_of_generate r policy v
  have hplaceable : ∀ s ∈ r.renderable v, Placeable s.target := by
    intro s hs
    obtain ⟨code, hcode, hslash⟩ := exists_code_of_renderable hs
    exact placeable_of_code hcode hslash
  have hsame : ∀ location, location ∉ changed → SameFile v after location :=
    fun location hout content => hrewritten.lookup_file_iff hout
  refine ⟨fun s hs => ?_, fun result => written_of_generate, fun location => ?_,
    fun front name hending => ?_⟩
  · obtain ⟨code, hcode, hslash⟩ := exists_code_of_renderable hs
    exact leadsDown_of_code hcode hslash r.output
  · by_cases hmem : location ∈ changed
    · obtain ⟨s, hs, hresolve⟩ := hchanged location hmem
      exact .inr ⟨s, hs, hresolve, exists_root_of_resolve (hplaceable s hs) hresolve⟩
    · exact .inl (hsame location hmem)
  · refine hsame _ fun hmem => ?_
    obtain ⟨s, hs, hresolve⟩ := hchanged _ hmem
    exact not_declaration_of_resolve (hplaceable s hs) hresolve rfl hending

/-- Sources are written beside their declarations, of which one is named by dots alone. -/
theorem generate_confined_one_root :
    let v : Volume := ⟨[([utf8 "s"], .directory), ([utf8 "s", utf8 "...scroole"], .file []),
      ([utf8 "s", utf8 "A.scroole"], .file [])], [], []⟩
    let r : Roots := ⟨.ofString "s", .ofString "s"⟩
    let generation := r.generate .writeOthers v
    (∃ result, generation.result = .ok result ∧ .ofString "s/A.java" ∈ result.written) ∧
      LeadsDown r.output "A" (.ofString "s/A.java") ∧
      generation.volume.lookup [utf8 "s", utf8 "A.scroole"] = some (.file []) ∧
      generation.volume.lookup [utf8 "s", utf8 "...scroole"] = some (.file []) := by
  intro v r generation
  let a : Source := ⟨"A", .ofString "s/A.scroole"⟩
  let dots : Source := ⟨"..", .ofString "s/...scroole"⟩
  let code := (Java.CompilationUnit.ofTypes ⟨"", "A", "", []⟩ []).text
  have hwalk : walk v r.sought = .ok (some r.source) := by decide +kernel
  have hroot : v.resolve r.source = .ok [utf8 "s"] := by decide +kernel
  have hsources : r.declarations v = .ok [dots, a] :=
    declarations_of_sorted (by decide +kernel) hwalk hroot (by decide +kernel) (by decide +kernel)
      (by decide +kernel)
  have hdots : dots.code v = .error (.declaration ".." (.target ".." .emptySegment)) := by
    decide +kernel
  have ha : a.code v = .ok code := code_of_empty (by decide +kernel) (by decide +kernel)
  have hsuccesses : successes (renderedFrom v [dots, a]) = [(a, code)] := by
    simp only [renderedFrom, List.map_cons, List.map_nil, ha, hdots]
    rfl
  have hrenderable : a ∈ r.renderable v :=
    mem_renderable_of_mem_successes (o := (a, code)) hsources (by rw [hsuccesses]; simp)
  have hpath : pathOfTarget r.output a.target = .ofString "s/A.java" := by decide +kernel
  have hstop : (writeAll r.output v (successes (renderedFrom v [dots, a]))).stop = none := by
    rw [hsuccesses]
    decide +kernel
  have hresult := congrArg Generation.result
    (generate_of_stop hsources (not_withholds_writeOthers v [dots, a]) hstop)
  obtain ⟨hleads, -, -, hsame⟩ := generate_confined r .writeOthers v
  refine ⟨⟨_, hresult, ?_⟩, hpath ▸ hleads a hrenderable, ?_, ?_⟩
  · rw [renderedTargets_eq, hsuccesses, ← hpath]
    exact List.mem_singleton_self _
  · exact (hsame [utf8 "s"] (utf8 "A.scroole") (by decide) []).2 (by decide +kernel)
  · exact (hsame [utf8 "s"] (utf8 "...scroole") (by decide) []).2 (by decide +kernel)

end ValueClass
