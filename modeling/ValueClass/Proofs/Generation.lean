import Mathlib.Data.List.Nodup
import ValueClass.Project.Build
import ValueClass.Proofs.Layout
import ValueClass.Proofs.Legible
import ValueClass.Proofs.Nesting

/-!
# What a generation leaves on the volume

Sources are written one after the other. Each is in a file of its own unless two declarations have
the same target, and then the later one is what remains.

* `rewritten_of_writeSource`: writing a source changes one file.
* `read_of_writeAll`: **a source is still in its file after those that come later are written**, if
  none of these has its target.
* `sources_of_generate`: after a generation every target that only one declaration has leads to the
  source of this declaration, unless one failed and nothing was to be written then.
-/

namespace ValueClass

open Text

variable {r : Roots} {policy : OnFailure} {v after : Volume} {p output : Path} {s : Source}
  {code : String} {outputs : List (Source × String)}

/-! ## Writing sources -/

/-- Writing a source changes one file, which its path then leads to. -/
theorem rewritten_of_writeSource (h : writeSource v p code = (after, none)) :
    ∃ location, v.Rewritten [location] after ∧ after.resolve p = .ok location ∧
      after.lookup location = some (.file (utf8 code)) := by
  have hmade := rewritten_of_makeDirectories v (p.parent?.getD ⟨[]⟩)
  unfold writeSource at h
  dsimp only at h
  split at h
  · cases h
  rename_i made hmake
  rw [hmake] at hmade
  split at h
  · cases h
  rename_i done hwrite
  cases h
  obtain ⟨location, hwritten, hresolve, hlookup⟩ := rewritten_of_write hwrite
  exact ⟨location, hmade.trans hwritten, hresolve, hlookup⟩

/-- Whether or not a source could be written, no file changes but the one its path leads to. -/
theorem changed_of_writeSource (v : Volume) (p : Path) (code : String) :
    ∃ changed, v.Rewritten changed (writeSource v p code).1 ∧
      ∀ location ∈ changed, (writeSource v p code).1.resolve p = .ok location := by
  cases hwrite : writeSource v p code with
  | mk after stop =>
    cases stop with
    | none =>
      obtain ⟨location, hrewritten, hresolve, -⟩ := rewritten_of_writeSource hwrite
      refine ⟨[location], hrewritten, fun l hl => ?_⟩
      rwa [List.mem_singleton.1 hl]
    | some fault =>
      -- what was stopped has made directories at most
      have hmade := rewritten_of_makeDirectories v (p.parent?.getD ⟨[]⟩)
      refine ⟨[], ?_, nofun⟩
      unfold writeSource at hwrite
      dsimp only at hwrite
      split at hwrite
      · rename_i made _ hmake
        cases hwrite
        rwa [hmake] at hmade
      · rename_i made hmake
        rw [hmake] at hmade
        split at hwrite
        · cases hwrite
          exact hmade
        · cases hwrite

theorem writeAll_cons_of_fault {rest : List (Source × String)} {fault : ProjectFault}
    (h : writeSource v (pathOfTarget output s.target) code = (after, some fault)) :
    writeAll output v ((s, code) :: rest) = ⟨after, [], some fault⟩ := by
  rw [writeAll.eq_def]
  simp only [h]

theorem writeAll_cons_of_writeSource {rest : List (Source × String)}
    (h : writeSource v (pathOfTarget output s.target) code = (after, none)) :
    writeAll output v ((s, code) :: rest) =
      { writeAll output after rest with
        written := pathOfTarget output s.target :: (writeAll output after rest).written } := by
  -- the equation for this case alone cannot be had without running the writing
  rw [writeAll.eq_def]
  simp only [h]

/-- Writing goes on after a source only if that one could be written. -/
theorem exists_writeSource_of_writeAll {rest : List (Source × String)}
    (h : (writeAll output v ((s, code) :: rest)).stop = none) :
    ∃ next, writeSource v (pathOfTarget output s.target) code = (next, none) ∧
      (writeAll output next rest).stop = none := by
  cases hwrite : writeSource v (pathOfTarget output s.target) code with
  | mk next fault =>
    cases fault with
    | some fault =>
      rw [writeAll_cons_of_fault hwrite] at h
      cases h
    | none =>
      rw [writeAll_cons_of_writeSource hwrite] at h
      exact ⟨next, rfl, h⟩

theorem written_of_writeAll (h : (writeAll output v outputs).stop = none) :
    (writeAll output v outputs).written = outputs.map (pathOfTarget output ·.1.target) := by
  induction outputs generalizing v with
  | nil => rfl
  | cons first rest ih =>
    obtain ⟨next, hnext, hstop⟩ := exists_writeSource_of_writeAll h
    rw [writeAll_cons_of_writeSource hnext, List.map_cons, ih hstop]

/-- Writing sources changes no files but those their paths lead to, and so does writing that is
stopped. -/
theorem rewritten_of_writeAll (output : Path) (v : Volume) (outputs : List (Source × String)) :
    ∃ changed, v.Rewritten changed (writeAll output v outputs).volume ∧
      ∀ location ∈ changed, ∃ o ∈ outputs,
        (writeAll output v outputs).volume.resolve (pathOfTarget output o.1.target)
          = .ok location := by
  induction outputs generalizing v with
  | nil => exact ⟨[], .refl v, nofun⟩
  | cons first rest ih =>
    obtain ⟨s, code⟩ := first
    obtain ⟨here, hfirst, hresolve⟩ := changed_of_writeSource v (pathOfTarget output s.target) code
    cases hwrite : writeSource v (pathOfTarget output s.target) code with
    | mk next stop =>
      rw [hwrite] at hfirst hresolve
      cases stop with
      | some fault =>
        rw [writeAll_cons_of_fault hwrite]
        exact ⟨here, hfirst, fun l hl => ⟨(s, code), List.mem_cons_self, hresolve l hl⟩⟩
      | none =>
        obtain ⟨changed, hrest, hchanged⟩ := ih next
        rw [writeAll_cons_of_writeSource hwrite]
        -- where the first source went, its path still leads when the others are written
        refine ⟨here ++ changed, hfirst.trans hrest, fun l hl => ?_⟩
        rcases List.mem_append.1 hl with hl | hl
        · exact ⟨(s, code), List.mem_cons_self, resolve_of_rewritten hrest (hresolve l hl)⟩
        · obtain ⟨o, ho, hlast⟩ := hchanged l hl
          exact ⟨o, List.mem_cons_of_mem _ ho, hlast⟩

/-- **A source is still in its file after those that come later are written**, if none of these has
its target. -/
theorem read_of_writeAll {front back : List (Source × String)}
    (h : (writeAll output v (front ++ (s, code) :: back)).stop = none)
    (hs : Placeable s.target) (hback : ∀ o ∈ back, Placeable o.1.target ∧ o.1.target ≠ s.target) :
    (writeAll output v (front ++ (s, code) :: back)).volume.read (pathOfTarget output s.target)
      = .ok (utf8 code) := by
  induction front generalizing v with
  | nil =>
    rw [List.nil_append] at h ⊢
    obtain ⟨next, hnext, hstop⟩ := exists_writeSource_of_writeAll h
    obtain ⟨location, -, hresolve, hlookup⟩ := rewritten_of_writeSource hnext
    obtain ⟨changed, hrest, hchanged⟩ := rewritten_of_writeAll output next back
    rw [writeAll_cons_of_writeSource hnext]
    have hplace := resolve_of_rewritten hrest hresolve
    obtain ⟨content, hcontent, hsame⟩ := hrest.file hlookup
    -- a later source in this place would have the target of this one
    have hkept : location ∉ changed := by
      intro hmem
      obtain ⟨o, ho, hother⟩ := hchanged location hmem
      obtain ⟨hplaceable, hne⟩ := hback o ho
      exact hne (eq_of_resolve_pathOfTarget hplaceable hs hother hplace)
    rw [hsame hkept] at hcontent
    exact read_of_resolve hplace hcontent
  | cons first front ih =>
    rw [List.cons_append] at h ⊢
    obtain ⟨next, hnext, hstop⟩ := exists_writeSource_of_writeAll h
    rw [writeAll_cons_of_writeSource hnext]
    exact ih hstop

/-! ## Generating -/

/-- Whether there is a source for a declaration file. -/
def Source.renders (s : Source) (v : Volume) : Bool :=
  (s.code v).isOk

/-- The source of a declaration that can be read, and whose types can. -/
theorem code_of_readAll {declaration : String} {d : Description} {types : List FieldType}
    (htext : v.readText s.path = .ok declaration)
    (hread : Description.read s.target declaration = .ok d)
    (htypes : FieldType.readAll (d.fields.map (·.descriptor.toList)) = .ok types) :
    s.code v = .ok (Java.CompilationUnit.ofTypes d types).text := by
  rw [Source.code, htext]
  dsimp only
  rw [Java.sourceOfDeclaration, hread]
  dsimp only
  rw [Java.sourceOf, Java.CompilationUnit.ofDescription, htypes]
  rfl

/-- The source of an empty declaration whose target can be read. -/
theorem code_of_empty {package name : String} (htext : v.readText s.path = .ok "")
    (htarget : readTarget s.target = .ok (package, name)) :
    s.code v = .ok (Java.CompilationUnit.ofTypes ⟨package, name, "", []⟩ []).text := by
  have hread : Description.read s.target "" = .ok ⟨package, name, "", []⟩ := by
    rw [Description.read, htarget]
    rfl
  have htypes : FieldType.readAll [] = .ok [] := by rw [FieldType.readAll]
  exact code_of_readAll htext hread htypes

theorem isSegment_of_readTarget {target : String} {parts : String × String}
    (h : readTarget target = .ok parts) :
    ∀ segment ∈ List.splitOn '.' target.toList, IsSegment segment := by
  unfold readTarget at h
  split at h
  · cases h
  split at h
  · cases h
  rename_i hflaw
  exact targetFlaw?_eq_none_iff.1 hflaw

/-- There is a source only for a target that was looked at segment by segment. -/
theorem isSegment_of_code (h : s.code v = .ok code) :
    ∀ segment ∈ List.splitOn '.' s.target.toList, IsSegment segment := by
  unfold Source.code at h
  split at h
  · cases h
  rename_i declaration hdeclaration
  unfold Java.sourceOfDeclaration at h
  split at h
  · cases h
  rename_i d hread
  unfold Description.read at hread
  split at hread
  · cases hread
  rename_i package name htarget
  exact isSegment_of_readTarget htarget

theorem placeable_of_isSegment {target : String}
    (h : ∀ segment ∈ List.splitOn '.' target.toList, IsSegment segment)
    (hslash : '/' ∉ target.toList) : Placeable target := by
  intro segment hsegment
  exact ⟨(h segment hsegment).1, fun hmem => hslash (mem_of_mem_splitOn hsegment hmem)⟩

theorem placeable_of_code (h : s.code v = .ok code) (hslash : '/' ∉ s.target.toList) :
    Placeable s.target :=
  placeable_of_isSegment (isSegment_of_code h) hslash

/-- The declarations with what rendering each comes to. -/
def renderedFrom (v : Volume) (sources : List Source) :
    List (Source × Except ProjectFault String) :=
  sources.map fun s => (s, s.code v)

theorem mem_successes_iff {sources : List Source} :
    (s, code) ∈ successes (renderedFrom v sources) ↔ s ∈ sources ∧ s.code v = .ok code := by
  rw [successes, renderedFrom, List.filterMap_map, List.mem_filterMap]
  constructor
  · rintro ⟨t, ht, hsome⟩
    dsimp only [Function.comp_apply] at hsome
    split at hsome
    · rename_i result hcode
      cases hsome
      exact ⟨ht, hcode⟩
    · cases hsome
  · rintro ⟨hs, hcode⟩
    exact ⟨s, hs, by simp only [Function.comp_apply, hcode]⟩

theorem mem_failures_iff {sources : List Source} {fault : ProjectFault} :
    fault ∈ failures (renderedFrom v sources) ↔ ∃ s ∈ sources, s.code v = .error fault := by
  rw [failures, renderedFrom, List.filterMap_map, List.mem_filterMap]
  refine exists_congr fun s => and_congr_right fun _ => ?_
  rw [Function.comp_apply]
  cases s.code v with
  | ok code => simp
  | error found => simp

/-- The targets of the declarations for which there is a source. -/
def renderedTargets (v : Volume) (sources : List Source) : List String :=
  (sources.filter (·.renders v)).map (·.target)

theorem renderedTargets_eq (v : Volume) (sources : List Source) :
    renderedTargets v sources = (successes (renderedFrom v sources)).map (·.1.target) := by
  induction sources with
  | nil => rfl
  | cons s rest ih =>
    rw [renderedTargets, renderedFrom, List.map_cons, successes, List.filterMap_cons,
      List.filter_cons, Source.renders]
    cases hcode : s.code v with
    | error fault => exact ih
    | ok code => exact congrArg (s.target :: ·) ih

theorem written_of_successes {sources : List Source}
    (h : (writeAll output v (successes (renderedFrom v sources))).stop = none) :
    (writeAll output v (successes (renderedFrom v sources))).written =
      (renderedTargets v sources).map (pathOfTarget output) := by
  rw [written_of_writeAll h, renderedTargets_eq, List.map_map]
  rfl

theorem failures_ne_nil_iff {sources : List Source} :
    failures (renderedFrom v sources) ≠ [] ↔ ∃ s ∈ sources, s.renders v = false := by
  rw [failures, renderedFrom, List.filterMap_map, Ne, List.filterMap_eq_nil_iff, not_forall₂]
  simp only [exists_prop]
  refine exists_congr fun s => and_congr_right fun _ => ?_
  rw [Function.comp_apply, Source.renders]
  cases s.code v with
  | error fault => exact ⟨fun _ => rfl, fun _ => nofun⟩
  | ok code => exact ⟨fun h => absurd rfl h, nofun⟩

/-- Some declaration fails, and nothing is to be written then. -/
def OnFailure.Withholds (policy : OnFailure) (v : Volume) (sources : List Source) : Prop :=
  policy = .writeNothing ∧ ∃ s ∈ sources, s.renders v = false

theorem not_withholds_writeOthers (v : Volume) (sources : List Source) :
    ¬OnFailure.writeOthers.Withholds v sources := by
  rintro ⟨hpolicy, -⟩
  cases hpolicy

/-- **What a generation can come to.** It finds no declarations, or it withholds the sources, or it
writes them and is stopped or comes to an end. -/
theorem generate_cases (r : Roots) (policy : OnFailure) (v : Volume) :
    (∃ fault, r.declarations v = .error fault ∧ r.generate policy v = ⟨v, .error fault⟩) ∨
      ∃ sources, r.declarations v = .ok sources ∧
        let rendered := renderedFrom v sources
        let progress := writeAll r.output v (successes rendered)
        (policy.Withholds v sources ∧ r.generate policy v = ⟨v, .ok ⟨[], failures rendered⟩⟩) ∨
          (¬policy.Withholds v sources ∧
            ((∃ fault, progress.stop = some fault ∧
                r.generate policy v = ⟨progress.volume, .error fault⟩) ∨
              (progress.stop = none ∧
                r.generate policy v =
                  ⟨progress.volume, .ok ⟨progress.written, failures rendered⟩⟩))) := by
  cases hsources : r.declarations v with
  | error fault =>
    have hrendered : r.rendered v = .error fault := by
      rw [Roots.rendered, hsources]
      rfl
    exact .inl ⟨fault, rfl, by rw [Roots.generate, hrendered]⟩
  | ok sources =>
    refine .inr ⟨sources, rfl, ?_⟩
    intro rendered progress
    have hrendered : r.rendered v = .ok rendered := by
      rw [Roots.rendered, hsources]
      rfl
    have hwithholds : policy.Withholds v sources ↔
        policy = .writeNothing ∧ failures rendered ≠ [] := by
      rw [OnFailure.Withholds, failures_ne_nil_iff]
    rw [Roots.generate, hrendered, hwithholds]
    by_cases hfailed : policy = .writeNothing ∧ failures rendered ≠ []
    · exact .inl ⟨hfailed, if_pos hfailed⟩
    · refine .inr ⟨hfailed, ?_⟩
      dsimp only
      rw [if_neg hfailed]
      cases hstop : progress.stop with
      | some fault => exact .inl ⟨fault, rfl, rfl⟩
      | none => exact .inr ⟨rfl, rfl⟩

/-- **What a generation that comes to its end reports.** -/
theorem result_of_generate {result : GenerationResult}
    (h : (r.generate policy v).result = .ok result) :
    ∃ sources, r.declarations v = .ok sources ∧
      result.failures = failures (renderedFrom v sources) ∧
      (policy.Withholds v sources ∧ result.written = [] ∨
        ¬policy.Withholds v sources ∧
          result.written = (renderedTargets v sources).map (pathOfTarget r.output)) := by
  obtain ⟨fault, -, hgenerate⟩ | ⟨sources, hsources, hcases⟩ := generate_cases r policy v
  · rw [hgenerate] at h
    cases h
  refine ⟨sources, hsources, ?_⟩
  obtain ⟨hwithholds, hgenerate⟩ | ⟨hgo, ⟨fault, -, hgenerate⟩ | ⟨hstop, hgenerate⟩⟩ := hcases
  · rw [hgenerate] at h
    cases h
    exact ⟨rfl, .inl ⟨hwithholds, rfl⟩⟩
  · rw [hgenerate] at h
    cases h
  · rw [hgenerate] at h
    cases h
    exact ⟨rfl, .inr ⟨hgo, written_of_successes hstop⟩⟩

theorem generate_of_withholds {sources : List Source} (hsources : r.declarations v = .ok sources)
    (h : policy.Withholds v sources) :
    r.generate policy v = ⟨v, .ok ⟨[], failures (renderedFrom v sources)⟩⟩ := by
  obtain ⟨fault, hfault, -⟩ | ⟨found, hfound, hcases⟩ := generate_cases r policy v
  · cases hsources.symm.trans hfault
  cases hsources.symm.trans hfound
  obtain ⟨-, hgenerate⟩ | ⟨hgo, -⟩ := hcases
  · exact hgenerate
  · exact absurd h hgo

/-- A generation that is not stopped writes a file for every declaration that has a source. -/
theorem generate_of_stop {sources : List Source} (hsources : r.declarations v = .ok sources)
    (hgo : ¬policy.Withholds v sources)
    (hstop : (writeAll r.output v (successes (renderedFrom v sources))).stop = none) :
    r.generate policy v =
      ⟨(writeAll r.output v (successes (renderedFrom v sources))).volume,
        .ok ⟨(renderedTargets v sources).map (pathOfTarget r.output),
          failures (renderedFrom v sources)⟩⟩ := by
  obtain ⟨fault, hfault, -⟩ | ⟨found, hfound, hcases⟩ := generate_cases r policy v
  · cases hsources.symm.trans hfault
  cases hsources.symm.trans hfound
  obtain ⟨hwithholds, -⟩ | ⟨-, hcases⟩ := hcases
  · exact absurd hwithholds hgo
  obtain ⟨fault, hfault, -⟩ | ⟨-, hgenerate⟩ := hcases
  · cases hstop.symm.trans hfault
  · rw [hgenerate, written_of_successes hstop]

section Declarations

variable {sources : List Source} (hsources : r.declarations v = .ok sources)

include hsources

theorem placeable_of_mem_successes {o : Source × String}
    (ho : o ∈ successes (renderedFrom v sources)) : Placeable o.1.target := by
  obtain ⟨hs, hcode⟩ := mem_successes_iff.1 ho
  exact placeable_of_code hcode (slash_not_mem_of_declarations hsources o.1 hs)

theorem nodup_map_pathOfTarget (h : (renderedTargets v sources).Nodup) :
    ((renderedTargets v sources).map (pathOfTarget output)).Nodup := by
  have hplaceable : ∀ target ∈ renderedTargets v sources, Placeable target := by
    intro target htarget
    rw [renderedTargets_eq] at htarget
    obtain ⟨o, ho, rfl⟩ := List.mem_map.1 htarget
    exact placeable_of_mem_successes hsources ho
  exact h.map_on fun a ha b hb => pathOfTarget_inj (hplaceable a ha) (hplaceable b hb)

theorem read_of_successes
    (hstop : (writeAll output v (successes (renderedFrom v sources))).stop = none)
    (hs : s ∈ sources) (hcode : s.code v = .ok code)
    (hcount : (renderedTargets v sources).count s.target = 1) :
    (writeAll output v (successes (renderedFrom v sources))).volume.read
      (pathOfTarget output s.target) = .ok (utf8 code) := by
  have hmem := mem_successes_iff.2 ⟨hs, hcode⟩
  have hplaceable := fun o => placeable_of_mem_successes (o := o) hsources
  rw [renderedTargets_eq] at hcount
  obtain ⟨front, back, heq⟩ := List.append_of_mem hmem
  rw [heq] at hstop hcount hplaceable ⊢
  -- the one occurrence of the target is the one between front and back
  have hback : s.target ∉ back.map (·.1.target) := by
    rw [← List.count_eq_zero]
    rw [List.map_append, List.map_cons, List.count_append, List.count_cons_self] at hcount
    omega
  refine read_of_writeAll hstop (hplaceable (s, code) (by simp)) fun o ho => ⟨?_, ?_⟩
  · exact hplaceable o (by simp [ho])
  · rintro htarget
    exact hback (List.mem_map.2 ⟨o, ho, htarget⟩)

end Declarations

/-- **After a generation, a target that only one declaration has leads to the source of this
declaration.** A file is written for each target in turn, and none twice if no two targets are the
same. Only where the sources were withheld, the volume is as it was. -/
theorem sources_of_generate {result : GenerationResult}
    (h : (r.generate policy v).result = .ok result) :
    ∃ sources, r.declarations v = .ok sources ∧
      (policy.Withholds v sources →
        result.written = [] ∧ (r.generate policy v).volume = v) ∧
      (¬policy.Withholds v sources →
        result.written = (renderedTargets v sources).map (pathOfTarget r.output) ∧
        ((renderedTargets v sources).Nodup → result.written.Nodup) ∧
        ∀ s ∈ sources, ∀ code, s.code v = .ok code →
          (renderedTargets v sources).count s.target = 1 →
          (r.generate policy v).volume.read (pathOfTarget r.output s.target)
            = .ok (utf8 code)) := by
  obtain ⟨fault, -, hgenerate⟩ | ⟨sources, hsources, hcases⟩ := generate_cases r policy v
  · rw [hgenerate] at h
    cases h
  refine ⟨sources, hsources, ?_⟩
  obtain ⟨hwithholds, hgenerate⟩ | ⟨hwithholds, hcases⟩ := hcases
  · rw [hgenerate] at h ⊢
    cases h
    exact ⟨fun _ => ⟨rfl, rfl⟩, fun hnot => absurd hwithholds hnot⟩
  obtain ⟨fault, -, hgenerate⟩ | ⟨hstop, hgenerate⟩ := hcases
  · rw [hgenerate] at h
    cases h
  · rw [hgenerate] at h ⊢
    cases h
    have hwritten := written_of_successes hstop
    refine ⟨fun hnot => absurd hnot hwithholds, fun _ => ⟨hwritten, fun hnodup => ?_, ?_⟩⟩
    · exact hwritten ▸ nodup_map_pathOfTarget hsources hnodup
    · intro s hs code hcode hcount
      exact read_of_successes hsources hstop hs hcode hcount

/-- A class in a package, and one in none. A declaration that fails is between them. -/
theorem sources_of_generate_others :
    let v : Volume := ⟨[([utf8 "s"], .directory),
      ([utf8 "s", utf8 "A.scroole"], .file (utf8 "x:int")),
      ([utf8 "s", utf8 "B.scroole"], .file (utf8 "x")), ([utf8 "s", utf8 "p"], .directory),
      ([utf8 "s", utf8 "p", utf8 "C.scroole"], .file [])], [], []⟩
    let r : Roots := ⟨.ofString "s", .ofString "o"⟩
    let s : Source := ⟨"p.C", .ofString "s/p/C.scroole"⟩
    ∃ result code, (r.generate .writeOthers v).result = .ok result ∧ s.code v = .ok code ∧
      result.written = [.ofString "o/A.java", .ofString "o/p/C.java"] ∧ result.written.Nodup ∧
      (r.generate .writeOthers v).volume.read (.ofString "o/p/C.java") = .ok (utf8 code) := by
  intro v r s
  let a : Source := ⟨"A", .ofString "s/A.scroole"⟩
  let b : Source := ⟨"B", .ofString "s/B.scroole"⟩
  let first := (Java.CompilationUnit.ofTypes ⟨"", "A", "", [⟨"x", "int", ""⟩]⟩ [.scalar .int]).text
  let second := (Java.CompilationUnit.ofTypes ⟨"p", "C", "", []⟩ []).text
  have hwalk : walk v r.sought = .ok (some r.source) := by decide +kernel
  have hroot : v.resolve r.source = .ok [utf8 "s"] := by decide +kernel
  have hsources : r.declarations v = .ok [a, b, s] :=
    declarations_of_sorted (by decide +kernel) hwalk hroot (by decide +kernel) (by decide +kernel)
      (by decide +kernel)
  have ha : a.code v = .ok first := by
    have htext : v.readText a.path = .ok "x:int" := by decide +kernel
    have hread : Description.read a.target "x:int" = .ok ⟨"", "A", "", [⟨"x", "int", ""⟩]⟩ := by
      decide +kernel
    have htypes : FieldType.readAll ["int".toList] = .ok [.scalar .int] := by decide +kernel
    exact code_of_readAll htext hread htypes
  have hb : b.code v = .error (.declaration "B" (.field 1 "x")) := by decide +kernel
  have hs : s.code v = .ok second := code_of_empty (by decide +kernel) (by decide +kernel)
  have hsuccesses : successes (renderedFrom v [a, b, s]) = [(a, first), (s, second)] := by
    simp only [renderedFrom, List.map_cons, List.map_nil, ha, hb, hs]
    rfl
  have htargets : renderedTargets v [a, b, s] = ["A", "p.C"] := by
    rw [renderedTargets_eq, hsuccesses]
    rfl
  have hgo := not_withholds_writeOthers v [a, b, s]
  have hstop : (writeAll r.output v (successes (renderedFrom v [a, b, s]))).stop = none := by
    rw [hsuccesses]
    decide +kernel
  have hpath : pathOfTarget r.output s.target = .ofString "o/p/C.java" := by decide +kernel
  have hresult := congrArg Generation.result (generate_of_stop hsources hgo hstop)
  obtain ⟨found, hfound, -, hrest⟩ := sources_of_generate hresult
  cases hsources.symm.trans hfound
  obtain ⟨hpaths, hnodup, hread⟩ := hrest hgo
  refine ⟨_, second, hresult, hs, ?_, hnodup (by rw [htargets]; decide), ?_⟩
  · rw [hpaths, htargets]
    decide +kernel
  · rw [← hpath]
    exact hread s (by simp) second hs (by rw [htargets]; decide)

/-- Where sources are withheld, one that could be written is not there. Where two declarations have
the same target, a file is written twice, and the first source is lost. -/
theorem source_lost :
    let v : Volume := ⟨[([utf8 "s"], .directory), ([utf8 "s", utf8 "C.scroole"], .file (utf8 "x")),
      ([utf8 "s", utf8 "a"], .directory), ([utf8 "s", utf8 "a", utf8 "B.scroole"], .file []),
      ([utf8 "s", utf8 "a.B.scroole"], .file (utf8 "#D\n\n"))], [], []⟩
    let r : Roots := ⟨.ofString "s", .ofString "o"⟩
    let s : Source := ⟨"a.B", .ofString "s/a/B.scroole"⟩
    ∃ sources code, r.declarations v = .ok sources ∧ s ∈ sources ∧ s.code v = .ok code ∧
      (∃ result, (r.generate .writeNothing v).result = .ok result ∧
        (r.generate .writeNothing v).volume.read (pathOfTarget r.output s.target)
          ≠ .ok (utf8 code)) ∧
      ∃ result, (r.generate .writeOthers v).result = .ok result ∧ ¬result.written.Nodup ∧
        (r.generate .writeOthers v).volume.read (pathOfTarget r.output s.target)
          ≠ .ok (utf8 code) := by
  intro v r s
  let c : Source := ⟨"C", .ofString "s/C.scroole"⟩
  let t : Source := ⟨"a.B", .ofString "s/a.B.scroole"⟩
  let first := (Java.CompilationUnit.ofTypes ⟨"a", "B", "", []⟩ []).text
  let second := (Java.CompilationUnit.ofTypes ⟨"a", "B", "D", []⟩ []).text
  have hwalk : walk v r.sought = .ok (some r.source) := by decide +kernel
  have hroot : v.resolve r.source = .ok [utf8 "s"] := by decide +kernel
  have hsources : r.declarations v = .ok [c, s, t] :=
    declarations_of_sorted (by decide +kernel) hwalk hroot (by decide +kernel) (by decide +kernel)
      (by decide +kernel)
  have hc : c.code v = .error (.declaration "C" (.field 1 "x")) := by decide +kernel
  have hs : s.code v = .ok first := code_of_empty (by decide +kernel) (by decide +kernel)
  have ht : t.code v = .ok second := by
    have htext : v.readText t.path = .ok "#D\n\n" := by decide +kernel
    have hread : Description.read t.target "#D\n\n" = .ok ⟨"a", "B", "D", []⟩ := by decide +kernel
    exact code_of_readAll htext hread (by decide +kernel)
  have hne : first ≠ second := by
    -- after the package, one goes on with the class and the other with a comment
    intro h
    rw [← String.toList_inj] at h
    simp only [first, second, Java.CompilationUnit.text, String.toList_append,
      List.append_assoc] at h
    have hhead := congrArg List.head? (List.append_cancel_left (List.append_cancel_left h))
    exact absurd hhead (by decide)
  refine ⟨[c, s, t], first, hsources, by simp, hs, ?_, ?_⟩
  · have hfailed : OnFailure.writeNothing.Withholds v [c, s, t] := by
      refine ⟨rfl, c, List.mem_cons_self, ?_⟩
      rw [Source.renders, hc]
      rfl
    have hmissing : v.read (pathOfTarget r.output s.target) = .error .notFound := by decide +kernel
    rw [generate_of_withholds hsources hfailed]
    refine ⟨_, rfl, fun hfound => ?_⟩
    cases hmissing.symm.trans hfound
  · have hsuccesses : successes (renderedFrom v [c, s, t]) = [(s, first)] ++ [(t, second)] := by
      simp only [renderedFrom, List.map_cons, List.map_nil, hc, hs, ht]
      rfl
    have hgo := not_withholds_writeOthers v [c, s, t]
    have hstop : (writeAll r.output v ([(s, first)] ++ [(t, second)])).stop = none := by
      decide +kernel
    have hread := read_of_writeAll hstop (placeable_of_code ht (by decide)) (by simp)
    rw [← hsuccesses] at hstop hread
    have htargets : renderedTargets v [c, s, t] = ["a.B", "a.B"] := by
      rw [renderedTargets_eq, hsuccesses]
      rfl
    rw [generate_of_stop hsources hgo hstop, htargets]
    refine ⟨_, rfl, by simp, ?_⟩
    intro hkept
    have hsame := Except.ok.inj (hread.symm.trans hkept)
    exact hne (utf8_inj.1 hsame.symm)

end ValueClass
