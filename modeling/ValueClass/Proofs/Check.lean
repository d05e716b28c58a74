import ValueClass.Command.Run
import ValueClass.Proofs.Generation

/-!
# What a check says about a generation

A check renders the same declarations as a generation and writes none of them. What it reports is
what a generation on the same volume goes on to do, in the same order.

* `sorted_declarations`: declarations are found in the order of their targets.
* `check_of_declarations`: a check passes the targets that have a source, and reports the others.
* `volume_runCheck`: checking leaves the volume as it is.
* `generate_as_checked`: **a generation writes a file for each target that passes, or nothing at all
  where a failure withholds them.**
-/

namespace ValueClass

open Text

variable {r : Roots} {policy : OnFailure} {v : Volume} {sources : List Source}

/-! ## The order of the targets -/

/-- Declarations are found in the order of their targets. -/
theorem sorted_declarations (h : r.declarations v = .ok sources) :
    sources.Pairwise (·.target ≤ ·.target) := by
  obtain ⟨-, found, -, rfl⟩ := declarations_eq_ok_iff.1 h
  exact pairwise_mergeSort_key Source.target found

theorem sorted_renderedTargets (h : r.declarations v = .ok sources) :
    (renderedTargets v sources).Pairwise (· ≤ ·) := by
  have hrendered := (sorted_declarations h).filter (·.renders v)
  exact List.pairwise_map.2 hrendered

/-! ## Checking -/

theorem check_of_fault {fault : ProjectFault} (h : r.declarations v = .error fault) :
    r.check v = .error fault := by
  rw [Roots.check, Roots.rendered, h]
  rfl

/-- A check passes the targets that have a source, and reports the faults of the others. -/
theorem check_of_declarations (h : r.declarations v = .ok sources) :
    r.check v = .ok ⟨renderedTargets v sources, failures (renderedFrom v sources)⟩ := by
  rw [Roots.check, Roots.rendered, h, renderedTargets_eq]
  rfl

/-- Checking leaves the volume as it is. -/
theorem volume_runCheck (v : Volume) (settings : Settings) : (runCheck v settings).volume = v := by
  unfold runCheck
  dsimp only
  split
  · rfl
  split
  · rfl
  split
  · rfl
  · rfl

/-- **A generation does what a check says.** Both fail alike where no declarations can be found.
Elsewhere the check passes some targets, in their order. If it reports a failure and failures
withhold the sources, the generation reports the same and leaves the volume as it is; otherwise a
generation that comes to its end has the same failures, and wrote the files of the targets that
passed. -/
theorem generate_as_checked (r : Roots) (policy : OnFailure) (v : Volume) :
    (∀ settings : Settings, settings.checkRoots v = .ok r → (runCheck v settings).volume = v) ∧
      (∀ fault, r.declarations v = .error fault →
        r.check v = .error fault ∧ r.generate policy v = ⟨v, .error fault⟩) ∧
      ∀ sources, r.declarations v = .ok sources →
        ∃ checked, r.check v = .ok checked ∧ checked.passed = renderedTargets v sources ∧
          checked.passed.Pairwise (· ≤ ·) ∧
          (policy = .writeNothing → checked.failures ≠ [] →
            r.generate policy v = ⟨v, .ok ⟨[], checked.failures⟩⟩) ∧
          (policy ≠ .writeNothing ∨ checked.failures = [] →
            ∀ result, (r.generate policy v).result = .ok result →
              result.failures = checked.failures ∧
                result.written = checked.passed.map (pathOfTarget r.output)) := by
  refine ⟨fun settings _ => volume_runCheck v settings, fun fault hfault => ?_,
    fun sources hsources => ?_⟩
  · refine ⟨check_of_fault hfault, ?_⟩
    obtain ⟨other, hother, hgenerate⟩ | ⟨sources, hsources, -⟩ := generate_cases r policy v
    · cases hfault.symm.trans hother
      exact hgenerate
    · cases hfault.symm.trans hsources
  have hwithholds : policy.Withholds v sources ↔
      policy = .writeNothing ∧ failures (renderedFrom v sources) ≠ [] := by
    rw [OnFailure.Withholds, failures_ne_nil_iff]
  refine ⟨_, check_of_declarations hsources, rfl, sorted_renderedTargets hsources,
    fun hpolicy hfailed => ?_, fun hgo result hresult => ?_⟩
  · exact generate_of_withholds hsources (hwithholds.2 ⟨hpolicy, hfailed⟩)
  · have hnot : ¬policy.Withholds v sources := by
      rw [hwithholds, not_and_or, not_not]
      exact hgo
    obtain ⟨found, hfound, hfailures, hwritten⟩ := result_of_generate hresult
    cases hsources.symm.trans hfound
    obtain ⟨hwithheld, -⟩ | ⟨-, hwritten⟩ := hwritten
    · exact absurd hwithheld hnot
    · exact ⟨hfailures, hwritten⟩

/-- One declaration that passes and one that fails, under both policies. -/
theorem generate_as_checked_one_failure :
    let v : Volume := ⟨[([utf8 "s"], .directory), ([utf8 "s", utf8 "A.scroole"], .file []),
      ([utf8 "s", utf8 "B.scroole"], .file (utf8 "x"))], [], []⟩
    let r : Roots := ⟨.ofString "s", .ofString "o"⟩
    let failed : ProjectFault := .declaration "B" (.field 1 "x")
    r.check v = .ok ⟨["A"], [failed]⟩ ∧
      r.generate .writeNothing v = ⟨v, .ok ⟨[], [failed]⟩⟩ ∧
      ∃ result, (r.generate .writeOthers v).result = .ok result ∧ result.failures = [failed] ∧
        result.written = [.ofString "o/A.java"] := by
  intro v r failed
  let a : Source := ⟨"A", .ofString "s/A.scroole"⟩
  let b : Source := ⟨"B", .ofString "s/B.scroole"⟩
  let code := (Java.CompilationUnit.ofTypes ⟨"", "A", "", []⟩ []).text
  have hwalk : walk v r.sought = .ok (some r.source) := by decide +kernel
  have hroot : v.resolve r.source = .ok [utf8 "s"] := by decide +kernel
  have hsources : r.declarations v = .ok [a, b] :=
    declarations_of_sorted (by decide +kernel) hwalk hroot (by decide +kernel) (by decide +kernel)
      (by decide +kernel)
  have ha : a.code v = .ok code := code_of_empty (by decide +kernel) (by decide +kernel)
  have hb : b.code v = .error failed := by decide +kernel
  have hrendered : renderedFrom v [a, b] = [(a, .ok code), (b, .error failed)] := by
    simp only [renderedFrom, List.map_cons, List.map_nil, ha, hb]
  have hchecked : r.check v = .ok ⟨["A"], [failed]⟩ := by
    rw [check_of_declarations hsources, renderedTargets_eq, hrendered]
    rfl
  have hstop : (writeAll r.output v (successes (renderedFrom v [a, b]))).stop = none := by
    rw [hrendered]
    decide +kernel
  have hresult := congrArg Generation.result
    (generate_of_stop hsources (not_withholds_writeOthers v [a, b]) hstop)
  obtain ⟨-, -, hnothing⟩ := generate_as_checked r .writeNothing v
  obtain ⟨-, -, hothers⟩ := generate_as_checked r .writeOthers v
  obtain ⟨first, hfirst, -, -, hwithheld, -⟩ := hnothing [a, b] hsources
  obtain ⟨second, hsecond, -, -, -, hwritten⟩ := hothers [a, b] hsources
  cases hchecked.symm.trans hfirst
  cases hchecked.symm.trans hsecond
  obtain ⟨hfailures, hpaths⟩ := hwritten (.inl (by decide)) _ hresult
  exact ⟨hchecked, hwithheld rfl (by simp), _, hresult, hfailures, hpaths.trans (by decide +kernel)⟩

end ValueClass
