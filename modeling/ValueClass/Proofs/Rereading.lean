import ValueClass.Proofs.RoundTrip

/-!
# Reading what was read

A declaration is read, the description is written, and what was written is read again. No
documentation that is read starts with an empty line, but its lines can end in carriage returns:
of several carriage returns before a line feed, reading drops one. The next reading drops another.

* `opened_of_line`, `opened_of_lines`: one line, and so any number of lines, gives no documentation
  that starts with an empty line.
* `read_declaration_of_read_iff`: **a description that was read is read again as it was exactly if
  no line of its documentation ends in a carriage return.**
-/

namespace ValueClass

open Text

/-! ## How documentation starts -/

/-- No documentation that was read so far starts with an empty line. -/
structure Reading.Opened (r : Reading) : Prop where
  pending : r.pending.head? ≠ some '\n'
  ofClass : (r.ofClass.getD []).head? ≠ some '\n'
  fields : ∀ f ∈ r.fields, f.documentation.toList.head? ≠ some '\n'

theorem mem_of_lineOf_comment {line text : List Char} (h : Line.of line = .comment text) {c : Char}
    (hc : c ∈ text) : c ∈ line := by
  have hsub : ∀ c ∈ trimStart line, c ∈ line := (List.dropWhile_suffix isBlank).subset
  rw [Line.of] at h
  split at h
  · cases h
  · rename_i hline
    cases h
    exact hsub c (by rw [hline]; simp [hc])
  · rename_i hline
    cases h
    exact hsub c (by rw [hline]; simp [hc])
  · cases h

theorem Reading.Opened.separate {r : Reading} (h : r.Opened) : r.separate.Opened := by
  unfold Reading.separate
  split
  · exact ⟨by simp, h.pending, h.fields⟩
  · exact ⟨by simp, h.ofClass, h.fields⟩

theorem Reading.Opened.comment {r : Reading} (h : r.Opened) {text : List Char}
    (htext : '\n' ∉ text) : (r.comment text).Opened := by
  refine ⟨?_, h.ofClass, h.fields⟩
  unfold Reading.comment
  by_cases hpending : r.pending = []
  · rw [if_pos hpending]
    exact fun hhead => htext (List.mem_of_mem_head? hhead)
  · -- what was pending stays in front
    obtain ⟨c, cs, hcs⟩ := List.exists_cons_of_ne_nil hpending
    have hhead := h.pending
    rw [hcs] at hhead
    rw [if_neg hpending, hcs]
    exact hhead

theorem Reading.Opened.addField {r : Reading} (h : r.Opened) (name descriptor : List Char) :
    (r.addField name descriptor).Opened := by
  refine ⟨by simp [Reading.addField], h.ofClass, fun f hf => ?_⟩
  rcases List.mem_append.1 hf with hf | hf
  · exact h.fields f hf
  · rw [List.mem_singleton.1 hf, String.toList_ofList]
    exact h.pending

/-- **A line gives no documentation that starts with an empty line.** -/
theorem opened_of_line {r next : Reading} {number : Nat} {line : List Char} (hline : '\n' ∉ line)
    (h : r.line number line = .ok next) (hr : r.Opened) : next.Opened := by
  rw [Reading.line] at h
  split at h
  · cases h
    exact hr.separate
  · rename_i text hcomment
    cases h
    exact hr.comment fun hmem => hline (mem_of_lineOf_comment hcomment hmem)
  · split at h
    · cases h
      exact hr.addField _ _
    · cases h

theorem opened_of_lines {ls : List (List Char)} (hls : ∀ line ∈ ls, '\n' ∉ line)
    {r result : Reading} {number : Nat} (h : r.lines number ls = .ok result) (hr : r.Opened) :
    result.Opened :=
  Reading.lines_keeps (fun line hline => opened_of_line (hls line hline)) h hr

/-! ## Descriptions -/

/-- The documentation of the class and that of each field. -/
def Description.documentations (d : Description) : List String :=
  d.documentation :: d.fields.map (·.documentation)

theorem opened_of_read {target text : String} {d : Description}
    (h : Description.read target text = .ok d) :
    ∀ documentation ∈ d.documentations, documentation.toList.head? ≠ some '\n' := by
  rw [Description.read] at h
  split at h
  · cases h
  split at h
  · cases h
  rename_i reading hlines
  cases h
  have hopened : reading.Opened := by
    apply opened_of_lines (fun _ => newline_not_mem_of_mem_lines) hlines
    constructor <;> simp
  simp only [Description.documentations, List.forall_mem_cons, List.forall_mem_map,
    String.toList_ofList]
  exact ⟨hopened.ofClass, hopened.fields⟩

/-- **A description that was read is read again as it was exactly if no line of its documentation
ends in a carriage return.** That no documentation starts with an empty line, which writing also
needs, holds of all that was read. -/
theorem read_declaration_of_read_iff {target text : String} {d : Description}
    (h : Description.read target text = .ok d) :
    (∀ documentation ∈ d.documentations, documentation.toList.head? ≠ some '\n') ∧
      (Description.read d.qualifiedName d.declaration = .ok d ↔
        ∀ documentation ∈ d.documentations, ∀ line ∈ List.splitOn '\n' documentation.toList,
          line.getLast? ≠ some '\r') := by
  have hopened := opened_of_read h
  refine ⟨hopened, ?_⟩
  rw [read_declaration_of_legible (legible_of_read h).1, Except.ok.injEq,
    Description.tidied_eq_self_iff]
  have hall : (IsTidy d.documentation.toList ∧ ∀ f ∈ d.fields, IsTidy f.documentation.toList) ↔
      ∀ documentation ∈ d.documentations, IsTidy documentation.toList := by
    simp [Description.documentations]
  rw [hall]
  constructor
  · intro htidy documentation hmem
    exact (htidy documentation hmem).2
  · intro hreturns documentation hmem
    exact ⟨hopened documentation hmem, hreturns documentation hmem⟩

/-- Line ends of both kinds, and a carriage return inside a line, are no obstacle. -/
theorem read_declaration_of_read_mixed_ends :
    let d : Description := ⟨"geo", "Point", "A\rpoint.\n", [⟨"x", "int", "First.\n\nOf two."⟩]⟩
    Description.read "geo.Point"
        "#A\rpoint.\r\n#\r\n\n#\n  # First.\n#\n# Of two.\r\nx:int" = .ok d ∧
      Description.read "geo.Point" d.declaration = .ok d := by
  intro d
  have hread : Description.read "geo.Point"
      "#A\rpoint.\r\n#\r\n\n#\n  # First.\n#\n# Of two.\r\nx:int" = .ok d := by
    decide +kernel
  exact ⟨hread, (read_declaration_of_read_iff hread).2.2 (by decide)⟩

/-- Of the two carriage returns before the line feed, each reading drops one. -/
theorem read_declaration_of_read_two_returns :
    let d : Description := ⟨"", "Point", "", [⟨"x", "int", "First.\r"⟩]⟩
    Description.read "Point" "# First.\r\r\nx: int\n" = .ok d ∧
      Description.read d.qualifiedName d.declaration ≠ .ok d := by
  intro d
  have hread : Description.read "Point" "# First.\r\r\nx: int\n" = .ok d := by
    decide +kernel
  have hagain : Description.read d.qualifiedName d.declaration
      = .ok ⟨"", "Point", "", [⟨"x", "int", "First."⟩]⟩ := by
    decide +kernel
  refine ⟨hread, ?_⟩
  rw [hagain]
  simp [d]

end ValueClass
