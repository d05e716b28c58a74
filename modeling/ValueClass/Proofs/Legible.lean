import ValueClass.Declaration.Reader
import ValueClass.Proofs.Pieces

/-!
# What reading a declaration can give

Not every description can be the result of reading: a declaration has no way to say that a name
holds a colon or that a package has an empty segment. `Description.Legible` says what names and
types are like that were read.

* `readTarget_eq_ok_iff`: a target is read as a package and a name exactly if it is their
  qualified name and both are legible.
* `legible_of_line`, `legible_of_lines`: one line, and so any number of lines, gives legible fields.
* `legible_of_read`: **every description that is read is legible**, and bears the name it was read
  under.
-/

namespace ValueClass

open Text

/-! ## Targets -/

/-- A segment of a qualified name: it holds something, and no blanks. -/
def IsSegment (cs : List Char) : Prop :=
  cs ≠ [] ∧ ∀ c ∈ cs, isBlank c = false

-- going through the text, not through all characters there are
instance (cs : List Char) : Decidable (IsSegment cs) :=
  decidable_of_iff (cs ≠ [] ∧ cs.all (!isBlank ·) = true) (by simp [IsSegment])

theorem targetFlaw?_eq_none_iff {segments : List (List Char)} :
    targetFlaw? segments = none ↔ ∀ segment ∈ segments, IsSegment segment := by
  induction segments with
  | nil => simp [targetFlaw?]
  | cons segment rest ih =>
    rw [targetFlaw?, List.forall_mem_cons, ← ih]
    by_cases hnil : segment = []
    · simp [hnil, IsSegment]
    · rw [if_neg hnil]
      by_cases hblank : segment.any isBlank = true
      · have hsegment : ¬IsSegment segment := by
          intro h
          obtain ⟨c, hc, hcblank⟩ := List.any_eq_true.1 hblank
          exact Bool.false_ne_true ((h.2 c hc).symm.trans hcblank)
        simp [hblank, hsegment]
      · have hsegment : IsSegment segment := by
          refine ⟨hnil, fun c hc => ?_⟩
          rw [Bool.eq_false_iff]
          exact fun hcblank => hblank (List.any_eq_true.2 ⟨c, hc, hcblank⟩)
        simp [hblank, hsegment]

/-- The name is one segment, and the package is empty or made of segments with dots between. -/
structure Description.LegibleTarget (d : Description) : Prop where
  isSegment_name : IsSegment d.name.toList
  dot_not_mem_name : '.' ∉ d.name.toList
  isSegment_package :
    d.package = "" ∨ ∀ segment ∈ List.splitOn '.' d.package.toList, IsSegment segment

/-- The segments of a qualified name are those of the package and then the name. -/
theorem split_append_dot {package name : List Char} (h : '.' ∉ name) :
    List.splitOn '.' (package ++ '.' :: name) = List.splitOn '.' package ++ [name] := by
  rw [List.splitOn_append_cons_self, List.splitOn_eq_singleton h]

theorem toList_qualifiedName {d : Description} (h : d.package ≠ "") :
    d.qualifiedName.toList = d.package.toList ++ '.' :: d.name.toList := by
  simp [Description.qualifiedName, h]

theorem readTarget_qualifiedName {d : Description} (h : d.LegibleTarget) :
    readTarget d.qualifiedName = .ok (d.package, d.name) := by
  have hname : d.name ≠ "" := fun hempty => h.isSegment_name.1 (by rw [hempty]; rfl)
  by_cases hpackage : d.package = ""
  · have htarget : d.qualifiedName = d.name := by simp [Description.qualifiedName, hpackage]
    have hflaw : targetFlaw? (List.splitOn '.' d.name.toList) = none := by
      rw [List.splitOn_eq_singleton h.dot_not_mem_name, targetFlaw?_eq_none_iff]
      simpa using h.isSegment_name
    rw [htarget, readTarget, if_neg hname, hflaw, cutLast_of_not_mem h.dot_not_mem_name, hpackage]
  · have htarget := toList_qualifiedName hpackage
    have hne : d.qualifiedName ≠ "" := by
      intro hempty
      rw [hempty] at htarget
      simp at htarget
    have hflaw : targetFlaw? (List.splitOn '.' d.qualifiedName.toList) = none := by
      rw [htarget, split_append_dot h.dot_not_mem_name, targetFlaw?_eq_none_iff]
      intro segment hsegment
      rcases List.mem_append.1 hsegment with hsegment | hsegment
      · exact h.isSegment_package.resolve_left hpackage segment hsegment
      · rw [List.mem_singleton.1 hsegment]
        exact h.isSegment_name
    rw [readTarget, if_neg hne, hflaw, htarget, cutLast_append_sep h.dot_not_mem_name]
    simp only [String.ofList_toList]

theorem legible_of_readTarget {target : String} {d : Description}
    (h : readTarget target = .ok (d.package, d.name)) :
    d.LegibleTarget ∧ target = d.qualifiedName := by
  rw [readTarget] at h
  split at h
  · cases h
  split at h
  · cases h
  rename_i hflaw
  rw [targetFlaw?_eq_none_iff] at hflaw
  split at h
  · rename_i package name hcut
    obtain ⟨htarget, hdot⟩ := cutLast_eq_some hcut
    rw [htarget, split_append_dot hdot] at hflaw
    simp only [Except.ok.injEq, Prod.mk.injEq] at h
    have hpackage : d.package.toList = package := by rw [← h.1, String.toList_ofList]
    have hname : d.name.toList = name := by rw [← h.2, String.toList_ofList]
    have hsegments : ∀ segment ∈ List.splitOn '.' package, IsSegment segment :=
      fun segment hsegment => hflaw segment (List.mem_append_left _ hsegment)
    -- an empty package would be an empty segment before the dot
    have hne : d.package ≠ "" := by
      intro hempty
      rw [hempty] at hpackage
      subst hpackage
      exact (hsegments [] (by simp)).1 rfl
    refine ⟨⟨?_, ?_, .inr ?_⟩, ?_⟩
    · rw [hname]
      exact hflaw name (List.mem_append_right _ List.mem_cons_self)
    · rwa [hname]
    · rwa [hpackage]
    · rw [← String.toList_inj, toList_qualifiedName hne, hpackage, hname, htarget]
  · rename_i hcut
    have hdot := cutLast_eq_none hcut
    rw [List.splitOn_eq_singleton hdot] at hflaw
    simp only [Except.ok.injEq, Prod.mk.injEq] at h
    obtain ⟨hpackage, rfl⟩ := h
    refine ⟨⟨hflaw _ List.mem_cons_self, hdot, .inl hpackage.symm⟩, ?_⟩
    simp [Description.qualifiedName, ← hpackage]

/-- **A target is read as a package and a name exactly if it is their qualified name** and both are
legible. -/
theorem readTarget_eq_ok_iff {target : String} {d : Description} :
    readTarget target = .ok (d.package, d.name) ↔
      d.LegibleTarget ∧ target = d.qualifiedName := by
  refine ⟨legible_of_readTarget, ?_⟩
  rintro ⟨h, rfl⟩
  exact readTarget_qualifiedName h

/-! ## Fields -/

/-- The name can stand before a colon, and the type can end a line. -/
structure Field.Legible (f : Field) : Prop where
  name_ne_empty : f.name ≠ ""
  trim_name : trim f.name.toList = f.name.toList
  colon_not_mem_name : ':' ∉ f.name.toList
  newline_not_mem_name : '\n' ∉ f.name.toList
  head?_name : f.name.toList.head? ≠ some '#'
  descriptor_ne_empty : f.descriptor ≠ ""
  trim_descriptor : trim f.descriptor.toList = f.descriptor.toList
  newline_not_mem_descriptor : '\n' ∉ f.descriptor.toList

theorem Field.Legible.name_toList_ne_nil {f : Field} (h : f.Legible) : f.name.toList ≠ [] := by
  simpa using h.name_ne_empty

theorem Field.Legible.descriptor_toList_ne_nil {f : Field} (h : f.Legible) :
    f.descriptor.toList ≠ [] := by
  simpa using h.descriptor_ne_empty

theorem lineOf_cons {c : Char} (hblank : isBlank c = false) (hmark : c ≠ '#') (cs : List Char) :
    Line.of (c :: cs) = .field := by
  rw [Line.of, trimStart_cons_of_not_blank hblank]
  simp [hmark]

/-- A field line does not start with the mark of a comment. -/
theorem head?_trimStart_of_field {line : List Char} (h : Line.of line = .field) :
    (trimStart line).head? ≠ some '#' := by
  intro hhead
  obtain ⟨text, htext⟩ := List.head?_eq_some_iff.1 hhead
  rw [Line.of, htext] at h
  cases text with
  | nil => cases h
  | cons c text =>
    by_cases hc : c = ' '
    · subst hc
      cases h
    · simp [hc] at h

/-- What a field line declares is legible, whatever documentation is pending. -/
theorem legible_of_fieldParts? {line name descriptor : List Char} (hline : '\n' ∉ line)
    (hfield : Line.of line = .field) (h : fieldParts? line = some (name, descriptor))
    (documentation : String) :
    Field.Legible ⟨String.ofList name, String.ofList descriptor, documentation⟩ := by
  rw [fieldParts?] at h
  split at h
  · cases h
  rename_i before after hcut
  obtain ⟨rfl, hcolon⟩ := cut_eq_some hcut
  split at h
  · cases h
  rename_i hne
  cases h
  obtain ⟨hname, hdescriptor⟩ := not_or.1 hne
  -- the name and the line start with the same character
  have hhead : (trim before).head? ≠ some '#' := by
    intro hmark
    obtain ⟨between, hbetween⟩ := trim_prefix_trimStart before
    have hstart : trimStart before ≠ [] := by
      intro hnil
      rw [hnil] at hbetween
      exact hname (List.append_eq_nil_iff.1 hbetween).1
    apply head?_trimStart_of_field hfield
    rw [trimStart_append hstart, ← hbetween, List.append_assoc, List.head?_append, hmark,
      Option.some_or]
  constructor
  case name_ne_empty => simpa using hname
  case descriptor_ne_empty => simpa using hdescriptor
  all_goals simp only [String.toList_ofList]
  case trim_name => exact trim_trim before
  case colon_not_mem_name => exact fun hmem => hcolon (mem_of_mem_trim hmem)
  case newline_not_mem_name =>
    exact fun hmem => hline (List.mem_append_left _ (mem_of_mem_trim hmem))
  case head?_name => exact hhead
  case trim_descriptor => exact trim_trim after
  case newline_not_mem_descriptor =>
    intro hmem
    exact hline (List.mem_append_right _ (List.mem_cons_of_mem _ (mem_of_mem_trim hmem)))

/-- **A line gives legible fields.** -/
theorem legible_of_line {r next : Reading} {number : Nat} {line : List Char}
    (hline : '\n' ∉ line) (h : r.line number line = .ok next)
    (hr : ∀ f ∈ r.fields, f.Legible) : ∀ f ∈ next.fields, f.Legible := by
  rw [Reading.line] at h
  split at h
  · cases h
    unfold Reading.separate
    split <;> exact hr
  · cases h
    exact hr
  · rename_i hfield
    split at h
    · rename_i name descriptor hparts
      cases h
      intro f hf
      rcases List.mem_append.1 hf with hf | hf
      · exact hr f hf
      · rw [List.mem_singleton.1 hf]
        exact legible_of_fieldParts? hline hfield hparts _
    · cases h

/-- **What every line keeps, reading keeps.** -/
theorem Reading.lines_keeps {P : Reading → Prop} {ls : List (List Char)}
    (step : ∀ line ∈ ls, ∀ {r next : Reading} {number : Nat},
      r.line number line = .ok next → P r → P next)
    {r result : Reading} {number : Nat} (h : r.lines number ls = .ok result) (hr : P r) :
    P result := by
  induction ls generalizing r number with
  | nil =>
    cases h
    exact hr
  | cons line ls ih =>
    rw [Reading.lines] at h
    split at h
    · cases h
    · rename_i next hnext
      have hkept := step line List.mem_cons_self hnext hr
      exact ih (fun other hother => step other (List.mem_cons_of_mem _ hother)) h hkept

theorem legible_of_lines {ls : List (List Char)} (hls : ∀ line ∈ ls, '\n' ∉ line)
    {r result : Reading} {number : Nat} (h : r.lines number ls = .ok result)
    (hr : ∀ f ∈ r.fields, f.Legible) : ∀ f ∈ result.fields, f.Legible :=
  Reading.lines_keeps (fun line hline => legible_of_line (hls line hline)) h hr

/-! ## Descriptions -/

/-- Package, name and fields are such that a declaration can say them. -/
structure Description.Legible (d : Description) : Prop where
  target : d.LegibleTarget
  fields : ∀ f ∈ d.fields, f.Legible

/-- **Every description that is read is legible**, and its qualified name is the target it was read
under. -/
theorem legible_of_read {target text : String} {d : Description}
    (h : Description.read target text = .ok d) : d.Legible ∧ target = d.qualifiedName := by
  rw [Description.read] at h
  split at h
  · cases h
  rename_i package name htarget
  split at h
  · cases h
  rename_i reading hlines
  simp only [Except.ok.injEq] at h
  have hlegible : d.LegibleTarget ∧ target = d.qualifiedName := by
    rw [← readTarget_eq_ok_iff, htarget, ← h]
  refine ⟨⟨hlegible.1, ?_⟩, hlegible.2⟩
  subst h
  apply legible_of_lines (fun _ => newline_not_mem_of_mem_lines) hlines
  intro f hf
  cases hf

end ValueClass
