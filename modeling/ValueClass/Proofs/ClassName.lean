import ValueClass.Java.ClassName
import ValueClass.Proofs.Bytes
import ValueClass.Proofs.Spelling

/-!
# Parts of class names

* `divideFrom_eq`, `divide_eq`: **dividing by offsets in bytes is dividing between segments**, and
  no offset is inside a character.
* `guess?_eq_some_iff`: **what the parts of a name are**, segment by segment.
* `eq_of_guess?`: the package and the rest make up the name.
* `guess?_short`: without its package, a name has the same parts but for the package.
* `isSome_guess?_iff`, `guess?_exact`: when a name has parts, and that none of it is lost in them.
* `isOuterName_short`, `isPlainName_short`: where a name can stand in a descriptor, it can stand
  without its package.
-/

namespace ValueClass.Java

open Text

/-! ## Dotted segments -/

/-- Segments with dots between them. -/
def dotted (segments : List (List Char)) : String :=
  String.ofList (List.intercalate ['.'] segments)

theorem dotted_split (name : String) : dotted (List.splitOn '.' name.toList) = name := by
  rw [dotted, List.intercalate_splitOn, String.ofList_toList]

theorem split_dotted {first : List Char} {rest : List (List Char)}
    (h : ∀ segment ∈ first :: rest, '.' ∉ segment) :
    List.splitOn '.' (dotted (first :: rest)).toList = first :: rest := by
  rw [dotted, String.toList_ofList, List.splitOn_intercalate '.' h (List.cons_ne_nil _ _)]

theorem dotted_append {as bs : List (List Char)} (has : as ≠ []) (hbs : bs ≠ []) :
    dotted (as ++ bs) = dotted as ++ "." ++ dotted bs := by
  rw [← String.toList_inj]
  simp [dotted, intercalate_append '.' has hbs]

theorem dotted_eq_empty_iff {segments : List (List Char)}
    (h : ∀ segment ∈ segments, isIdentifier segment = true) :
    dotted segments = "" ↔ segments = [] := by
  cases segments with
  | nil => simp [dotted]
  | cons first rest =>
    have hfirst : first ≠ [] := by
      rintro rfl
      exact Bool.false_ne_true (h [] List.mem_cons_self)
    rw [dotted, ← String.toList_inj]
    simp [intercalate_cons, hfirst]

/-- Segments with a dot after each. -/
def endedByDots (segments : List (List Char)) : String :=
  String.ofList (segments.flatMap (· ++ ['.']))

theorem endedByDots_eq {segments : List (List Char)} (h : segments ≠ []) :
    endedByDots segments = dotted segments ++ "." := by
  rw [← String.toList_inj]
  simp only [endedByDots, dotted, String.toList_ofList, String.toList_append]
  induction segments with
  | nil => exact absurd rfl h
  | cons first rest ih =>
    by_cases hrest : rest = []
    · simp [hrest]
    · rw [List.flatMap_cons, ih hrest, List.intercalate_cons_of_ne_nil hrest]
      simp only [List.append_assoc]

theorem endedByDots_append_dotted (done : List (List Char)) {rest : List (List Char)}
    (h : rest ≠ []) : endedByDots done ++ dotted rest = dotted (done ++ rest) := by
  by_cases hdone : done = []
  · simp [hdone, endedByDots]
  · rw [endedByDots_eq hdone, dotted_append hdone h]

/-- How the offset of the segments that are left grows. -/
theorem utf8ByteSize_endedByDots_append (done : List (List Char)) (segment : List Char) :
    (endedByDots (done ++ [segment])).utf8ByteSize
      = (endedByDots done).utf8ByteSize + (String.ofList segment).utf8ByteSize + 1 := by
  have htext : endedByDots (done ++ [segment])
      = endedByDots done ++ String.ofList segment ++ "." := by
    rw [← String.toList_inj]
    simp [endedByDots]
  rw [htext, String.utf8ByteSize_append, String.utf8ByteSize_append]
  rfl

theorem utf8ByteSize_endedByDots_eq_zero_iff {done : List (List Char)} :
    (endedByDots done).utf8ByteSize = 0 ↔ done = [] := by
  rw [String.utf8ByteSize_eq_zero_iff, ← String.toList_inj, endedByDots, String.toList_ofList]
  cases done <;> simp

/-! ## Dividing by offsets -/

namespace ClassName

/-- The parts of a name of which the segments are given, where those in `done` are of the
package. -/
def ofSegments (done segments : List (List Char)) : Option ClassName :=
  match segments.dropWhile (!isCapitalized ·) with
  | [] => none
  | topLevel :: nested =>
    some ⟨dotted (done ++ segments.takeWhile (!isCapitalized ·)), String.ofList topLevel,
      dotted nested⟩

/-- The first cut: what is before the dot in front of the segments that are left. -/
theorem slice?_package {name : String} {done rest : List (List Char)} (hrest : rest ≠ [])
    (hname : name = dotted (done ++ rest)) :
    (if (endedByDots done).utf8ByteSize = 0 then some ""
      else slice? name 0 ((endedByDots done).utf8ByteSize - 1)) = some (dotted done) := by
  split
  · rename_i hzero
    rw [utf8ByteSize_endedByDots_eq_zero_iff.1 hzero]
    rfl
  · rename_i hpos
    have hdone : done ≠ [] := fun hnil => hpos (utf8ByteSize_endedByDots_eq_zero_iff.2 hnil)
    have hstop : (endedByDots done).utf8ByteSize - 1 = ("" ++ dotted done).utf8ByteSize := by
      rw [endedByDots_eq hdone, String.utf8ByteSize_append, String.empty_append]
      rfl
    rw [hname, hstop, dotted_append hdone hrest, String.append_assoc]
    exact slice?_append "" (dotted done) ("." ++ dotted rest)

/-- The second cut: the segments that are left. -/
theorem slice?_rest {name : String} {done rest : List (List Char)} (hrest : rest ≠ [])
    (hname : name = dotted (done ++ rest)) :
    slice? name (endedByDots done).utf8ByteSize name.utf8ByteSize = some (dotted rest) := by
  rw [← endedByDots_append_dotted done hrest] at hname
  have h := slice?_append (endedByDots done) (dotted rest) ""
  rwa [String.append_empty, ← hname] at h

/-- The third cut: at the first dot of what is left, if there is one. -/
theorem cut_dotted {segment : List Char} (hdot : '.' ∉ segment) (rest : List (List Char)) :
    (cut '.' (dotted (segment :: rest)).toList).getD ((dotted (segment :: rest)).toList, [])
      = (segment, List.intercalate ['.'] rest) := by
  rw [dotted, String.toList_ofList]
  by_cases hrest : rest = []
  · rw [hrest, List.intercalate_singleton, cut_of_not_mem hdot]
    rfl
  · rw [List.intercalate_cons_of_ne_nil hrest, List.append_assoc, List.singleton_append,
      cut_append_sep hdot]
    rfl

/-- **The offsets are those of the segments**, so the name is divided where its segments say. -/
theorem divideFrom_eq {name : String} {done segments : List (List Char)}
    (hsplit : List.splitOn '.' name.toList = done ++ segments) :
    divideFrom name (endedByDots done).utf8ByteSize segments = some (ofSegments done segments) := by
  -- the offset is that of the segments which were passed, each with its dot
  induction segments generalizing done with
  | nil => rfl
  | cons segment rest ih =>
    have hname : name = dotted (done ++ segment :: rest) := by rw [← hsplit, dotted_split]
    have hdot : '.' ∉ segment := by
      have hmem : segment ∈ List.splitOn '.' name.toList := by
        rw [hsplit]
        exact List.mem_append_right _ List.mem_cons_self
      exact not_mem_of_mem_splitOn hmem
    by_cases hcapital : isCapitalized segment = true
    · have hneg : ¬(!isCapitalized segment) = true := by simp [hcapital]
      rw [divideFrom, if_pos hcapital, slice?_package (List.cons_ne_nil _ _) hname,
        slice?_rest (List.cons_ne_nil _ _) hname]
      simp only [Option.bind_eq_bind, Option.bind_some, cut_dotted hdot]
      rw [ofSegments, List.dropWhile_cons_of_neg (p := (!isCapitalized ·)) hneg,
        List.takeWhile_cons_of_neg (p := (!isCapitalized ·)) hneg, List.append_nil]
      rfl
    · have hpos : (!isCapitalized segment) = true := by simp [hcapital]
      have hnext : List.splitOn '.' name.toList = (done ++ [segment]) ++ rest := by
        rw [hsplit, List.append_assoc, List.singleton_append]
      rw [divideFrom, if_neg hcapital, ← utf8ByteSize_endedByDots_append, ih hnext, ofSegments,
        ofSegments, List.dropWhile_cons_of_pos (p := (!isCapitalized ·)) hpos,
        List.takeWhile_cons_of_pos (p := (!isCapitalized ·)) hpos, List.append_assoc,
        List.singleton_append]

/-- **A name is divided as its segments say**, and every cut is between two characters. -/
theorem divide_eq (name : String) :
    divide name = some (if (List.splitOn '.' name.toList).all isIdentifier then
      ofSegments [] (List.splitOn '.' name.toList) else none) := by
  have hstart : List.splitOn '.' name.toList = [] ++ List.splitOn '.' name.toList := rfl
  unfold divide
  dsimp only
  split
  · exact divideFrom_eq hstart
  · rfl

theorem divide_eq_guess? (name : String) : divide name = some (guess? name) := by
  rw [guess?, divide_eq, Option.join_some]

theorem guess?_eq_ofSegments (name : String) :
    guess? name = if (List.splitOn '.' name.toList).all isIdentifier then
      ofSegments [] (List.splitOn '.' name.toList) else none := by
  rw [guess?, divide_eq, Option.join_some]

/-! ## Guesses -/

/-- The segments of a name in their roles: those before the first with a capital letter are the
package. -/
structure Segments (name : String) (package : List (List Char)) (topLevel : List Char)
    (nested : List (List Char)) : Prop where
  split_eq : List.splitOn '.' name.toList = package ++ topLevel :: nested
  isIdentifier : ∀ segment ∈ package ++ topLevel :: nested, isIdentifier segment = true
  package_small : ∀ segment ∈ package, isCapitalized segment = false
  topLevel_capital : isCapitalized topLevel = true

/-- **What the parts of a name are.** -/
theorem guess?_eq_some_iff {name : String} {c : ClassName} :
    guess? name = some c ↔ ∃ package topLevel nested, Segments name package topLevel nested ∧
      c = ⟨dotted package, String.ofList topLevel, dotted nested⟩ := by
  rw [guess?_eq_ofSegments, ofSegments]
  constructor
  · intro h
    split at h
    · rename_i hall
      split at h
      · cases h
      rename_i topLevel nested hdrop
      cases h
      have hsplit : List.splitOn '.' name.toList
          = (List.splitOn '.' name.toList).takeWhile (!isCapitalized ·) ++ topLevel :: nested := by
        rw [← hdrop, List.takeWhile_append_dropWhile]
      have hcapital := List.head?_dropWhile_not (!isCapitalized ·) (List.splitOn '.' name.toList)
      rw [hdrop] at hcapital
      refine ⟨_, topLevel, nested, ⟨hsplit, ?_, ?_, by simpa using hcapital⟩, rfl⟩
      · rw [← hsplit]
        exact List.all_eq_true.1 hall
      · intro segment hsegment
        simpa using List.mem_takeWhile_imp hsegment
    · cases h
  · rintro ⟨package, topLevel, nested, h, rfl⟩
    have hsmall : ∀ segment ∈ package, (!isCapitalized segment) = true := by
      intro segment hsegment
      rw [h.package_small segment hsegment]
      rfl
    have hcapital : ¬(!isCapitalized topLevel) = true := by simp [h.topLevel_capital]
    have hall : (package ++ topLevel :: nested).all Java.isIdentifier = true :=
      List.all_eq_true.2 h.isIdentifier
    rw [h.split_eq, if_pos hall, List.dropWhile_append_of_pos hsmall,
      List.takeWhile_append_of_pos hsmall,
      List.dropWhile_cons_of_neg (p := (!isCapitalized ·)) hcapital,
      List.takeWhile_cons_of_neg (p := (!isCapitalized ·)) hcapital, List.append_nil,
      List.nil_append]

variable {name : String} {package nested : List (List Char)} {topLevel : List Char}

theorem Segments.short_eq (h : Segments name package topLevel nested) (p : String) :
    short ⟨p, String.ofList topLevel, dotted nested⟩ = dotted (topLevel :: nested) := by
  have hnested : ∀ segment ∈ nested, Java.isIdentifier segment = true := fun segment hsegment =>
    h.isIdentifier segment (List.mem_append_right _ (List.mem_cons_of_mem _ hsegment))
  have hone : String.ofList topLevel = dotted [topLevel] := by simp [dotted]
  rw [short, hone]
  split
  · rename_i hempty
    rw [(dotted_eq_empty_iff hnested).1 hempty]
  · rename_i hfull
    have hne : nested ≠ [] := fun hnil => hfull ((dotted_eq_empty_iff hnested).2 hnil)
    exact (dotted_append (List.cons_ne_nil topLevel []) hne).symm

/-- The segments without the package. -/
theorem Segments.tail (h : Segments name package topLevel nested) :
    Segments (dotted (topLevel :: nested)) [] topLevel nested := by
  refine ⟨split_dotted fun segment hsegment => ?_, fun segment hsegment => ?_, nofun,
    h.topLevel_capital⟩
  · have hmem : segment ∈ List.splitOn '.' name.toList := by
      rw [h.split_eq]
      exact List.mem_append_right _ hsegment
    exact not_mem_of_mem_splitOn hmem
  · exact h.isIdentifier segment (List.mem_append_right _ hsegment)

variable {c : ClassName}

/-- **The package and the rest make up the name.** -/
theorem eq_of_guess? (h : guess? name = some c) :
    name = if c.package = "" then c.short else c.package ++ "." ++ c.short := by
  obtain ⟨package, topLevel, nested, hsegments, rfl⟩ := guess?_eq_some_iff.1 h
  have hpackage : ∀ segment ∈ package, Java.isIdentifier segment = true := fun segment hsegment =>
    hsegments.isIdentifier segment (List.mem_append_left _ hsegment)
  have hname := dotted_split name
  rw [hsegments.split_eq] at hname
  rw [hsegments.short_eq]
  split
  · rename_i hempty
    rw [← hname, (dotted_eq_empty_iff hpackage).1 hempty, List.nil_append]
  · rename_i hfull
    have hne : package ≠ [] := fun hnil => hfull ((dotted_eq_empty_iff hpackage).2 hnil)
    rw [← hname, dotted_append hne (List.cons_ne_nil _ _)]

/-- **Without its package, a name has the same parts** but for the package. -/
theorem guess?_short (h : guess? name = some c) :
    guess? c.short = some { c with package := "" } := by
  obtain ⟨package, topLevel, nested, hsegments, rfl⟩ := guess?_eq_some_iff.1 h
  rw [hsegments.short_eq]
  exact guess?_eq_some_iff.2 ⟨[], topLevel, nested, hsegments.tail, by simp [dotted]⟩

theorem dot_not_mem_topLevel (h : guess? name = some c) : '.' ∉ c.topLevel.toList := by
  obtain ⟨package, topLevel, nested, hsegments, rfl⟩ := guess?_eq_some_iff.1 h
  have hmem : topLevel ∈ List.splitOn '.' name.toList := by
    rw [hsegments.split_eq]
    exact List.mem_append_right _ List.mem_cons_self
  rw [String.toList_ofList]
  exact not_mem_of_mem_splitOn hmem

theorem short_suffix (h : guess? name = some c) : c.short.toList <:+ name.toList := by
  rw [eq_of_guess? h]
  split
  · exact List.suffix_rfl
  · rw [String.toList_append]
    exact List.suffix_append _ _

theorem exists_head?_short (h : guess? name = some c) :
    ∃ first, c.short.toList.head? = some first ∧ isUppercase first = true := by
  obtain ⟨package, topLevel, nested, hsegments, rfl⟩ := guess?_eq_some_iff.1 h
  have hcapital := hsegments.topLevel_capital
  rw [hsegments.short_eq, dotted, String.toList_ofList, intercalate_cons]
  cases topLevel with
  | nil => cases hcapital
  | cons first rest => exact ⟨first, rfl, hcapital⟩

/-! ## Nothing is lost -/

/-- **A name has parts exactly if all its segments are identifiers and one has a capital
letter.** -/
theorem isSome_guess?_iff :
    (guess? name).isSome ↔
      (∀ segment ∈ List.splitOn '.' name.toList, Java.isIdentifier segment = true) ∧
      ∃ segment ∈ List.splitOn '.' name.toList, isCapitalized segment = true := by
  constructor
  · intro h
    obtain ⟨c, hc⟩ := Option.isSome_iff_exists.1 h
    obtain ⟨package, topLevel, nested, hsegments, -⟩ := guess?_eq_some_iff.1 hc
    rw [hsegments.split_eq]
    exact ⟨hsegments.isIdentifier, topLevel, by simp, hsegments.topLevel_capital⟩
  · rintro ⟨hall, segment, hsegment, hcapital⟩
    have hdrop : (List.splitOn '.' name.toList).dropWhile (!isCapitalized ·) ≠ [] := by
      intro hnil
      have hsmall := List.dropWhile_eq_nil_iff.1 hnil segment hsegment
      simp [hcapital] at hsmall
    obtain ⟨topLevel, nested, hparts⟩ := List.exists_cons_of_ne_nil hdrop
    rw [guess?_eq_ofSegments, if_pos (List.all_eq_true.2 hall), ofSegments, hparts]
    rfl

namespace Segments

variable (h : Segments name package topLevel nested)

include h

theorem topLevel_ne_nil : topLevel ≠ [] := by
  rintro rfl
  exact Bool.false_ne_true h.topLevel_capital

/-- The first segment with a capital letter is the top-level class. -/
theorem find?_eq : (List.splitOn '.' name.toList).find? isCapitalized = some topLevel := by
  have hnone : package.find? isCapitalized = none := by
    rw [List.find?_eq_none]
    intro segment hsegment
    rw [h.package_small segment hsegment]
    exact Bool.false_ne_true
  rw [h.split_eq, List.find?_append, hnone, Option.none_or,
    List.find?_cons_of_pos h.topLevel_capital]

/-- No segment of the package has a capital letter. An empty package counts as one that is empty. -/
theorem package_split_small :
    ∀ segment ∈ List.splitOn '.' (dotted package).toList, isCapitalized segment = false := by
  cases package with
  | nil =>
    intro segment hsegment
    rw [List.mem_singleton.1 hsegment]
    rfl
  | cons first rest =>
    have hdots : ∀ segment ∈ first :: rest, '.' ∉ segment := by
      intro segment hsegment
      have hmem : segment ∈ List.splitOn '.' name.toList := by
        rw [h.split_eq]
        exact List.mem_append_left _ hsegment
      exact not_mem_of_mem_splitOn hmem
    rw [split_dotted hdots]
    exact h.package_small

end Segments

/-- **A name is divided into its parts without loss.** No offset at which it is cut is inside a
character. It has parts if all its segments are identifiers and one has a capital letter. Then the
parts with dots between them make up the name, where those that are empty are left out, the
top-level class is the first segment with a capital letter, the package has none, and the rest is
what stands after the package and its dot. -/
theorem guess?_exact (name : String) :
    divide name = some (guess? name) ∧
      ((guess? name).isSome ↔
        (∀ segment ∈ List.splitOn '.' name.toList, Java.isIdentifier segment = true) ∧
          ∃ segment ∈ List.splitOn '.' name.toList, isCapitalized segment = true) ∧
      ∀ c, guess? name = some c →
        name = String.intercalate "." ([c.package, c.topLevel, c.nested].filter (· ≠ "")) ∧
          (List.splitOn '.' name.toList).find? isCapitalized = some c.topLevel.toList ∧
          (∀ segment ∈ List.splitOn '.' c.package.toList, isCapitalized segment = false) ∧
          name = (if c.package = "" then "" else c.package ++ ".") ++ c.short := by
  refine ⟨divide_eq_guess? name, isSome_guess?_iff, fun c hc => ?_⟩
  obtain ⟨package, topLevel, nested, hsegments, rfl⟩ := guess?_eq_some_iff.1 hc
  have hname := eq_of_guess? hc
  have htop : String.ofList topLevel ≠ "" := by simpa using hsegments.topLevel_ne_nil
  refine ⟨?_, ?_, hsegments.package_split_small, ?_⟩
  · -- the cases of an empty package and of an empty nested path
    rw [hname, short]
    by_cases hpackage : dotted package = "" <;> by_cases hnested : dotted nested = "" <;>
      simp [hpackage, hnested, htop, String.append_assoc]
  · rw [hsegments.find?_eq, String.toList_ofList]
  · dsimp only at hname ⊢
    split at hname
    · rename_i hempty
      rw [if_pos hempty, String.empty_append, ← hname]
    · rename_i hfull
      rw [if_neg hfull, ← hname]

/-- A package of two segments, and a nested class below one that starts with a small letter. -/
theorem guess?_exact_nested :
    let name := "é.ß2.Ñu.été.Y"
    let c : ClassName := ⟨"é.ß2", "Ñu", "été.Y"⟩
    divide name = some (some c) ∧ (guess? name).isSome ∧ guess? name = some c ∧
      (List.splitOn '.' name.toList).find? isCapitalized = some c.topLevel.toList ∧
      name = c.package ++ "." ++ c.short ∧ c.short = "Ñu.été.Y" := by
  intro name c
  have hc : guess? name = some c := by decide +kernel
  obtain ⟨hdivide, hsome, hparts⟩ := guess?_exact name
  rw [hc] at hdivide
  obtain ⟨-, hfirst, -, hrest⟩ := hparts c hc
  have hpackage : ¬c.package = "" := by decide
  rw [if_neg hpackage] at hrest
  exact ⟨hdivide, hsome.2 ⟨by decide +kernel, "Ñu".toList, by decide, by decide +kernel⟩, hc,
    hfirst, hrest, by decide⟩

/-! ## Names without their package in descriptors -/

/-- No capital letter is blank. -/
theorem not_isBlank_of_isUppercase {c : Char} (h : isUppercase c = true) : isBlank c = false := by
  rw [Bool.eq_false_iff]
  intro hblank
  have hranges : ∀ range ∈ blankRanges, ∀ n ∈ List.range' range.1 (range.2 + 1 - range.1),
      (uppercaseRuns.any (·.contains n)) = false := by
    decide +kernel
  obtain ⟨range, hrange, hin⟩ := List.any_eq_true.1 hblank
  have hmem : c.toNat ∈ List.range' range.1 (range.2 + 1 - range.1) := by
    simp only [Bool.and_eq_true, decide_eq_true_eq] at hin
    rw [List.mem_range'_1]
    omega
  exact Bool.false_ne_true ((hranges range hrange _ hmem).symm.trans h)

theorem isBody_short (h : guess? name = some c) (hname : IsBody name.toList) :
    IsBody c.short.toList := by
  obtain ⟨first, hfirst, hcapital⟩ := exists_head?_short h
  obtain ⟨front, hfront⟩ := short_suffix h
  have hne : c.short.toList ≠ [] := by
    intro hnil
    rw [hnil] at hfirst
    cases hfirst
  refine ⟨hne, trim_eq_self ?_ ?_, ?_⟩
  · intro d hd
    rw [hfirst] at hd
    cases hd
    exact not_isBlank_of_isUppercase hcapital
  · intro d hd
    have hlast : (trim name.toList).getLast? = some d := by
      rw [hname.trim_eq, ← hfront, List.getLast?_append, hd, Option.some_or]
    exact not_isBlank_of_getLast?_trim hlast
  · rw [hfirst]
    rintro ⟨⟩
    exact absurd hcapital (by decide +kernel)

/-- The words of the language start with small letters. -/
theorem isBareName_short (h : guess? name = some c) (hname : IsBareName name.toList) :
    IsBareName c.short.toList := by
  obtain ⟨first, hfirst, hcapital⟩ := exists_head?_short h
  refine ⟨fun harray => hname.not_array (harray.trans (short_suffix h)), ?_, ?_⟩
  · rw [Option.eq_none_iff_forall_ne_some]
    intro kind hkind
    have hword : kind.keyword.toList.head? = some first := by
      rw [← ofKeyword?_eq_some_iff.1 hkind, String.toList_ofList, hfirst]
    have hsmall : ∀ d, kind.keyword.toList.head? = some d → isUppercase d = false := by
      cases kind <;> rintro d ⟨⟩ <;> decide +kernel
    exact Bool.false_ne_true ((hsmall first hword).symm.trans hcapital)
  · intro hvoid
    rw [hvoid] at hfirst
    cases hfirst
    exact absurd hcapital (by decide +kernel)

theorem isOuterName_short (h : guess? name = some c) {bare : Bool}
    (hname : IsOuterName bare name.toList) : IsOuterName bare c.short.toList := by
  have hsubset := (short_suffix h).subset
  exact ⟨isBody_short h hname.toIsBody, fun hmem => hname.opening_not_mem (hsubset hmem),
    fun hbare hmem => hname.closing_not_mem hbare (hsubset hmem),
    fun hbare => isBareName_short h (hname.isBareName hbare)⟩

theorem isPlainName_short (h : guess? name = some c) {bare : Bool}
    (hname : IsPlainName bare name.toList) : IsPlainName bare c.short.toList := by
  have hsubset := (short_suffix h).subset
  exact ⟨isBody_short h hname.toIsBody, fun hmem => hname.opening_not_mem (hsubset hmem),
    fun hmem => hname.closing_not_mem (hsubset hmem),
    fun hmem => hname.comma_not_mem (hsubset hmem),
    fun hbare => isBareName_short h (hname.isBareName hbare)⟩

end ClassName

end ValueClass.Java
