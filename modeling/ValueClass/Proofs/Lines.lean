import ValueClass.Proofs.Blocks

/-!
# Lines of a declaration

A declaration is read through its lines alone. How a line ends is not part of it, and reading stops
at the first line that declares a field badly.

* `lineInduction`: induction along the lines of a text.
* `lines_putReturns`: **the lines of a text stay the same when line feeds get carriage returns.**
* `read_putReturns`: so does what is read.
* `IsMalformed`: what a field line must not be.
* `line_of_malformed`, `exists_line_eq_ok`: a line is reported if it is malformed, and read if not.
* `lines_eq_error_iff`: **lines are refused exactly for the first malformed one.**
* `read_reports_first_malformed`: when a declaration is refused, and what is said of it.
-/

namespace ValueClass

open Text

/-! ## Texts by their lines -/

/-- Induction along the lines of a text: what holds of a text without line feeds, and of a line put
in front of a text of which it holds, holds of every text. -/
theorem lineInduction {motive : List Char → Prop} (last : ∀ cs, '\n' ∉ cs → motive cs)
    (line : ∀ cs rest, '\n' ∉ cs → motive rest → motive (cs ++ '\n' :: rest)) (cs : List Char) :
    motive cs := by
  have hpieces : ∀ (rest : List (List Char)) (first : List Char),
      (∀ piece ∈ first :: rest, '\n' ∉ piece) →
        motive (List.intercalate ['\n'] (first :: rest)) := by
    intro rest
    induction rest with
    | nil =>
      intro first h
      rw [List.intercalate_singleton]
      exact last first (h first List.mem_cons_self)
    | cons next rest ih =>
      intro first h
      obtain ⟨hfirst, hrest⟩ := List.forall_mem_cons.1 h
      rw [List.intercalate_cons_cons, List.append_assoc]
      exact line first _ hfirst (ih next hrest)
  obtain ⟨first, rest, hsplit⟩ := exists_splitOn_eq '\n' cs
  have hjoin : List.intercalate ['\n'] (first :: rest) = cs := by
    rw [← hsplit, List.intercalate_splitOn]
  rw [← hjoin]
  refine hpieces rest first fun piece hpiece => ?_
  rw [← hsplit] at hpiece
  exact not_mem_of_mem_splitOn hpiece

/-- The lines up to a line feed do not depend on what follows it. -/
theorem lines_append_of_newline (start rest : List Char) :
    lines (start ++ '\n' :: rest) = lines (start ++ ['\n']) ++ lines rest := by
  induction start using lineInduction with
  | last cs h =>
    rw [lines_append_newline h, lines_append_newline h]
    rfl
  | line cs start h ih =>
    rw [List.append_assoc, List.append_assoc, List.cons_append, List.cons_append,
      lines_append_newline h, lines_append_newline h, ih, List.cons_append]

/-! ## Line ends -/

/-- The text with a carriage return before each line feed that is chosen. They are chosen by their
places in the text. -/
def putReturns (chosen : Nat → Bool) : List Char → List Char
  | [] => []
  | c :: rest =>
    (if c = '\n' ∧ chosen 0 = true then ['\r', '\n'] else [c])
      ++ putReturns (fun place => chosen (place + 1)) rest

theorem putReturns_append (chosen : Nat → Bool) (as bs : List Char) :
    putReturns chosen (as ++ bs)
      = putReturns chosen as ++ putReturns (fun place => chosen (place + as.length)) bs := by
  induction as generalizing chosen with
  | nil => rfl
  | cons a as ih =>
    rw [List.cons_append, putReturns, putReturns, ih, List.append_assoc]
    simp only [List.length_cons, Nat.add_assoc]

theorem putReturns_of_not_mem (chosen : Nat → Bool) {cs : List Char} (h : '\n' ∉ cs) :
    putReturns chosen cs = cs := by
  induction cs generalizing chosen with
  | nil => rfl
  | cons c cs ih =>
    obtain ⟨hc, hcs⟩ := List.ne_and_not_mem_of_not_mem_cons h
    rw [putReturns, if_neg fun hnewline => hc hnewline.1.symm, ih _ hcs]
    rfl

/-- **The lines of a text stay the same when line feeds get carriage returns**, if it had none. -/
theorem lines_putReturns (chosen : Nat → Bool) {cs : List Char} (h : '\r' ∉ cs) :
    lines (putReturns chosen cs) = lines cs := by
  induction cs using lineInduction generalizing chosen with
  | last cs hline => rw [putReturns_of_not_mem chosen hline]
  | line cs rest hline ih =>
    have hreturn : '\r' ∉ cs := fun hmem => h (List.mem_append_left _ hmem)
    have hrest : '\r' ∉ rest := fun hmem =>
      h (List.mem_append_right _ (List.mem_cons_of_mem _ hmem))
    have hkept : dropReturn cs = cs :=
      dropReturn_of_getLast? fun hlast => hreturn (List.mem_of_getLast? hlast)
    rw [putReturns_append, putReturns_of_not_mem chosen hline, putReturns,
      lines_append_newline hline, hkept]
    split
    · -- the carriage return is the end of the line, and is dropped with the line feed
      have hmore : '\n' ∉ cs ++ ['\r'] := by simp [hline]
      have hreturned (after : List Char) :
          cs ++ (['\r', '\n'] ++ after) = cs ++ ['\r'] ++ '\n' :: after := by
        simp
      rw [hreturned, lines_append_newline hmore, dropReturn_concat_return, ih _ hrest]
    · rw [List.singleton_append, lines_append_newline hline, hkept, ih _ hrest]

/-- **Line ends do not matter.** A declaration without carriage returns is read in the same way when
any of its line feeds get one, whether it is accepted or not. -/
theorem read_putReturns (target text : String) (h : '\r' ∉ text.toList) (chosen : Nat → Bool) :
    Description.read target (String.ofList (putReturns chosen text.toList))
      = Description.read target text := by
  unfold Description.read
  rw [String.toList_ofList, lines_putReturns chosen h]

/-- Carriage returns at the ends of some lines get neither into the documentation nor into a line
that is reported. -/
theorem read_putReturns_point :
    Description.read "Point" "# A point.\r\n# In the plane.\n\r\nx: int\r\n"
      = .ok ⟨"", "Point", "A point.\nIn the plane.", [⟨"x", "int", ""⟩]⟩ ∧
    Description.read "Point" "x: int\n\r\n y \r\n" = .error (.field 3 " y ") := by
  have haccepted : "# A point.\r\n# In the plane.\n\r\nx: int\r\n" = String.ofList
      (putReturns (· ≠ 26) "# A point.\n# In the plane.\n\nx: int\n".toList) := by
    decide
  have hrefused : "x: int\n\r\n y \r\n" = String.ofList
      (putReturns (· ≠ 6) "x: int\n\n y \n".toList) := by
    decide
  rw [haccepted, hrefused, read_putReturns _ _ (by decide), read_putReturns _ _ (by decide)]
  constructor <;> decide +kernel

/-! ## Malformed lines -/

/-- **A malformed line**: it is neither blank nor a comment, and has no colon, or only blanks before
or after the first one. -/
def IsMalformed (line : List Char) : Prop :=
  isFieldLine line = true ∧
    (':' ∉ line ∨ ∃ before after, line = before ++ ':' :: after ∧ ':' ∉ before ∧
      (AllBlank before ∨ AllBlank after))

theorem fieldParts?_eq_none_iff {line : List Char} :
    fieldParts? line = none ↔ ':' ∉ line ∨ ∃ before after, line = before ++ ':' :: after ∧
      ':' ∉ before ∧ (AllBlank before ∨ AllBlank after) := by
  unfold fieldParts?
  cases hcut : cut ':' line with
  | none => exact iff_of_true rfl (.inl (cut_eq_none hcut))
  | some parts =>
    obtain ⟨before, after⟩ := parts
    obtain ⟨hline, hcolon⟩ := cut_eq_some hcut
    have hmem : ':' ∈ line := by simp [hline]
    simp only [trim_eq_nil_iff, ite_eq_left_iff, reduceCtorEq, imp_false, not_not, hmem,
      not_true_eq_false, false_or]
    constructor
    · exact fun hblank => ⟨before, after, hline, hcolon, hblank⟩
    · rintro ⟨front, back, hother, hfront, hblank⟩
      -- there is one first colon
      rw [hother, cut_append_sep hfront] at hcut
      cases hcut
      exact hblank

theorem isMalformed_iff {line : List Char} :
    IsMalformed line ↔ Line.of line = .field ∧ fieldParts? line = none := by
  rw [IsMalformed, fieldParts?_eq_none_iff]
  refine and_congr_left fun _ => ?_
  rcases lineOf_cases line with ⟨hkind, hblank, hcomment⟩ | ⟨text, hkind, hblank, hcomment⟩ |
    ⟨hkind, hblank, hcomment⟩ <;> simp [isFieldLine, hkind, hblank, hcomment]

instance (line : List Char) : Decidable (IsMalformed line) :=
  decidable_of_iff (Line.of line = .field ∧ fieldParts? line = none) isMalformed_iff.symm

/-- A line that is not malformed is read. -/
theorem exists_line_eq_ok (r : Reading) (number : Nat) {line : List Char} (h : ¬IsMalformed line) :
    ∃ next, r.line number line = .ok next := by
  rw [isMalformed_iff] at h
  unfold Reading.line
  cases hkind : Line.of line with
  | blank => exact ⟨_, rfl⟩
  | comment text => exact ⟨_, rfl⟩
  | field =>
    cases hparts : fieldParts? line with
    | none => exact absurd ⟨hkind, hparts⟩ h
    | some parts => exact ⟨_, rfl⟩

/-- A malformed line is reported as it is, with its number. -/
theorem line_of_malformed (r : Reading) (number : Nat) {line : List Char} (h : IsMalformed line) :
    r.line number line = .error (.field number (String.ofList line)) := by
  obtain ⟨hkind, hparts⟩ := isMalformed_iff.1 h
  unfold Reading.line
  simp only [hkind, hparts]

/-! ## The first malformed line -/

/-- The line is malformed, and none of the lines above it is. -/
structure IsFirstMalformed (above : List (List Char)) (line : List Char) : Prop where
  above : ∀ other ∈ above, ¬IsMalformed other
  line : IsMalformed line

theorem exists_isFirstMalformed {ls : List (List Char)} (h : ∃ line ∈ ls, IsMalformed line) :
    ∃ above line, IsFirstMalformed above line ∧ above ++ [line] <+: ls := by
  have hfound : (ls.find? (IsMalformed ·)).isSome = true := by
    rw [List.find?_isSome]
    obtain ⟨line, hmem, hline⟩ := h
    exact ⟨line, hmem, decide_eq_true hline⟩
  obtain ⟨line, hfind⟩ := Option.isSome_iff_exists.1 hfound
  obtain ⟨hline, above, below, rfl, habove⟩ := List.find?_eq_some_iff_append.1 hfind
  refine ⟨above, line, ⟨fun other hother => ?_, of_decide_eq_true hline⟩, below, by simp⟩
  simpa using habove other hother

theorem isFirstMalformed_cons {first line : List Char} {above : List (List Char)} :
    IsFirstMalformed (first :: above) line ↔ ¬IsMalformed first ∧ IsFirstMalformed above line := by
  constructor
  · intro h
    obtain ⟨hfirst, habove⟩ := List.forall_mem_cons.1 h.above
    exact ⟨hfirst, habove, h.line⟩
  · rintro ⟨hfirst, h⟩
    exact ⟨List.forall_mem_cons.2 ⟨hfirst, h.above⟩, h.line⟩

/-- **Lines are refused exactly for the first malformed one.** -/
theorem lines_eq_error_iff {r : Reading} {number : Nat} {ls : List (List Char)} {fault : Fault} :
    r.lines number ls = .error fault ↔
      ∃ above line, IsFirstMalformed above line ∧ above ++ [line] <+: ls ∧
        fault = .field (number + above.length) (String.ofList line) := by
  induction ls generalizing r number with
  | nil => simp [Reading.lines]
  | cons first ls ih =>
    rw [Reading.lines]
    by_cases hfirst : IsMalformed first
    · -- no other line can be the first malformed one
      rw [line_of_malformed r number hfirst]
      constructor
      · rintro ⟨⟩
        exact ⟨[], first, ⟨List.forall_mem_nil _, hfirst⟩, by simp, rfl⟩
      · rintro ⟨above, line, hline, hbegin, rfl⟩
        cases above with
        | nil =>
          obtain ⟨rfl, -⟩ := List.cons_prefix_cons.1 hbegin
          rfl
        | cons other above =>
          obtain ⟨rfl, -⟩ := List.cons_prefix_cons.1 hbegin
          exact absurd hfirst (isFirstMalformed_cons.1 hline).1
    · -- the first malformed line is that of the lines below, and they are numbered from one more
      obtain ⟨next, hnext⟩ := exists_line_eq_ok r number hfirst
      have hnumber (above : List (List Char)) :
          number + (first :: above).length = number + 1 + above.length := by
        rw [List.length_cons]
        omega
      rw [hnext]
      dsimp only
      rw [ih]
      constructor
      · rintro ⟨above, line, hline, hbegin, rfl⟩
        refine ⟨first :: above, line, isFirstMalformed_cons.2 ⟨hfirst, hline⟩,
          List.cons_prefix_cons.2 ⟨rfl, hbegin⟩, ?_⟩
        rw [hnumber]
      · rintro ⟨above, line, hline, hbegin, rfl⟩
        cases above with
        | nil =>
          obtain ⟨rfl, -⟩ := List.cons_prefix_cons.1 hbegin
          exact absurd hline.line hfirst
        | cons other above =>
          obtain ⟨rfl, hrest⟩ := List.cons_prefix_cons.1 hbegin
          refine ⟨above, line, (isFirstMalformed_cons.1 hline).2, hrest, ?_⟩
          rw [hnumber]

/-- A target that is refused is refused by its name. -/
theorem exists_flaw_of_readTarget {target : String} {fault : Fault}
    (h : readTarget target = .error fault) : ∃ flaw, fault = .target target flaw := by
  unfold readTarget at h
  split at h
  · cases h
    exact ⟨_, rfl⟩
  · split at h
    · cases h
      exact ⟨_, rfl⟩
    · split at h <;> cases h

/-- Under a target that is accepted, only lines are refused. -/
theorem read_eq_error_iff_lines {target text : String} {parts : String × String} {fault : Fault}
    (h : readTarget target = .ok parts) :
    Description.read target text = .error fault ↔
      Reading.lines {} 1 (lines text.toList) = .error fault := by
  unfold Description.read
  simp only [h]
  cases Reading.lines {} 1 (lines text.toList) with
  | error other => simp
  | ok reading => simp

theorem read_eq_error_iff {target text : String} {parts : String × String} {fault : Fault}
    (h : readTarget target = .ok parts) :
    Description.read target text = .error fault ↔
      ∃ above line, IsFirstMalformed above line ∧ above ++ [line] <+: lines text.toList ∧
        fault = .field (above.length + 1) (String.ofList line) := by
  rw [read_eq_error_iff_lines h, lines_eq_error_iff]
  simp only [Nat.add_comm 1]

/-- What follows the first malformed line changes nothing. -/
theorem read_append_of_malformed {target : String} {parts : String × String}
    (h : readTarget target = .ok parts) {start : List Char}
    (hline : ∃ line ∈ lines (start ++ ['\n']), IsMalformed line) (rest : List Char) :
    Description.read target (String.ofList (start ++ '\n' :: rest))
      = Description.read target (String.ofList (start ++ ['\n'])) := by
  obtain ⟨above, line, hfirst, hbegin⟩ := exists_isFirstMalformed hline
  have hrefused (text : List Char) (htext : above ++ [line] <+: lines text) :
      Description.read target (String.ofList text)
        = .error (.field (above.length + 1) (String.ofList line)) := by
    rw [read_eq_error_iff h, String.toList_ofList]
    exact ⟨above, line, hfirst, htext, rfl⟩
  have hlonger : above ++ [line] <+: lines (start ++ '\n' :: rest) := by
    rw [lines_append_of_newline]
    exact hbegin.trans (List.prefix_append _ _)
  rw [hrefused _ hlonger, hrefused _ hbegin]

/-- **A declaration is refused for its target, or else for its first malformed line.** A target that
is refused is reported whatever the text is. Under any other target, a text is refused exactly if it
has a malformed line; what is reported is the first of them, as it stands, with its number among all
lines, and what follows it changes nothing. -/
theorem read_reports_first_malformed (target : String) :
    (∀ fault, readTarget target = .error fault →
      (∃ flaw, fault = .target target flaw) ∧
        ∀ text, Description.read target text = .error fault) ∧
    ∀ parts, readTarget target = .ok parts →
      (∀ text, (∃ fault, Description.read target text = .error fault) ↔
        ∃ line ∈ lines text.toList, IsMalformed line) ∧
      (∀ text fault, Description.read target text = .error fault ↔
        ∃ above line, IsFirstMalformed above line ∧ above ++ [line] <+: lines text.toList ∧
          fault = .field (above.length + 1) (String.ofList line)) ∧
      ∀ start, (∃ line ∈ lines (start ++ ['\n']), IsMalformed line) → ∀ rest,
        Description.read target (String.ofList (start ++ '\n' :: rest))
          = Description.read target (String.ofList (start ++ ['\n'])) := by
  refine ⟨fun fault h => ⟨exists_flaw_of_readTarget h, fun text => ?_⟩, fun parts h => ?_⟩
  · unfold Description.read
    simp only [h]
  refine ⟨fun text => ⟨?_, fun hline => ?_⟩, fun text fault => read_eq_error_iff h,
    fun start hline rest => read_append_of_malformed h hline rest⟩
  · rintro ⟨fault, hread⟩
    obtain ⟨above, line, hfirst, hbegin, -⟩ := (read_eq_error_iff h).1 hread
    exact ⟨line, hbegin.subset (by simp), hfirst.line⟩
  · obtain ⟨above, line, hfirst, hbegin⟩ := exists_isFirstMalformed hline
    exact ⟨_, (read_eq_error_iff h).2 ⟨above, line, hfirst, hbegin, rfl⟩⟩

/-- The fourth line has no colon. It is reported with the blanks around it, and the line below it,
which is malformed too, is not. -/
theorem read_reports_first_malformed_point :
    (∀ text, Description.read "geo..Point" text
      = .error (.target "geo..Point" .emptySegment)) ∧
    (∀ rest, Description.read "geo.Point" (String.ofList
        ("# A: point.\r\n\nx: int\n y \r\nz:".toList ++ '\n' :: rest))
      = .error (.field 4 " y ")) := by
  have htarget : readTarget "geo.Point" = .ok ("geo", "Point") := by decide +kernel
  have hrejected : readTarget "geo..Point" = .error (.target "geo..Point" .emptySegment) := by
    decide +kernel
  obtain ⟨-, herror, hrest⟩ := (read_reports_first_malformed "geo.Point").2 _ htarget
  refine ⟨((read_reports_first_malformed "geo..Point").1 _ hrejected).2, fun rest => ?_⟩
  have hlines : lines ("# A: point.\r\n\nx: int\n y \r\nz:".toList ++ ['\n'])
      = ["# A: point.".toList, [], "x: int".toList, " y ".toList, "z:".toList] := by
    decide
  have hfirst : IsFirstMalformed ["# A: point.".toList, [], "x: int".toList] " y ".toList :=
    ⟨by decide, by decide⟩
  have hline : ∃ line ∈ lines ("# A: point.\r\n\nx: int\n y \r\nz:".toList ++ ['\n']),
      IsMalformed line := by
    rw [hlines]
    exact ⟨" y ".toList, by simp, hfirst.line⟩
  rw [hrest _ hline, herror, String.toList_ofList, hlines]
  exact ⟨_, _, hfirst, ⟨["z:".toList], rfl⟩, rfl⟩

end ValueClass
