import Mathlib.Data.List.Basic
import Mathlib.Data.List.TakeWhile
import ValueClass.Text.Blank
import ValueClass.Text.Split

/-!
# Pieces of texts

How cutting and trimming go with putting texts together.

* `intercalate_cons`, `cons_eq_intercalate_iff`: pieces with separators between them.
* `not_mem_of_mem_splitOn`, `mem_of_mem_splitOn`: what the pieces between separators are.
* `cut_append_sep`, `cutLast_append_sep`: cutting once finds the separator that was put in.
* `lines_append_newline`: the line before a line feed is the first line.
-/

namespace ValueClass.Text

section Separators

variable {α : Type} {sep : α}

/-- The pieces with the separators between them, written out. -/
theorem intercalate_cons (sep : α) (first : List α) (rest : List (List α)) :
    List.intercalate [sep] (first :: rest) = first ++ rest.flatMap (sep :: ·) := by
  induction rest generalizing first with
  | nil => simp
  | cons next rest ih => rw [List.intercalate_cons_cons, ih]; simp

theorem intercalate_append (sep : α) {as bs : List (List α)} (has : as ≠ []) (hbs : bs ≠ []) :
    List.intercalate [sep] (as ++ bs)
      = List.intercalate [sep] as ++ sep :: List.intercalate [sep] bs := by
  obtain ⟨a, as, rfl⟩ := List.exists_cons_of_ne_nil has
  obtain ⟨b, bs, rfl⟩ := List.exists_cons_of_ne_nil hbs
  simp [intercalate_cons]

theorem mem_intercalate_iff {a : α} (ha : a ≠ sep) {pieces : List (List α)} :
    a ∈ List.intercalate [sep] pieces ↔ ∃ piece ∈ pieces, a ∈ piece := by
  cases pieces with
  | nil => simp
  | cons first rest => simp [intercalate_cons, ha]

/-- The first symbol of joined pieces is in the first piece, or is the separator after it. -/
theorem cons_eq_intercalate_iff {a : α} {as first : List α} {rest : List (List α)} :
    a :: as = List.intercalate [sep] (first :: rest) ↔
      (∃ tail, first = a :: tail ∧ as = List.intercalate [sep] (tail :: rest)) ∨
        first = [] ∧ a = sep ∧
          ∃ next pieces, rest = next :: pieces ∧ as = List.intercalate [sep] rest := by
  cases first with
  | cons b first =>
    simp only [intercalate_cons, List.cons_append, List.cons.injEq, reduceCtorEq, false_and,
      or_false]
    constructor
    · rintro ⟨rfl, rfl⟩
      exact ⟨first, ⟨rfl, rfl⟩, rfl⟩
    · rintro ⟨tail, ⟨rfl, rfl⟩, rfl⟩
      exact ⟨rfl, rfl⟩
  | nil => cases rest <;> simp [intercalate_cons]

theorem infix_intercalate {piece : List α} {pieces : List (List α)} (h : piece ∈ pieces) :
    piece <:+: List.intercalate [sep] pieces := by
  obtain ⟨front, back, rfl⟩ := List.append_of_mem h
  cases front with
  | nil => exact ⟨[], back.flatMap (sep :: ·), by simp [intercalate_cons]⟩
  | cons first front =>
    exact ⟨first ++ front.flatMap (sep :: ·) ++ [sep], back.flatMap (sep :: ·),
      by simp [intercalate_cons]⟩

variable [DecidableEq α]

theorem splitOn_cons_self (as : List α) :
    List.splitOn sep (sep :: as) = [] :: List.splitOn sep as :=
  List.splitOn_append_cons_self [] as

theorem exists_splitOn_eq (sep : α) (as : List α) :
    ∃ first rest, List.splitOn sep as = first :: rest :=
  List.exists_cons_of_ne_nil (List.splitOn_ne_nil sep as)

theorem not_mem_of_mem_splitOn {as piece : List α} (h : piece ∈ List.splitOn sep as) :
    sep ∉ piece := by
  induction as generalizing piece with
  | nil => simp_all
  | cons a as ih =>
    rw [List.splitOn_cons_eq_if_modifyHead] at h
    split at h
    · rcases List.mem_cons.1 h with rfl | h
      · exact List.not_mem_nil
      · exact ih h
    · rename_i ha
      obtain ⟨first, rest, hpieces⟩ := exists_splitOn_eq sep as
      rw [hpieces, List.modifyHead_cons, List.mem_cons] at h
      rw [hpieces] at ih
      rcases h with rfl | h
      · exact List.not_mem_cons_of_ne_of_not_mem (fun heq => ha (beq_iff_eq.2 heq.symm))
          (ih List.mem_cons_self)
      · exact ih (List.mem_cons_of_mem _ h)

theorem mem_of_mem_splitOn {a : α} {as piece : List α} (h : piece ∈ List.splitOn sep as)
    (ha : a ∈ piece) : a ∈ as := by
  have hne : a ≠ sep := fun heq => not_mem_of_mem_splitOn h (heq ▸ ha)
  have htext : List.intercalate [sep] (List.splitOn sep as) = as := List.intercalate_splitOn sep
  rw [← htext, mem_intercalate_iff hne]
  exact ⟨piece, h, ha⟩

theorem cut_append_sep {as : List α} (h : sep ∉ as) (bs : List α) :
    cut sep (as ++ sep :: bs) = some (as, bs) := by
  induction as with
  | nil => simp [cut]
  | cons a as ih =>
    obtain ⟨ha, has⟩ := List.ne_and_not_mem_of_not_mem_cons h
    simp [cut, ha.symm, ih has]

theorem cut_of_not_mem {as : List α} (h : sep ∉ as) : cut sep as = none := by
  induction as with
  | nil => rfl
  | cons a as ih =>
    obtain ⟨ha, has⟩ := List.ne_and_not_mem_of_not_mem_cons h
    simp [cut, ha.symm, ih has]

/-- Cutting once finds the first separator. -/
theorem cut_eq_some {as before after : List α} (h : cut sep as = some (before, after)) :
    as = before ++ sep :: after ∧ sep ∉ before := by
  induction as generalizing before with
  | nil => cases h
  | cons a as ih =>
    rw [cut] at h
    split at h
    · rename_i ha
      cases h
      exact ⟨by rw [ha, List.nil_append], List.not_mem_nil⟩
    · rename_i ha
      obtain ⟨⟨front, back⟩, hcut, hparts⟩ := Option.map_eq_some_iff.1 h
      cases hparts
      obtain ⟨has, hfront⟩ := ih hcut
      exact ⟨by rw [has, List.cons_append],
        List.not_mem_cons_of_ne_of_not_mem (Ne.symm ha) hfront⟩

theorem cut_eq_none {as : List α} (h : cut sep as = none) : sep ∉ as := by
  intro hmem
  obtain ⟨before, after, rfl, hbefore⟩ := List.eq_append_cons_of_mem hmem
  rw [cut_append_sep hbefore] at h
  cases h

theorem cutLast_append_sep {bs : List α} (h : sep ∉ bs) (as : List α) :
    cutLast sep (as ++ sep :: bs) = some (as, bs) := by
  have hcut := cut_append_sep (fun hmem => h (List.mem_reverse.1 hmem)) as.reverse
  simp [cutLast, hcut]

theorem cutLast_of_not_mem {as : List α} (h : sep ∉ as) : cutLast sep as = none := by
  have hcut := cut_of_not_mem (fun hmem => h (List.mem_reverse.1 hmem))
  simp [cutLast, hcut]

/-- Cutting at the last separator leaves none behind it. -/
theorem cutLast_eq_some {as before after : List α} (h : cutLast sep as = some (before, after)) :
    as = before ++ sep :: after ∧ sep ∉ after := by
  obtain ⟨⟨back, front⟩, hcut, hparts⟩ := Option.map_eq_some_iff.1 h
  cases hparts
  obtain ⟨hreverse, hback⟩ := cut_eq_some hcut
  refine ⟨?_, fun hmem => hback (List.mem_reverse.1 hmem)⟩
  rw [← List.reverse_reverse as, hreverse]
  simp

theorem cutLast_eq_none {as : List α} (h : cutLast sep as = none) : sep ∉ as :=
  fun hmem => cut_eq_none (Option.map_eq_none_iff.1 h) (List.mem_reverse.2 hmem)

theorem isSuffixOf?_eq_none_iff {ending as : List α} :
    ending.isSuffixOf? as = none ↔ ¬ending <:+ as := by
  rw [← Option.not_isSome_iff_eq_none, List.isSome_isSuffixOf?_eq_isSuffixOf,
    List.isSuffixOf_iff_suffix]

end Separators

/-! ## Lines -/

theorem dropReturn_concat_return (line : List Char) : dropReturn (line ++ ['\r']) = line := by
  rw [dropReturn, List.isSuffixOf?_eq_some_iff_append_eq.2 rfl, Option.getD_some]

theorem dropReturn_of_getLast? {line : List Char} (h : line.getLast? ≠ some '\r') :
    dropReturn line = line := by
  have hnone : ['\r'].isSuffixOf? line = none := by
    rw [isSuffixOf?_eq_none_iff]
    rintro ⟨before, rfl⟩
    exact h (by simp)
  rw [dropReturn, hnone, Option.getD_none]

/-- A line either ends in a carriage return, which is dropped, or is left as it is. -/
theorem dropReturn_cases (line : List Char) :
    line = dropReturn line ++ ['\r'] ∨ line.getLast? ≠ some '\r' ∧ dropReturn line = line := by
  by_cases h : line.getLast? = some '\r'
  · obtain ⟨before, rfl⟩ := List.getLast?_eq_some_iff.1 h
    exact .inl (by rw [dropReturn_concat_return])
  · exact .inr ⟨h, dropReturn_of_getLast? h⟩

theorem dropReturn_eq_self_iff {line : List Char} :
    dropReturn line = line ↔ line.getLast? ≠ some '\r' := by
  refine ⟨fun h => ?_, dropReturn_of_getLast?⟩
  rcases dropReturn_cases line with hline | ⟨hlast, -⟩
  · have hlength := congrArg List.length hline
    rw [h, List.length_append, List.length_singleton] at hlength
    omega
  · exact hlast

theorem mem_of_mem_dropReturn {line : List Char} {c : Char} (h : c ∈ dropReturn line) :
    c ∈ line := by
  rcases dropReturn_cases line with hline | ⟨-, hline⟩
  · rw [hline]
    exact List.mem_append_left _ h
  · rwa [hline] at h

/-- What stands before the last character of a line does not matter to the carriage return at its
end. -/
theorem dropReturn_append (start : List Char) {line : List Char} (h : line ≠ []) :
    dropReturn (start ++ line) = start ++ dropReturn line := by
  rcases dropReturn_cases line with hline | ⟨hlast, hline⟩
  · rw [hline, ← List.append_assoc, dropReturn_concat_return, dropReturn_concat_return]
  · rw [hline]
    apply dropReturn_of_getLast?
    rw [List.getLast?_append]
    intro hreturn
    rcases Option.or_eq_some_iff.1 hreturn with hreturn | ⟨hnone, -⟩
    · exact hlast hreturn
    · exact h (List.getLast?_eq_none_iff.1 hnone)

/-- **The line before a line feed is the first line**, less a carriage return at its end. -/
theorem lines_append_newline {line : List Char} (h : '\n' ∉ line) (rest : List Char) :
    lines (line ++ '\n' :: rest) = dropReturn line :: lines rest := by
  unfold lines
  obtain ⟨first, pieces, hpieces⟩ := exists_splitOn_eq '\n' rest
  rw [List.splitOn_append_cons_self, List.splitOn_eq_singleton h, hpieces]
  rfl

theorem lines_flatMap_newline {ls : List (List Char)} (h : ∀ line ∈ ls, '\n' ∉ line) :
    lines (ls.flatMap (· ++ ['\n'])) = ls.map dropReturn := by
  induction ls with
  | nil => rfl
  | cons line ls ih =>
    have hline := h line List.mem_cons_self
    have hrest := ih fun other hother => h other (List.mem_cons_of_mem _ hother)
    rw [List.flatMap_cons, List.append_assoc, List.singleton_append, lines_append_newline hline,
      hrest, List.map_cons]

theorem mem_of_mem_linesOfPieces {pieces : List (List Char)} {line : List Char}
    (h : line ∈ linesOfPieces pieces) : ∃ piece ∈ pieces, ∀ c ∈ line, c ∈ piece := by
  induction pieces using linesOfPieces.induct with
  | case1 => cases h
  | case2 last hempty => simp [linesOfPieces, hempty] at h
  | case3 last hempty =>
    simp only [linesOfPieces, hempty] at h
    exact ⟨line, h, fun _ hc => hc⟩
  | case4 piece next pieces ih =>
    rw [linesOfPieces, List.mem_cons] at h
    rcases h with rfl | h
    · exact ⟨piece, List.mem_cons_self, fun _ hc => mem_of_mem_dropReturn hc⟩
    · obtain ⟨source, hsource, hline⟩ := ih h
      exact ⟨source, List.mem_cons_of_mem _ hsource, hline⟩

/-- No line holds a line feed. -/
theorem newline_not_mem_of_mem_lines {cs line : List Char} (h : line ∈ lines cs) :
    '\n' ∉ line := by
  obtain ⟨piece, hpiece, hline⟩ := mem_of_mem_linesOfPieces h
  exact fun hmem => not_mem_of_mem_splitOn hpiece (hline _ hmem)

/-! ## Blanks -/

theorem trimStart_cons_of_not_blank {c : Char} (h : isBlank c = false) (cs : List Char) :
    trimStart (c :: cs) = c :: cs := by
  simp [trimStart, h]

theorem trim_cons_of_blank {c : Char} (h : isBlank c = true) (cs : List Char) :
    trim (c :: cs) = trim cs := by
  simp [trim, trimStart, h]

theorem trimStart_append {start : List Char} (h : trimStart start ≠ []) (rest : List Char) :
    trimStart (start ++ rest) = trimStart start ++ rest := by
  induction start with
  | nil => exact absurd rfl h
  | cons c start ih =>
    cases hc : isBlank c with
    | false => rw [List.cons_append, trimStart_cons_of_not_blank hc,
        trimStart_cons_of_not_blank hc, List.cons_append]
    | true =>
      simp only [trimStart, List.cons_append, List.dropWhile_cons, hc, if_true] at h ⊢
      exact ih h

theorem not_isBlank_of_head?_trimStart {cs : List Char} {c : Char}
    (h : (trimStart cs).head? = some c) : isBlank c = false := by
  have hhead := List.head?_dropWhile_not isBlank cs
  rw [trimStart] at h
  rw [h] at hhead
  exact hhead

theorem trim_prefix_trimStart (cs : List Char) : trim cs <+: trimStart cs := by
  have hsuffix := List.dropWhile_suffix (l := (trimStart cs).reverse) isBlank
  have hreverse := List.reverse_prefix.2 hsuffix
  rwa [List.reverse_reverse] at hreverse

/-- What trimming leaves does not start with a blank. -/
theorem not_isBlank_of_head?_trim {cs : List Char} {c : Char} (h : (trim cs).head? = some c) :
    isBlank c = false := by
  obtain ⟨after, hafter⟩ := trim_prefix_trimStart cs
  have hstart : (trimStart cs).head? = some c := by
    rw [← hafter, List.head?_append, h, Option.some_or]
  exact not_isBlank_of_head?_trimStart hstart

/-- What trimming leaves does not end with a blank. -/
theorem not_isBlank_of_getLast?_trim {cs : List Char} {c : Char}
    (h : (trim cs).getLast? = some c) : isBlank c = false := by
  have hhead := List.head?_dropWhile_not isBlank (trimStart cs).reverse
  rw [trim, trimEnd, List.getLast?_reverse] at h
  rw [h] at hhead
  exact hhead

theorem trimStart_eq_self {cs : List Char} (h : ∀ c, cs.head? = some c → isBlank c = false) :
    trimStart cs = cs := by
  cases cs with
  | nil => rfl
  | cons c cs => exact trimStart_cons_of_not_blank (h c rfl) cs

theorem trim_eq_self {cs : List Char} (hhead : ∀ c, cs.head? = some c → isBlank c = false)
    (hlast : ∀ c, cs.getLast? = some c → isBlank c = false) : trim cs = cs := by
  -- the other end is the start of the text read backwards
  have hend : trimStart cs.reverse = cs.reverse := by
    refine trimStart_eq_self fun c hc => hlast c ?_
    rwa [List.head?_reverse] at hc
  rw [trim, trimStart_eq_self hhead, trimEnd]
  exact (congrArg List.reverse hend).trans (List.reverse_reverse _)

theorem trim_trim (cs : List Char) : trim (trim cs) = trim cs :=
  trim_eq_self (fun _ => not_isBlank_of_head?_trim) fun _ => not_isBlank_of_getLast?_trim

theorem mem_of_mem_trim {cs : List Char} {c : Char} (h : c ∈ trim cs) : c ∈ cs :=
  (List.dropWhile_suffix isBlank).subset ((trim_prefix_trimStart cs).subset h)

/-- Blanks only, or nothing. -/
def AllBlank (cs : List Char) : Prop :=
  ∀ c ∈ cs, isBlank c = true

instance (cs : List Char) : Decidable (AllBlank cs) :=
  List.decidableBAll (isBlank · = true) cs

/-- The second text is the first with blanks before and after it. -/
def Padded (text padded : List Char) : Prop :=
  ∃ before after, AllBlank before ∧ AllBlank after ∧ padded = before ++ text ++ after

theorem Padded.refl (text : List Char) : Padded text text :=
  ⟨[], [], nofun, nofun, by simp⟩

theorem Padded.trans {text padded more : List Char} (h : Padded text padded)
    (hmore : Padded padded more) : Padded text more := by
  obtain ⟨before, after, hbefore, hafter, rfl⟩ := h
  obtain ⟨front, back, hfront, hback, rfl⟩ := hmore
  refine ⟨front ++ before, after ++ back, ?_, ?_, by simp⟩
  · exact fun c hc => (List.mem_append.1 hc).elim (hfront c) (hbefore c)
  · exact fun c hc => (List.mem_append.1 hc).elim (hafter c) (hback c)

theorem trimStart_append_of_allBlank {before : List Char} (h : AllBlank before) (cs : List Char) :
    trimStart (before ++ cs) = trimStart cs :=
  List.dropWhile_append_of_pos h

theorem trimEnd_append_of_allBlank {after : List Char} (h : AllBlank after) (cs : List Char) :
    trimEnd (cs ++ after) = trimEnd cs := by
  have hreverse : AllBlank after.reverse := fun c hc => h c (List.mem_reverse.1 hc)
  rw [trimEnd, List.reverse_append, List.dropWhile_append_of_pos hreverse, trimEnd]

theorem trim_append_of_allBlank {after : List Char} (h : AllBlank after) (cs : List Char) :
    trim (cs ++ after) = trim cs := by
  by_cases hcs : trimStart cs = []
  · -- nothing but blanks
    have hall : trimStart (cs ++ after) = [] := by
      rw [trimStart, List.dropWhile_eq_nil_iff] at hcs ⊢
      intro c hc
      exact (List.mem_append.1 hc).elim (hcs c) (h c)
    rw [trim, hall, trim, hcs]
  · rw [trim, trimStart_append hcs, trimEnd_append_of_allBlank h, trim]

/-- Blanks around a text are trimmed away with its own. -/
theorem trim_of_padded {text padded : List Char} (h : Padded text padded) :
    trim padded = trim text := by
  obtain ⟨before, after, hbefore, hafter, rfl⟩ := h
  rw [List.append_assoc, trim, trimStart_append_of_allBlank hbefore, ← trim,
    trim_append_of_allBlank hafter]

theorem exists_trimStart_eq (cs : List Char) :
    ∃ after, AllBlank after ∧ trimStart cs = trim cs ++ after := by
  refine ⟨((trimStart cs).reverse.takeWhile isBlank).reverse, ?_, ?_⟩
  · intro c hc
    exact List.mem_takeWhile_imp (List.mem_reverse.1 hc)
  · rw [trim, trimEnd, ← List.reverse_append, List.takeWhile_append_dropWhile,
      List.reverse_reverse]

/-- A text is what trimming leaves of it, with blanks around. -/
theorem padded_trim (cs : List Char) : Padded (trim cs) cs := by
  obtain ⟨after, hafter, htrim⟩ := exists_trimStart_eq cs
  refine ⟨cs.takeWhile isBlank, after, fun _ => List.mem_takeWhile_imp, hafter, ?_⟩
  rw [List.append_assoc, ← htrim, trimStart, List.takeWhile_append_dropWhile]

theorem trim_eq_nil_iff {cs : List Char} : trim cs = [] ↔ AllBlank cs := by
  constructor
  · intro h
    obtain ⟨before, after, hbefore, hafter, hcs⟩ := padded_trim cs
    rw [h, List.append_nil] at hcs
    rw [hcs]
    exact fun c hc => (List.mem_append.1 hc).elim (hbefore c) (hafter c)
  · intro h
    have hpadded : Padded [] cs := ⟨cs, [], h, List.forall_mem_nil _, by simp⟩
    rw [trim_of_padded hpadded]
    rfl

end ValueClass.Text
