import Mathlib.Data.List.Range
import ValueClass.Proofs.Brackets

/-!
# Commas that no bracket encloses

Type arguments are cut in one pass, with the number of open brackets kept on the way. What they are
can be said without a pass: a comma divides them if as many brackets were closed before it as were
opened, and an argument is what stands between two such commas, or between one and an end.

* `topCommas`, `topPieces`: these commas and these pieces, by their places in the text.
* `cutArguments_outcome`: **the pass fails exactly on unbalanced brackets**, and a bracket that
  closes too much comes first.
* `topPieces_intercalate`: pieces that are put together with commas are found again.
* `readArguments_exact`: the type arguments are these pieces, trimmed, and what is reported if there
  are several faults.
-/

namespace ValueClass

open Text

variable {depth next : Nat} {c : Char} {cs as : List Char} {pieces : List (List Char)}

/-! ## Places -/

/-- The places of the commas that no bracket encloses: before them as many were closed as opened. -/
def topCommas (cs : List Char) : List Nat :=
  (List.range cs.length).filter fun i =>
    cs[i]? = some ',' ∧ (cs.take i).count '<' = (cs.take i).count '>'

/-- What stands from one place up to another. -/
def between (cs : List Char) (start stop : Nat) : List Char :=
  (cs.take stop).drop start

/-- **What stands between the commas that no bracket encloses**, and before the first and after the
last. -/
def topPieces (cs : List Char) : List (List Char) :=
  List.zipWith (between cs) (0 :: (topCommas cs).map (· + 1)) (topCommas cs ++ [cs.length])

theorem mem_topCommas_iff {i : Nat} :
    i ∈ topCommas cs ↔
      cs[i]? = some ',' ∧ (cs.take i).count '<' = (cs.take i).count '>' := by
  rw [topCommas, List.mem_filter, List.mem_range, decide_eq_true_eq, and_iff_right_iff_imp]
  rintro ⟨hcomma, -⟩
  exact (List.getElem?_eq_some_iff.1 hcomma).1

/-- There is one piece more than there are commas. -/
theorem length_topPieces (cs : List Char) :
    (topPieces cs).length = (topCommas cs).length + 1 := by
  simp [topPieces]

/-- What is balanced shifts the commas behind it and encloses none of them. -/
theorem topCommas_append (h : as.count '<' = as.count '>') (bs : List Char) :
    topCommas (as ++ bs) = topCommas as ++ (topCommas bs).map (as.length + ·) := by
  have hfront : ∀ i ∈ List.range as.length,
      decide ((as ++ bs)[i]? = some ',' ∧
          ((as ++ bs).take i).count '<' = ((as ++ bs).take i).count '>')
        = decide (as[i]? = some ',' ∧ (as.take i).count '<' = (as.take i).count '>') := by
    intro i hi
    have hlt := List.mem_range.1 hi
    rw [List.getElem?_append_left hlt, List.take_append_of_le_length hlt.le]
  have hback : ∀ i, (as ++ bs)[as.length + i]? = some ',' ∧
        ((as ++ bs).take (as.length + i)).count '<' = ((as ++ bs).take (as.length + i)).count '>'
      ↔ bs[i]? = some ',' ∧ (bs.take i).count '<' = (bs.take i).count '>' := by
    intro i
    rw [List.getElem?_append_right (Nat.le_add_right _ _), Nat.add_sub_cancel_left,
      List.take_length_add_append, List.count_append, List.count_append]
    refine and_congr_right fun _ => ?_
    omega
  rw [topCommas, List.length_append, List.range_add, List.filter_append, List.filter_map,
    List.filter_congr hfront]
  refine congrArg (topCommas as ++ ·) (congrArg (List.map (as.length + ·)) ?_)
  exact List.filter_congr fun i _ => decide_eq_decide.2 (hback i)

theorem topCommas_cons_comma (cs : List Char) :
    topCommas (',' :: cs) = 0 :: (topCommas cs).map (1 + ·) := by
  rw [← List.singleton_append, topCommas_append (by decide)]
  rfl

/-- What can stand between commas has none of its own that no bracket encloses. -/
theorem topCommas_of_isWhole (h : IsWhole cs) : topCommas cs = [] := by
  refine List.eq_nil_iff_forall_not_mem.2 fun i hi => ?_
  obtain ⟨hcomma, hcount⟩ := mem_topCommas_iff.1 hi
  obtain ⟨hlt, hget⟩ := List.getElem?_eq_some_iff.1 hcomma
  have hcs : cs.take i ++ ',' :: cs.drop (i + 1) = cs := by
    rw [← hget, ← List.drop_eq_getElem_cons hlt, List.take_append_drop]
  rw [IsWhole, ← hcs, nesting_append] at h
  obtain ⟨depth, hdepth, hnext⟩ := Option.bind_eq_some_iff.1 h
  -- no bracket is open where the comma is, and there nothing goes on after a comma
  have hzero := count_of_nesting hdepth
  obtain rfl : depth = 0 := by omega
  cases hnext

theorem between_zero_length (as bs : List Char) : between (as ++ bs) 0 as.length = as := by
  rw [between, List.take_left, List.drop_zero]

theorem between_append (as bs : List Char) (start stop : Nat) :
    between (as ++ bs) (as.length + start) (as.length + stop) = between bs start stop := by
  rw [between, between, List.take_length_add_append, List.drop_length_add_append]

/-- The first piece ends at the first comma. -/
theorem topPieces_append_comma (h : IsWhole as) (bs : List Char) :
    topPieces (as ++ ',' :: bs) = as :: topPieces bs := by
  have hcommas : topCommas (as ++ ',' :: bs)
      = as.length :: (topCommas bs).map ((as ++ [',']).length + ·) := by
    have hcount := count_of_nesting h
    rw [topCommas_append (by omega), topCommas_of_isWhole h, topCommas_cons_comma, List.nil_append,
      List.map_cons, List.map_map, List.length_append]
    simp only [Nat.add_zero, Function.comp_def, List.length_singleton, Nat.add_assoc]
  -- all that comes later is shifted by the first piece and its comma
  have hshift : ∀ start stop, between (as ++ ',' :: bs) ((as ++ [',']).length + start)
      ((as ++ [',']).length + stop) = between bs start stop := by
    intro start stop
    rw [List.append_cons, between_append]
  have hstarts : (topCommas (as ++ ',' :: bs)).map (· + 1)
      = (0 :: (topCommas bs).map (· + 1)).map ((as ++ [',']).length + ·) := by
    rw [hcommas, List.map_cons, List.map_map, List.map_cons, List.map_map, List.length_append]
    rfl
  have hstops : topCommas (as ++ ',' :: bs) ++ [(as ++ ',' :: bs).length]
      = as.length :: (topCommas bs ++ [bs.length]).map ((as ++ [',']).length + ·) := by
    have hlength : (as ++ ',' :: bs).length = (as ++ [',']).length + bs.length := by
      rw [List.append_cons, List.length_append]
    rw [hcommas, hlength, List.map_append, List.cons_append]
    rfl
  rw [topPieces, hstarts, hstops, List.zipWith_cons_cons, between_zero_length,
    List.zipWith_map]
  simp only [hshift]
  rfl

theorem topPieces_of_isWhole (h : IsWhole as) : topPieces as = [as] := by
  rw [topPieces, topCommas_of_isWhole h]
  simp [between]

/-- **Pieces that are put together with commas are found again**, if each can stand between
commas. -/
theorem topPieces_intercalate (hne : pieces ≠ []) (h : ∀ piece ∈ pieces, IsWhole piece) :
    topPieces (List.intercalate [','] pieces) = pieces := by
  induction pieces with
  | nil => exact absurd rfl hne
  | cons first rest ih =>
    obtain ⟨hfirst, hrest⟩ := List.forall_mem_cons.1 h
    by_cases hlast : rest = []
    · rw [hlast, List.intercalate_singleton, topPieces_of_isWhole hfirst]
    · rw [List.intercalate_cons_of_ne_nil hlast, List.append_assoc, List.singleton_append,
        topPieces_append_comma hfirst, ih hlast hrest]

/-! ## The pass -/

/-- Somewhere more brackets were closed than opened, `depth` being open before. -/
def Overclosed (depth : Nat) (cs : List Char) : Prop :=
  ∃ start, start <+: cs ∧ start.count '<' + depth < start.count '>'

theorem not_overclosed_nil (depth : Nat) : ¬Overclosed depth [] := by
  rintro ⟨start, hstart, hcount⟩
  rw [List.prefix_nil.1 hstart] at hcount
  exact Nat.not_lt_zero _ hcount

theorem overclosed_cons_iff (h : [c].count '<' + depth = [c].count '>' + next) :
    Overclosed depth (c :: cs) ↔ Overclosed next cs := by
  have hcount : ∀ start : List Char, (c :: start).count '<' + depth < (c :: start).count '>' ↔
      start.count '<' + next < start.count '>' := by
    intro start
    rw [← List.singleton_append, List.count_append, List.count_append]
    omega
  constructor
  · rintro ⟨start, hstart, hlt⟩
    cases start with
    | nil => exact absurd hlt (Nat.not_lt_zero _)
    | cons a start =>
      obtain ⟨rfl, htail⟩ := List.cons_prefix_cons.1 hstart
      exact ⟨start, htail, (hcount start).1 hlt⟩
  · rintro ⟨start, hstart, hlt⟩
    exact ⟨c :: start, List.cons_prefix_cons.2 ⟨rfl, hstart⟩, (hcount start).2 hlt⟩

/-- One character either closes a bracket that is not open, or is passed with as many brackets open
as it leaves. -/
theorem cutArguments_cons_cases (depth : Nat) (c : Char) (cs : List Char) :
    (depth = 0 ∧ c = '>' ∧ cutArguments depth (c :: cs) = .error .unopened) ∨
      ∃ next add, [c].count '<' + depth = [c].count '>' + next ∧
        cutArguments depth (c :: cs) = (cutArguments next cs).map add := by
  cases hdepth : depthAfter depth c with
  | some next =>
    exact .inr ⟨next, List.modifyHead (c :: ·), count_of_depthAfter hdepth,
      cutArguments_cons hdepth cs⟩
  | none =>
    obtain ⟨hzero, ⟨hclosing, hcut⟩ | ⟨hcomma, hcut⟩⟩ := cutArguments_cons_of_none hdepth cs
    · exact .inl ⟨hzero, hclosing, hcut⟩
    · refine .inr ⟨depth, ([] :: ·), ?_, hcut⟩
      subst hcomma
      rfl

/-- **The pass fails exactly on unbalanced brackets.** What is closed too often is noticed before
what is not closed. -/
theorem cutArguments_outcome (depth : Nat) (cs : List Char) :
    (Overclosed depth cs ∧ cutArguments depth cs = .error .unopened) ∨
      (¬Overclosed depth cs ∧ cs.count '<' + depth ≠ cs.count '>' ∧
        cutArguments depth cs = .error .unclosed) ∨
      (¬Overclosed depth cs ∧ cs.count '<' + depth = cs.count '>' ∧
        ∃ pieces, cutArguments depth cs = .ok pieces) := by
  induction cs generalizing depth with
  | nil =>
    refine .inr ?_
    by_cases hdepth : depth = 0
    · subst hdepth
      exact .inr ⟨not_overclosed_nil 0, rfl, [[]], rfl⟩
    · refine .inl ⟨not_overclosed_nil depth, by simpa using hdepth, ?_⟩
      rw [cutArguments, if_neg hdepth]
  | cons c cs ih =>
    obtain ⟨rfl, rfl, hcut⟩ | ⟨next, add, hcount, hcut⟩ := cutArguments_cons_cases depth c cs
    · exact .inl ⟨⟨['>'], List.cons_prefix_cons.2 ⟨rfl, List.nil_prefix⟩, by decide⟩, hcut⟩
    · have htotal : (c :: cs).count '<' + depth = (c :: cs).count '>' ↔
          cs.count '<' + next = cs.count '>' := by
        rw [← List.singleton_append, List.count_append, List.count_append]
        omega
      rw [overclosed_cons_iff hcount, hcut, Ne, htotal]
      obtain ⟨hover, hrest⟩ | ⟨hover, hopen, hrest⟩ | ⟨hover, hclosed, pieces, hrest⟩ := ih next
      · exact .inl ⟨hover, by rw [hrest]; rfl⟩
      · exact .inr (.inl ⟨hover, hopen, by rw [hrest]; rfl⟩)
      · exact .inr (.inr ⟨hover, hclosed, add pieces, by rw [hrest]; rfl⟩)

theorem not_overclosed_zero_iff :
    ¬Overclosed 0 cs ↔ ∀ start, start <+: cs → start.count '>' ≤ start.count '<' := by
  simp [Overclosed]

theorem balanced_iff_not_overclosed :
    Balanced cs ↔ ¬Overclosed 0 cs ∧ cs.count '>' = cs.count '<' := by
  rw [not_overclosed_zero_iff]
  exact ⟨fun h => ⟨h.closed_le, h.closed_eq⟩, fun h => ⟨h.1, h.2⟩⟩

/-! ## Type arguments -/

/-- What can come of reading the type arguments between two brackets. -/
theorem readArguments_outcome (inner : List Char) :
    (Overclosed 0 inner ∧ readArguments inner = .error .unopened) ∨
      (¬Overclosed 0 inner ∧ inner.count '>' ≠ inner.count '<' ∧
        readArguments inner = .error .unclosed) ∨
      (Balanced inner ∧ (∃ piece ∈ topPieces inner, AllBlank piece) ∧
        readArguments inner = .error .emptyArgument) ∨
      (Balanced inner ∧ (∀ piece ∈ topPieces inner, ¬AllBlank piece) ∧
        readArguments inner = .ok ((topPieces inner).map trim)) := by
  unfold readArguments
  obtain ⟨hover, hcut⟩ | ⟨hover, hopen, hcut⟩ | ⟨hover, hclosed, pieces, hcut⟩ :=
    cutArguments_outcome 0 inner
  · exact .inl ⟨hover, by rw [hcut]⟩
  · exact .inr (.inl ⟨hover, Ne.symm hopen, by rw [hcut]⟩)
  · have hbalanced := balanced_iff_not_overclosed.2 ⟨hover, hclosed.symm⟩
    obtain ⟨hne, hinner, hwhole⟩ := cutArguments_zero_eq_ok_iff.1 hcut
    have hpieces : topPieces inner = pieces := by rw [hinner, topPieces_intercalate hne hwhole]
    have hany : (pieces.map trim).any List.isEmpty = true ↔ ∃ piece ∈ pieces, AllBlank piece := by
      simp [trim_eq_nil_iff]
    rw [hcut, hpieces]
    dsimp only
    by_cases hblank : ∃ piece ∈ pieces, AllBlank piece
    · exact .inr (.inr (.inl ⟨hbalanced, hblank, if_pos (hany.2 hblank)⟩))
    · refine .inr (.inr (.inr ⟨hbalanced, ?_, if_neg fun htrue => hblank (hany.1 htrue)⟩))
      exact fun piece hpiece hall => hblank ⟨piece, hpiece, hall⟩

/-- Each type argument can stand between commas. -/
theorem isWhole_of_readArguments {inner : List Char} {arguments : List (List Char)}
    (h : readArguments inner = .ok arguments) :
    arguments.length = (topCommas inner).length + 1 ∧
      ∀ argument ∈ arguments, IsWhole argument := by
  obtain ⟨pieces, hne, rfl, rfl, hpieces⟩ := readArguments_eq_ok_iff.1 h
  constructor
  · rw [← length_topPieces, topPieces_intercalate hne fun piece hpiece => (hpieces piece hpiece).1,
      List.length_map]
  · intro argument hargument
    obtain ⟨piece, hpiece, rfl⟩ := List.mem_map.1 hargument
    exact (isWhole_trim_iff piece).2 (hpieces piece hpiece).1

/-- **The type arguments are what stands between the commas that no bracket encloses**, trimmed and
in order, if the brackets are balanced and nothing of it is blank. They are balanced themselves and
have no such comma. Otherwise a bracket that closes too much is reported first, then one that is not
closed, and an empty argument only where the brackets are balanced. -/
theorem readArguments_exact (inner : List Char) :
    (∀ arguments, readArguments inner = .ok arguments ↔
        Balanced inner ∧ (∀ piece ∈ topPieces inner, ¬AllBlank piece) ∧
          arguments = (topPieces inner).map trim) ∧
      (∀ arguments, readArguments inner = .ok arguments →
        arguments.length = (topCommas inner).length + 1 ∧
          ∀ argument ∈ arguments, Balanced argument ∧ topCommas argument = []) ∧
      (readArguments inner = .error .unopened ↔
        ∃ start, start <+: inner ∧ start.count '<' < start.count '>') ∧
      (readArguments inner = .error .unclosed ↔
        (∀ start, start <+: inner → start.count '>' ≤ start.count '<') ∧
          inner.count '>' ≠ inner.count '<') ∧
      (readArguments inner = .error .emptyArgument ↔
        Balanced inner ∧ ∃ piece ∈ topPieces inner, AllBlank piece) := by
  have hover : (∃ start, start <+: inner ∧ start.count '<' < start.count '>') ↔
      Overclosed 0 inner := Iff.rfl
  have hshape : ∀ arguments, readArguments inner = .ok arguments →
      arguments.length = (topCommas inner).length + 1 ∧
        ∀ argument ∈ arguments, Balanced argument ∧ topCommas argument = [] := by
    intro arguments harguments
    obtain ⟨hlength, hwhole⟩ := isWhole_of_readArguments harguments
    refine ⟨hlength, fun argument hargument => ?_⟩
    have hargument := hwhole argument hargument
    exact ⟨balanced_of_isWhole hargument, topCommas_of_isWhole hargument⟩
  rw [hover, ← not_overclosed_zero_iff]
  -- the conditions exclude one another, and each comes with its own outcome
  obtain ⟨hopen, hread⟩ | ⟨hopen, hcount, hread⟩ | ⟨hinner, ⟨piece, hmem, hblank⟩, hread⟩ |
    ⟨hinner, hfull, hread⟩ := readArguments_outcome inner
  · have hnot : ¬Balanced inner := fun h => (balanced_iff_not_overclosed.1 h).1 hopen
    refine ⟨fun arguments => ?_, hshape, ?_⟩ <;> simp [hread, hopen, hnot]
  · have hnot : ¬Balanced inner := fun h => hcount h.closed_eq
    refine ⟨fun arguments => ?_, hshape, ?_⟩ <;> simp [hread, hopen, hcount, hnot]
  · obtain ⟨hopen, hcount⟩ := balanced_iff_not_overclosed.1 hinner
    refine ⟨fun arguments => ?_, hshape, ?_⟩
    · rw [hread]
      exact ⟨nofun, fun h => absurd hblank (h.2.1 piece hmem)⟩
    · simp only [hread, hopen, hcount, hinner]
      simpa using ⟨piece, hmem, hblank⟩
  · obtain ⟨hopen, hcount⟩ := balanced_iff_not_overclosed.1 hinner
    refine ⟨fun arguments => ?_, hshape, ?_⟩
    · rw [hread, Except.ok.injEq, eq_comm]
      exact ⟨fun h => ⟨hinner, hfull, h⟩, fun h => h.2.2⟩
    · simp only [hread, hopen, hcount, hinner]
      simpa using hfull

/-- A comma within brackets divides nothing. Of three faults the last bracket is the one that is
reported, and of two the one that is not closed. -/
theorem readArguments_exact_nested :
    let inner := " é, Map<K, V> ,int[]".toList
    topCommas inner = [2, 14] ∧
      readArguments inner = .ok ["é".toList, "Map<K, V>".toList, "int[]".toList] ∧
      readArguments ",<,<>>>".toList = .error .unopened ∧
      readArguments ",<,<>".toList = .error .unclosed ∧
      readArguments ",<,<>>".toList = .error .emptyArgument := by
  intro inner
  obtain ⟨hok, -⟩ := readArguments_exact inner
  obtain ⟨-, -, hunopened, -, -⟩ := readArguments_exact ",<,<>>>".toList
  obtain ⟨-, -, -, hunclosed, -⟩ := readArguments_exact ",<,<>".toList
  obtain ⟨-, -, -, -, hempty⟩ := readArguments_exact ",<,<>>".toList
  have hprefixes : ∀ start ∈ ",<,<>".toList.inits, start.count '>' ≤ start.count '<' := by decide
  refine ⟨by decide, (hok _).2 ⟨by decide, by decide, by decide⟩, ?_, ?_, ?_⟩
  · exact hunopened.2 ⟨_, List.prefix_rfl, by decide⟩
  · refine hunclosed.2 ⟨fun start hstart => ?_, by decide⟩
    exact hprefixes start ((List.mem_inits start _).2 hstart)
  · exact hempty.2 ⟨by decide, [], by decide, by decide⟩

end ValueClass
