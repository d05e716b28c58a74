import Mathlib.Data.List.Infix
import ValueClass.Proofs.Renaming

/-!
# Brackets of descriptors

Reading a descriptor follows its brackets from the first one that opens. What stands before that one
is taken for a name, and a bracket that closes there goes unnoticed if type arguments follow.

* `balanced_of_isWhole`: what can stand between commas is balanced.
* `exists_balanced_back`: **a descriptor is balanced but for the name it starts with.**
* `brackets_of_read`: an accepted descriptor has balanced brackets, and its type names without any,
  exactly if no bracket closes before the first one opens.
-/

namespace ValueClass

open Text

/-! ## Balanced texts -/

/-- **The brackets of a text are balanced**: wherever it is cut off, no more of them were closed
than opened, and in the end as many. -/
structure Balanced (cs : List Char) : Prop where
  closed_le : ∀ start, start <+: cs → start.count '>' ≤ start.count '<'
  closed_eq : cs.count '>' = cs.count '<'

instance (cs : List Char) : Decidable (Balanced cs) :=
  decidable_of_iff ((∀ start ∈ cs.inits, start.count '>' ≤ start.count '<') ∧
      cs.count '>' = cs.count '<')
    ⟨fun ⟨hle, heq⟩ => ⟨fun start h => hle start ((List.mem_inits start cs).2 h), heq⟩,
      fun ⟨hle, heq⟩ => ⟨fun start h => hle start ((List.mem_inits start cs).1 h), heq⟩⟩

theorem balanced_of_not_mem {cs : List Char} (hopening : '<' ∉ cs) (hclosing : '>' ∉ cs) :
    Balanced cs := by
  have hnone : ∀ start, start <+: cs → start.count '>' = 0 := by
    intro start hstart
    exact List.count_eq_zero.2 fun hmem => hclosing (hstart.subset hmem)
  refine ⟨fun start hstart => ?_, ?_⟩
  · rw [hnone start hstart]
    exact Nat.zero_le _
  · rw [hnone cs List.prefix_rfl, List.count_eq_zero.2 hopening]

theorem Balanced.append {as bs : List Char} (has : Balanced as) (hbs : Balanced bs) :
    Balanced (as ++ bs) := by
  refine ⟨fun start hstart => ?_, ?_⟩
  · -- the text is cut off in the first part, or in the second after all of the first
    rcases List.prefix_or_prefix_of_prefix hstart (List.prefix_append as bs) with h | ⟨rest, rfl⟩
    · exact has.closed_le start h
    · have hrest := hbs.closed_le rest ((List.prefix_append_right_inj as).1 hstart)
      have heq := has.closed_eq
      rw [List.count_append, List.count_append]
      omega
  · rw [List.count_append, List.count_append, has.closed_eq, hbs.closed_eq]

/-- A front without brackets can be left out. -/
theorem balanced_of_append {front back : List Char} (hopening : '<' ∉ front)
    (hclosing : '>' ∉ front) (h : Balanced (front ++ back)) : Balanced back := by
  have hopened : front.count '<' = 0 := List.count_eq_zero.2 hopening
  have hclosed : front.count '>' = 0 := List.count_eq_zero.2 hclosing
  refine ⟨fun start hstart => ?_, ?_⟩
  · have hle := h.closed_le (front ++ start) ((List.prefix_append_right_inj front).2 hstart)
    rw [List.count_append, List.count_append] at hle
    omega
  · have heq := h.closed_eq
    rw [List.count_append, List.count_append] at heq
    omega

/-- After a front in which no bracket opens, what is balanced decides nothing. -/
theorem balanced_append_iff {front back : List Char} (hopening : '<' ∉ front)
    (hback : Balanced back) : Balanced (front ++ back) ↔ '>' ∉ front := by
  constructor
  · intro h
    have heq := h.closed_eq
    have hrest := hback.closed_eq
    rw [List.count_append, List.count_append, List.count_eq_zero.2 hopening] at heq
    exact List.count_eq_zero.1 (by omega)
  · intro hclosing
    exact (balanced_of_not_mem hopening hclosing).append hback

/-! ## The first bracket that opens -/

theorem opening_not_mem_takeWhile (cs : List Char) : '<' ∉ cs.takeWhile (· != '<') := by
  intro hmem
  simpa using List.mem_takeWhile_imp hmem

/-- Before the first bracket opens, none is closed. -/
theorem Balanced.closing_not_mem_takeWhile {cs : List Char} (h : Balanced cs) :
    '>' ∉ cs.takeWhile (· != '<') := by
  have hle := h.closed_le _ (List.takeWhile_prefix (· != '<'))
  rw [List.count_eq_zero.2 (opening_not_mem_takeWhile cs)] at hle
  exact List.count_eq_zero.1 (Nat.le_zero.1 hle)

theorem Balanced.dropWhile {cs : List Char} (h : Balanced cs) :
    Balanced (cs.dropWhile (· != '<')) := by
  apply balanced_of_append (opening_not_mem_takeWhile cs) h.closing_not_mem_takeWhile
  rwa [List.takeWhile_append_dropWhile]

theorem bne_opening_of_not_mem {front : List Char} (h : '<' ∉ front) :
    ∀ c ∈ front, (c != '<') = true := by
  intro c hc
  rw [bne_iff_ne]
  rintro rfl
  exact h hc

/-! ## Depth and balance -/

theorem count_of_depthAfter {depth next : Nat} {c : Char} (h : depthAfter depth c = some next) :
    [c].count '<' + depth = [c].count '>' + next := by
  unfold depthAfter at h
  split at h
  · rename_i hopening
    subst hopening
    cases h
    simp
    omega
  rename_i hopening
  split at h
  · rename_i hclosing
    subst hclosing
    split at h
    · cases h
    · cases h
      simp
      omega
  rename_i hclosing
  split at h
  · cases h
  · cases h
    simp [hopening, hclosing]

/-- The depth is the number of brackets that were opened and not closed. -/
theorem count_of_nesting {depth after : Nat} {cs : List Char} (h : nesting depth cs = some after) :
    cs.count '<' + depth = cs.count '>' + after := by
  induction cs generalizing depth with
  | nil =>
    cases h
    rfl
  | cons c cs ih =>
    obtain ⟨next, hnext, hrest⟩ := Option.bind_eq_some_iff.1 h
    have hfirst := count_of_depthAfter hnext
    have hothers := ih hrest
    rw [← List.singleton_append, List.count_append, List.count_append]
    omega

theorem balanced_of_isWhole {cs : List Char} (h : IsWhole cs) : Balanced cs := by
  refine ⟨fun start hstart => ?_, ?_⟩
  · obtain ⟨rest, rfl⟩ := hstart
    obtain ⟨depth, hdepth, -⟩ :=
      Option.bind_eq_some_iff.1 ((nesting_append 0 start rest).symm.trans h)
    have hcount := count_of_nesting hdepth
    omega
  · have hcount := count_of_nesting h
    omega

/-! ## Descriptors -/

theorem not_mem_of_allBlank {cs : List Char} (h : AllBlank cs) {c : Char} (hc : isBlank c = false) :
    c ∉ cs := fun hmem => Bool.false_ne_true (hc.symm.trans (h c hmem))

theorem namesAll_eq_flatMap (types : List FieldType) :
    FieldType.namesAll types = types.flatMap FieldType.names := by
  induction types with
  | nil => rfl
  | cons type types ih => rw [FieldType.namesAll, ih, List.flatMap_cons]

/-- Names that can stand anywhere have no brackets. -/
theorem bracket_not_mem_of_plain {type : FieldType} (h : type.Plain) :
    ∀ name ∈ type.names, '<' ∉ name.toList ∧ '>' ∉ name.toList := by
  induction type using FieldType.argumentInduction with
  | scalar kind => exact fun name hname => nomatch hname
  | array element ih => exact ih h
  | reference name arguments ih =>
    have harguments := plainAll_iff.1 h.2
    rw [FieldType.names, namesAll_eq_flatMap, List.forall_mem_cons]
    refine ⟨⟨h.1.opening_not_mem, h.1.closing_not_mem⟩, fun other hother => ?_⟩
    obtain ⟨argument, hmem, hname⟩ := List.mem_flatMap.1 hother
    exact ih argument hmem (harguments argument hmem) other hname

/-- Of the names of a legible type, only the outermost one can have a bracket, and only one that
closes. -/
theorem bracket_not_mem_of_legible {type : FieldType} (h : type.Legible) :
    (∀ name ∈ type.names, '<' ∉ name.toList) ∧ ∀ name ∈ type.names.tail, '>' ∉ name.toList := by
  induction type using FieldType.argumentInduction with
  | scalar kind => constructor <;> exact fun name hname => nomatch hname
  | array element ih => exact ih h
  | reference name arguments _ =>
    have harguments : ∀ other ∈ FieldType.namesAll arguments,
        '<' ∉ other.toList ∧ '>' ∉ other.toList := by
      intro other hother
      rw [namesAll_eq_flatMap] at hother
      obtain ⟨argument, hmem, hname⟩ := List.mem_flatMap.1 hother
      exact bracket_not_mem_of_plain (plainAll_iff.1 h.2 argument hmem) other hname
    refine ⟨List.forall_mem_cons.2 ⟨h.1.opening_not_mem, ?_⟩, ?_⟩
    · exact fun other hother => (harguments other hother).1
    · exact fun other hother => (harguments other hother).2

/-- **A descriptor is balanced but for the name it starts with.** No bracket opens in that part, and
one is closed there exactly if the type has a name with such a bracket. -/
theorem exists_balanced_back {type : FieldType} (hlegible : type.Legible) :
    ∀ {descriptor : List Char}, Spelled type descriptor →
      ∃ front back, descriptor = front ++ back ∧ '<' ∉ front ∧ Balanced back ∧
        ('>' ∈ front ↔ ∃ name ∈ type.names, '>' ∈ name.toList) := by
  have hopening : ∀ {blanks : List Char}, AllBlank blanks → '<' ∉ blanks :=
    fun h => not_mem_of_allBlank h (by decide)
  have hclosing : ∀ {blanks : List Char}, AllBlank blanks → '>' ∉ blanks :=
    fun h => not_mem_of_allBlank h (by decide)
  induction type using FieldType.argumentInduction with
  | scalar kind =>
    rintro descriptor (⟨before, after, hbefore, hafter, rfl⟩ | _ | _ | _)
    have hword : '<' ∉ kind.keyword.toList ∧ '>' ∉ kind.keyword.toList := by
      cases kind <;> decide
    refine ⟨before ++ kind.keyword.toList ++ after, [], by simp, ?_, by decide, ?_⟩
    · simp [hopening hbefore, hopening hafter, hword.1]
    · simp [hclosing hbefore, hclosing hafter, hword.2, FieldType.names]
  | array element ih =>
    rintro descriptor (_ | ⟨helement, before, after, hbefore, hafter, rfl⟩ | _ | _)
    obtain ⟨front, back, rfl, hfront, hback, hnames⟩ := ih hlegible helement
    have hafter' : Balanced (['[', ']'] ++ after) :=
      balanced_of_not_mem (by simp [hopening hafter]) (by simp [hclosing hafter])
    refine ⟨before ++ front, back ++ (['[', ']'] ++ after), by simp, ?_, hback.append hafter', ?_⟩
    · simp [hopening hbefore, hfront]
    · rw [List.mem_append, or_iff_right (hclosing hbefore), hnames, FieldType.names]
  | reference name arguments ih =>
    rintro descriptor (_ | _ | ⟨before, after, hbefore, hafter, rfl⟩ |
      ⟨hne, hspelled, hblanks, before, after, hbefore, hafter, rfl⟩)
    · -- without type arguments, a bracket that closes is noticed
      have hname := hlegible.1.closing_not_mem rfl
      refine ⟨before ++ name.toList ++ after, [], by simp, ?_, by decide, ?_⟩
      · simp [hopening hbefore, hopening hafter, hlegible.1.opening_not_mem]
      · simp [hclosing hbefore, hclosing hafter, hname, FieldType.names, FieldType.namesAll]
    · rename_i pieces blanks
      have hplain := plainAll_iff.1 hlegible.2
      have hwhole : ∀ piece ∈ pieces, IsWhole piece :=
        forall_mem_right_of_forall₂ hspelled fun argument hmem _ hpiece =>
          isWhole_of_spelled (hplain argument hmem) hpiece
      have hback : Balanced ('<' :: List.intercalate [','] pieces ++ ['>']) :=
        balanced_of_isWhole (nesting_enclosed (nesting_join hwhole 0))
      have hafter' := balanced_of_not_mem (hopening hafter) (hclosing hafter)
      refine ⟨before ++ name.toList ++ blanks,
        '<' :: List.intercalate [','] pieces ++ ['>'] ++ after, by simp, ?_,
        hback.append hafter', ?_⟩
      · simp [hopening hbefore, hopening hblanks, hlegible.1.opening_not_mem]
      · have hothers := (bracket_not_mem_of_legible hlegible).2
        rw [FieldType.names, List.tail_cons] at hothers
        rw [FieldType.names]
        simp only [List.mem_append, hclosing hbefore, hclosing hblanks, false_or, or_false,
          List.exists_mem_cons_iff]
        exact ⟨.inl, fun h => h.elim id fun ⟨other, hmem, hother⟩ =>
          absurd hother (hothers other hmem)⟩

/-- **An accepted descriptor has balanced brackets, and its type names without any, exactly if no
bracket closes before the first one opens.** From that one on the brackets are balanced in any case,
no name has one that opens, and only the outermost name can have one that closes. -/
theorem brackets_of_read {descriptor : String} {type : FieldType}
    (h : FieldType.read descriptor = .ok type) :
    Balanced (descriptor.toList.dropWhile (· != '<')) ∧
      (∀ name ∈ type.names, '<' ∉ name.toList) ∧ (∀ name ∈ type.names.tail, '>' ∉ name.toList) ∧
      (Balanced descriptor.toList ∧ (∀ name ∈ type.names, '<' ∉ name.toList ∧ '>' ∉ name.toList) ↔
        '>' ∉ descriptor.toList.takeWhile (· != '<')) := by
  obtain ⟨hlegible, hspelled⟩ := readChars_eq_ok_iff.1 h
  obtain ⟨hopening, hothers⟩ := bracket_not_mem_of_legible hlegible
  obtain ⟨front, back, hdescriptor, hfront, hback, hnames⟩ :=
    exists_balanced_back hlegible hspelled
  have hpass := bne_opening_of_not_mem hfront
  rw [hdescriptor]
  refine ⟨?_, hopening, hothers, ?_⟩
  · rw [List.dropWhile_append_of_pos hpass]
    exact hback.dropWhile
  · have hclosing : '>' ∉ front ↔ ∀ name ∈ type.names, '>' ∉ name.toList := by
      rw [hnames]
      simp
    rw [List.takeWhile_append_of_pos hpass, List.mem_append,
      or_iff_left hback.closing_not_mem_takeWhile, balanced_append_iff hfront hback]
    constructor
    · exact fun hboth => hboth.1
    · intro hnot
      exact ⟨hnot, fun name hname => ⟨hopening name hname, hclosing.1 hnot name hname⟩⟩

/-- Brackets within brackets, and an array of what they enclose. -/
theorem brackets_of_read_nested :
    let type : FieldType := .array
      (.reference "Map" [.reference "K" [], .reference "List" [.array (.reference "V" [])]])
    FieldType.read "Map<K, List<V[]>>[]" = .ok type ∧ Balanced "Map<K, List<V[]>>[]".toList ∧
      ∀ name ∈ type.names, '<' ∉ name.toList ∧ '>' ∉ name.toList := by
  intro type
  have hplain : type.Plain := by decide
  have hread : FieldType.read "Map<K, List<V[]>>[]" = .ok type := read_text hplain.legible
  exact ⟨hread, (brackets_of_read hread).2.2.2.2 (by decide)⟩

/-- Before type arguments, a bracket that closes is taken for a part of the name. -/
theorem unbalanced_of_read :
    let type : FieldType := .reference "A>B" [.reference "C" []]
    FieldType.read "A>B<C>" = .ok type ∧ ¬Balanced "A>B<C>".toList ∧
      ∃ name ∈ type.names, '>' ∈ name.toList := by
  intro type
  have houter : outermost "A>B<C>".toList = .ok (.generic ['A', '>', 'B'] [['C']]) := by
    decide +kernel
  have hinner : outermost ['C'] = .ok (.name ['C']) := by decide +kernel
  have hargument : FieldType.readChars ['C'] = .ok (.reference "C" []) :=
    readChars_of_outermost hinner
  have hread : FieldType.read "A>B<C>" = .ok type := by
    rw [FieldType.read, readChars_of_outermost houter, Layer.read,
      readAll_eq_ok_iff.2 (.cons hargument .nil)]
    rfl
  exact ⟨hread, by decide, "A>B", List.mem_cons_self, by decide⟩

end ValueClass
