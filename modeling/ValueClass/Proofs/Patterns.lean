import Mathlib.Data.List.Basic
import ValueClass.Proofs.Pieces
import ValueClass.Search

/-!
# Reading patterns

The pattern of a directory is its text, in which each byte with a meaning of its own is put in
brackets, and an ending. Read again, it asks for what is below that directory.

* `unbracket_escape`: **a text that was escaped stands for itself.**
* `splitOn_escape`: escaping leaves the parts of a path apart.
* `read?_escape`: **the pattern of a directory can be read, whatever its text is**, and asks for the
  parts of the directory as they are.
-/

namespace ValueClass

open Text

/-- A name as a part of a pattern. -/
def PatternPart.ofName (name : Name) : PatternPart :=
  ⟨name, name.any Pattern.isWild⟩

namespace Pattern

/-- What the pattern of a directory asks for. Without a text it is the root directory. -/
def ofDirectory (directory : List UInt8) (ending : Name) : Pattern :=
  match directory with
  | [] => ⟨true, [], ending⟩
  | b :: rest =>
    if b = slash then ⟨true, (List.splitOn slash rest).map .ofName, ending⟩
    else ⟨false, (List.splitOn slash (b :: rest)).map .ofName, ending⟩

variable {b : UInt8} {text : List UInt8}

theorem escape_cons (b : UInt8) (text : List UInt8) :
    escape (b :: text) = (if isWild b then [0x5b, b, 0x5d] else [b]) ++ escape text :=
  List.flatMap_cons

theorem ne_of_not_isWild (h : ¬isWild b = true) : b ≠ 0x5b := by
  rintro rfl
  exact h rfl

/-- **A text that was escaped stands for itself.** -/
theorem unbracket_escape (text : List UInt8) : unbracket (escape text) = text := by
  induction text with
  | nil => rfl
  | cons b text ih =>
    rw [escape_cons]
    split
    · rw [List.cons_append, List.cons_append, List.cons_append, List.nil_append, unbracket, ih]
    · rename_i hplain
      rw [List.singleton_append, unbracket, ih]
      exact fun _ _ hb _ => ne_of_not_isWild hplain hb

theorem contains_escape (text : List UInt8) : (escape text).contains 0x5b = text.any isWild := by
  induction text with
  | nil => rfl
  | cons b text ih =>
    rw [escape_cons, List.any_cons]
    split
    · rename_i hwild
      simp [hwild]
    · rename_i hplain
      have hne : (b == 0x5b) = false := beq_eq_false_iff_ne.2 (ne_of_not_isWild hplain)
      rw [List.singleton_append, List.contains_cons, ih, Bool.eq_false_iff.2 hplain, Bool.beq_comm,
        hne]

/-- Escaping leaves the parts of a path apart. -/
theorem splitOn_escape (text : List UInt8) :
    List.splitOn slash (escape text) = (List.splitOn slash text).map escape := by
  induction text with
  | nil => rfl
  | cons b text ih =>
    obtain ⟨first, rest, hparts⟩ := exists_splitOn_eq slash text
    rw [hparts] at ih
    have hopening : ((0x5b : UInt8) == slash) = false := by decide
    have hclosing : ((0x5d : UInt8) == slash) = false := by decide
    rw [escape_cons]
    split
    · rename_i hwild
      have hb : (b == slash) = false := by
        rw [beq_eq_false_iff_ne]
        rintro rfl
        exact absurd hwild (by decide)
      simp only [List.cons_append, List.nil_append, List.splitOn_cons_eq_if_modifyHead, ih, hparts,
        hopening, hclosing, hb, Bool.false_eq_true, if_false, List.map_cons, List.modifyHead_cons]
      rw [escape_cons, if_pos hwild]
      rfl
    · rename_i hplain
      rw [List.singleton_append, List.splitOn_cons_eq_if_modifyHead,
        List.splitOn_cons_eq_if_modifyHead, ih, hparts]
      split
      · rfl
      · rw [List.map_cons, List.modifyHead_cons, List.modifyHead_cons, List.map_cons, escape_cons,
          if_neg hplain]
        rfl

theorem map_read_escape (text : List UInt8) :
    ((List.splitOn slash (escape text)).map fun part =>
        (⟨unbracket part, part.contains 0x5b⟩ : PatternPart))
      = (List.splitOn slash text).map .ofName := by
  rw [splitOn_escape, List.map_map]
  refine List.map_congr_left fun part _ => ?_
  rw [Function.comp_apply, unbracket_escape, contains_escape]
  rfl

theorem ending_ofDirectory (directory : List UInt8) (ending : Name) :
    (ofDirectory directory ending).ending = ending := by
  unfold ofDirectory
  split
  · rfl
  · split <;> rfl

theorem slash_not_mem_of_mem_directory {directory : List UInt8} {ending : Name}
    {part : PatternPart} (h : part ∈ (ofDirectory directory ending).directory) :
    slash ∉ part.name := by
  have hsplit : ∀ {text : List UInt8}, part ∈ (List.splitOn slash text).map .ofName →
      slash ∉ part.name := by
    intro text hmem
    obtain ⟨name, hname, rfl⟩ := List.mem_map.1 hmem
    exact not_mem_of_mem_splitOn hname
  unfold ofDirectory at h
  split at h
  · cases h
  · split at h
    · exact hsplit h
    · exact hsplit h

theorem splitOn_ending {ending : Name} (h : slash ∉ ending) :
    List.splitOn slash (utf8 "**/*" ++ ending) = [[0x2a, 0x2a], 0x2a :: ending] := by
  have hending : slash ∉ 0x2a :: ending := List.not_mem_cons_of_ne_of_not_mem (by decide) h
  have htext : utf8 "**/*" ++ ending = [0x2a, 0x2a] ++ slash :: 0x2a :: ending := rfl
  have hany : List.splitOn slash [0x2a, 0x2a] = [[0x2a, 0x2a]] :=
    List.splitOn_eq_singleton (by decide)
  rw [htext, List.splitOn_append_cons_self, hany, List.splitOn_eq_singleton hending,
    List.singleton_append]

theorem read?_of_splitOn {absolute : Bool} {parts : List Name} {ending : Name}
    (habsolute : (text.head? == some slash) = absolute)
    (h : List.splitOn slash (if absolute then text.tail else text)
      = parts ++ [[0x2a, 0x2a], 0x2a :: ending]) :
    read? text = some ⟨absolute, parts.map fun part => ⟨unbracket part, part.contains 0x5b⟩,
      ending⟩ := by
  have hreverse : (parts ++ [[0x2a, 0x2a], 0x2a :: ending]).reverse
      = (0x2a :: ending) :: [0x2a, 0x2a] :: parts.reverse := by
    rw [List.reverse_append]
    rfl
  unfold read?
  simp only [habsolute, h, hreverse, List.reverse_reverse]

/-- **The pattern of a directory can be read, whatever its text is.** -/
theorem read?_escape {ending : Name} (h : slash ∉ ending) (directory : List UInt8) :
    read? (escape directory ++ utf8 "/**/*" ++ ending) = some (ofDirectory directory ending) := by
  have hend : utf8 "/**/*" ++ ending = slash :: (utf8 "**/*" ++ ending) := rfl
  have hparts : ∀ front : List UInt8,
      List.splitOn slash (escape front ++ slash :: (utf8 "**/*" ++ ending))
        = List.splitOn slash (escape front) ++ [[0x2a, 0x2a], 0x2a :: ending] := by
    intro front
    rw [List.splitOn_append_cons_self, splitOn_ending h]
  rw [List.append_assoc, hend]
  cases directory with
  | nil =>
    have habsolute : ((slash :: (utf8 "**/*" ++ ending)).head? == some slash) = true := rfl
    have hnone : List.splitOn slash (utf8 "**/*" ++ ending)
        = [] ++ [[0x2a, 0x2a], 0x2a :: ending] := splitOn_ending h
    exact read?_of_splitOn habsolute hnone
  | cons b rest =>
    rw [ofDirectory]
    by_cases hb : b = slash
    · subst hb
      rw [if_pos rfl, ← map_read_escape]
      exact read?_of_splitOn rfl (hparts rest)
    · rw [if_neg hb, ← map_read_escape]
      refine read?_of_splitOn ?_ (hparts (b :: rest))
      rw [escape_cons]
      split
      · rfl
      · exact beq_eq_false_iff_ne.2 fun heq => hb (Option.some.inj heq)

end Pattern

end ValueClass
