import ValueClass.FieldType.Reader
import ValueClass.Proofs.Lists
import ValueClass.Proofs.Pieces

/-!
# Commas and brackets

Between `<` and `>` type arguments are divided by commas, and a comma within inner brackets divides
nothing here. `nesting` follows a text from one depth of brackets to the next.

* `nesting_append`: the depth after two texts is found one after the other.
* `cutArguments_eq_ok_iff`: **cutting gives exactly the pieces that can stand between commas** and
  make up the text.
* `readArguments_eq_ok_iff`: what the type arguments between two brackets are.
-/

namespace ValueClass

open Text

/-! ## The depth of brackets -/

/-- The number of open brackets after a character, `depth` being open before it. There is none if
the character closes a bracket that is not open, or is a comma that no bracket encloses. -/
def depthAfter (depth : Nat) (c : Char) : Option Nat :=
  if c = '<' then some (depth + 1)
  else if c = '>' then if depth = 0 then none else some (depth - 1)
  else if c = ',' ∧ depth = 0 then none
  else some depth

/-- The number of open brackets after a text. -/
def nesting (depth : Nat) : List Char → Option Nat
  | [] => some depth
  | c :: rest => (depthAfter depth c).bind (nesting · rest)

/-- The text can be one of several that commas divide. -/
def IsWhole (text : List Char) : Prop :=
  nesting 0 text = some 0

instance (text : List Char) : Decidable (IsWhole text) :=
  inferInstanceAs (Decidable (_ = _))

theorem depthAfter_of_ne {c : Char} (hopening : c ≠ '<') (hclosing : c ≠ '>') (hcomma : c ≠ ',')
    (depth : Nat) : depthAfter depth c = some depth := by
  simp [depthAfter, hopening, hclosing, hcomma]

/-- A character does the same within one more bracket. -/
theorem depthAfter_succ {depth after : Nat} {c : Char} (h : depthAfter depth c = some after) :
    depthAfter (depth + 1) c = some (after + 1) := by
  unfold depthAfter at h ⊢
  by_cases hopening : c = '<'
  · rw [if_pos hopening] at h ⊢
    cases h
    rfl
  rw [if_neg hopening] at h ⊢
  by_cases hclosing : c = '>'
  · rw [if_pos hclosing] at h ⊢
    cases depth with
    | zero => cases h
    | succ outer =>
      cases h
      rfl
  rw [if_neg hclosing] at h ⊢
  rw [if_neg fun hcomma => Nat.add_one_ne_zero depth hcomma.2]
  split at h
  · cases h
  · cases h
    rfl

theorem nesting_append (depth : Nat) (as bs : List Char) :
    nesting depth (as ++ bs) = (nesting depth as).bind (nesting · bs) := by
  induction as generalizing depth with
  | nil => rfl
  | cons a as ih =>
    rw [List.cons_append, nesting, nesting, Option.bind_assoc]
    simp only [ih]

theorem nesting_of_not_mem {cs : List Char} (hopening : '<' ∉ cs) (hclosing : '>' ∉ cs)
    (hcomma : ',' ∉ cs) (depth : Nat) : nesting depth cs = some depth := by
  induction cs with
  | nil => rfl
  | cons c cs ih =>
    obtain ⟨hc1, h1⟩ := List.ne_and_not_mem_of_not_mem_cons hopening
    obtain ⟨hc2, h2⟩ := List.ne_and_not_mem_of_not_mem_cons hclosing
    obtain ⟨hc3, h3⟩ := List.ne_and_not_mem_of_not_mem_cons hcomma
    rw [nesting, depthAfter_of_ne hc1.symm hc2.symm hc3.symm, Option.bind_some]
    exact ih h1 h2 h3

theorem nesting_of_allBlank {cs : List Char} (h : AllBlank cs) (depth : Nat) :
    nesting depth cs = some depth := by
  have hnot : ∀ c, isBlank c = false → c ∉ cs := fun c hc hmem =>
    Bool.false_ne_true (hc.symm.trans (h c hmem))
  exact nesting_of_not_mem (hnot _ (by decide)) (hnot _ (by decide)) (hnot _ (by decide)) depth

theorem nesting_succ {depth after : Nat} {cs : List Char} (h : nesting depth cs = some after) :
    nesting (depth + 1) cs = some (after + 1) := by
  induction cs generalizing depth with
  | nil =>
    cases h
    rfl
  | cons c cs ih =>
    obtain ⟨next, hnext, hrest⟩ := Option.bind_eq_some_iff.1 h
    rw [nesting, depthAfter_succ hnext, Option.bind_some]
    exact ih hrest

/-- **Brackets enclose what is between them.** -/
theorem nesting_enclosed {depth : Nat} {inner : List Char}
    (h : nesting (depth + 1) inner = some (depth + 1)) :
    nesting depth ('<' :: inner ++ ['>']) = some depth := by
  have hclosing : nesting (depth + 1) ['>'] = some depth := by simp [nesting, depthAfter]
  rw [List.cons_append, nesting, depthAfter, if_pos rfl, Option.bind_some, nesting_append, h,
    Option.bind_some, hclosing]

theorem nesting_join {pieces : List (List Char)} (h : ∀ piece ∈ pieces, IsWhole piece)
    (depth : Nat) : nesting (depth + 1) (List.intercalate [','] pieces) = some (depth + 1) := by
  have hwhole : ∀ piece ∈ pieces, nesting (depth + 1) piece = some (depth + 1) := by
    intro piece hpiece
    induction depth with
    | zero => exact nesting_succ (h piece hpiece)
    | succ depth ih => exact nesting_succ ih
  -- where a bracket is open, a comma changes nothing
  have hcomma : depthAfter (depth + 1) ',' = some (depth + 1) := by simp [depthAfter]
  have hrest : ∀ rest : List (List Char), (∀ piece ∈ rest, piece ∈ pieces) →
      nesting (depth + 1) (rest.flatMap (',' :: ·)) = some (depth + 1) := by
    intro rest hrest
    induction rest with
    | nil => rfl
    | cons piece rest ih =>
      obtain ⟨hpiece, hothers⟩ := List.forall_mem_cons.1 hrest
      rw [List.flatMap_cons, List.cons_append, nesting, hcomma, Option.bind_some, nesting_append,
        hwhole piece hpiece, Option.bind_some]
      exact ih hothers
  cases pieces with
  | nil => rfl
  | cons first rest =>
    rw [intercalate_cons, nesting_append, hwhole first List.mem_cons_self, Option.bind_some]
    exact hrest rest fun _ => List.mem_cons_of_mem _

theorem nesting_padded {text padded : List Char} (h : Padded text padded) (depth : Nat) :
    nesting depth padded = nesting depth text := by
  obtain ⟨before, after, hbefore, hafter, rfl⟩ := h
  rw [nesting_append, nesting_append, nesting_of_allBlank hbefore, Option.bind_some]
  cases nesting depth text with
  | none => rfl
  | some d => exact nesting_of_allBlank hafter d

theorem isWhole_trim_iff (text : List Char) : IsWhole (trim text) ↔ IsWhole text := by
  rw [IsWhole, IsWhole, nesting_padded (padded_trim text)]

/-- Before the first bracket opens, there is neither a bracket to close nor a comma. -/
theorem not_mem_of_isWhole_append {front back : List Char} (h : IsWhole (front ++ back))
    (hopening : '<' ∉ front) : '>' ∉ front ∧ ',' ∉ front := by
  induction front with
  | nil => exact ⟨List.not_mem_nil, List.not_mem_nil⟩
  | cons c front ih =>
    obtain ⟨hc, hfront⟩ := List.ne_and_not_mem_of_not_mem_cons hopening
    have hclosing : c ≠ '>' := by
      rintro rfl
      cases h
    have hcomma : c ≠ ',' := by
      rintro rfl
      cases h
    rw [IsWhole, List.cons_append, nesting, depthAfter_of_ne hc.symm hclosing hcomma,
      Option.bind_some] at h
    obtain ⟨h1, h2⟩ := ih h hfront
    exact ⟨List.not_mem_cons_of_ne_of_not_mem hclosing.symm h1,
      List.not_mem_cons_of_ne_of_not_mem hcomma.symm h2⟩

/-! ## Cutting at commas -/

/-- A character that can be read on from goes in front of the first piece. -/
theorem cutArguments_cons {depth next : Nat} {c : Char} (h : depthAfter depth c = some next)
    (rest : List Char) :
    cutArguments depth (c :: rest) = (cutArguments next rest).map (.modifyHead (c :: ·)) := by
  unfold depthAfter at h
  split at h
  · rename_i hopening
    cases h
    simp [cutArguments, hopening]
  rename_i hopening
  split at h
  · rename_i hclosing
    cases depth with
    | zero => cases h
    | succ outer =>
      cases h
      simp [cutArguments, hclosing]
  rename_i hclosing
  split at h
  · cases h
  · rename_i hcomma
    cases h
    simp [cutArguments, hopening, hclosing, hcomma]

/-- Any other character either closes a bracket that is not open, or is a comma to cut at. -/
theorem cutArguments_cons_of_none {depth : Nat} {c : Char} (h : depthAfter depth c = none)
    (rest : List Char) :
    depth = 0 ∧
      (c = '>' ∧ cutArguments depth (c :: rest) = .error .unopened ∨
        c = ',' ∧ cutArguments depth (c :: rest) = (cutArguments depth rest).map ([] :: ·)) := by
  unfold depthAfter at h
  split at h
  · cases h
  split at h
  · rename_i hclosing
    split at h
    · rename_i hdepth
      subst hdepth
      exact ⟨rfl, .inl ⟨hclosing, by simp [cutArguments, hclosing]⟩⟩
    · cases h
  split at h
  · rename_i hcomma
    obtain ⟨rfl, rfl⟩ := hcomma
    exact ⟨rfl, .inr ⟨rfl, by simp [cutArguments]⟩⟩
  · cases h

theorem map_modifyHead_eq_ok_iff {result : Except DescriptorFlaw (List (List Char))} {c : Char}
    {first : List Char} {rest : List (List Char)}
    (hne : ∀ pieces, result = .ok pieces → pieces ≠ []) :
    result.map (.modifyHead (c :: ·)) = .ok (first :: rest) ↔
      ∃ tail, first = c :: tail ∧ result = .ok (tail :: rest) := by
  rw [map_eq_ok_iff]
  constructor
  · rintro ⟨pieces, hpieces, hcons⟩
    obtain ⟨piece, others, rfl⟩ := List.exists_cons_of_ne_nil (hne pieces hpieces)
    cases hcons
    exact ⟨piece, rfl, hpieces⟩
  · rintro ⟨tail, rfl, htail⟩
    exact ⟨tail :: rest, htail, rfl⟩

/-- **Cutting gives exactly the pieces that can stand between commas** and make up the text. The
first one may close the brackets that are open already. -/
theorem cutArguments_eq_ok_iff {depth : Nat} {cs first : List Char} {rest : List (List Char)} :
    cutArguments depth cs = .ok (first :: rest) ↔
      cs = List.intercalate [','] (first :: rest) ∧ nesting depth first = some 0 ∧
        ∀ piece ∈ rest, IsWhole piece := by
  induction cs generalizing depth first rest with
  | nil =>
    by_cases hdepth : depth = 0
    · cases first <;> cases rest <;> simp [cutArguments, intercalate_cons, nesting, hdepth]
    · cases first <;> simp [cutArguments, intercalate_cons, nesting, hdepth]
  | cons c cs ih =>
    rw [cons_eq_intercalate_iff]
    cases hdepth : depthAfter depth c with
    | some next =>
      rw [cutArguments_cons hdepth, map_modifyHead_eq_ok_iff fun _ => cutArguments_ne_nil]
      constructor
      · rintro ⟨tail, rfl, htail⟩
        obtain ⟨hcs, hnesting, hrest⟩ := ih.1 htail
        refine ⟨.inl ⟨tail, rfl, hcs⟩, ?_, hrest⟩
        rw [nesting, hdepth, Option.bind_some, hnesting]
      · rintro ⟨⟨tail, rfl, hcs⟩ | ⟨rfl, rfl, -⟩, hnesting, hrest⟩
        · rw [nesting, hdepth, Option.bind_some] at hnesting
          exact ⟨tail, rfl, ih.2 ⟨hcs, hnesting, hrest⟩⟩
        · -- a comma is passed over only where a bracket is open
          cases hnesting
          cases hdepth
    | none =>
      obtain ⟨rfl, ⟨rfl, hcut⟩ | ⟨rfl, hcut⟩⟩ := cutArguments_cons_of_none hdepth cs
      · rw [hcut]
        constructor
        · intro herror
          cases herror
        · rintro ⟨⟨tail, rfl, -⟩ | ⟨-, hcomma, -⟩, hnesting, -⟩
          · cases hnesting
          · exact absurd hcomma (by decide)
      · rw [hcut, map_eq_ok_iff]
        constructor
        · rintro ⟨pieces, hrest, ⟨⟩⟩
          obtain ⟨next, pieces, rfl⟩ := List.exists_cons_of_ne_nil (cutArguments_ne_nil hrest)
          obtain ⟨hcs, hnext, hpieces⟩ := ih.1 hrest
          exact ⟨.inr ⟨rfl, rfl, next, pieces, rfl, hcs⟩, rfl,
            List.forall_mem_cons.2 ⟨hnext, hpieces⟩⟩
        · rintro ⟨⟨tail, rfl, -⟩ | ⟨rfl, -, next, pieces, rfl, hcs⟩, hnesting, hrest⟩
          · cases hnesting
          · obtain ⟨hnext, hpieces⟩ := List.forall_mem_cons.1 hrest
            exact ⟨next :: pieces, ih.2 ⟨hcs, hnext, hpieces⟩, rfl⟩

theorem cutArguments_zero_eq_ok_iff {cs : List Char} {pieces : List (List Char)} :
    cutArguments 0 cs = .ok pieces ↔
      pieces ≠ [] ∧ cs = List.intercalate [','] pieces ∧ ∀ piece ∈ pieces, IsWhole piece := by
  cases pieces with
  | nil => exact ⟨fun h => absurd rfl (cutArguments_ne_nil h), fun h => absurd rfl h.1⟩
  | cons first rest =>
    rw [cutArguments_eq_ok_iff, List.forall_mem_cons]
    exact ⟨fun h => ⟨List.cons_ne_nil _ _, h⟩, fun h => h.2⟩

/-- **The type arguments between two brackets** are the pieces between the commas that no inner
bracket encloses, trimmed. Each holds something. -/
theorem readArguments_eq_ok_iff {inner : List Char} {arguments : List (List Char)} :
    readArguments inner = .ok arguments ↔
      ∃ pieces, pieces ≠ [] ∧ inner = List.intercalate [','] pieces ∧ arguments = pieces.map trim ∧
        ∀ piece ∈ pieces, IsWhole piece ∧ trim piece ≠ [] := by
  unfold readArguments
  cases hcut : cutArguments 0 inner with
  | error flaw =>
    refine ⟨nofun, ?_⟩
    rintro ⟨pieces, hne, hinner, -, hpieces⟩
    rw [cutArguments_zero_eq_ok_iff.2 ⟨hne, hinner, fun p hp => (hpieces p hp).1⟩] at hcut
    cases hcut
  | ok pieces =>
    obtain ⟨hne, hinner, hwhole⟩ := cutArguments_zero_eq_ok_iff.1 hcut
    have hany : (pieces.map trim).any List.isEmpty = true ↔ ∃ p ∈ pieces, trim p = [] := by
      simp
    dsimp only
    split
    · rename_i hempty
      obtain ⟨p, hp, hnil⟩ := hany.1 hempty
      refine ⟨nofun, ?_⟩
      rintro ⟨others, hne', hinner', -, hothers⟩
      have hsame := cutArguments_zero_eq_ok_iff.2 ⟨hne', hinner', fun p hp => (hothers p hp).1⟩
      rw [hcut] at hsame
      cases hsame
      exact absurd hnil (hothers p hp).2
    · rename_i hfull
      constructor
      · intro h
        cases h
        exact ⟨pieces, hne, hinner, rfl, fun p hp =>
          ⟨hwhole p hp, fun hnil => hfull (hany.2 ⟨p, hp, hnil⟩)⟩⟩
      · rintro ⟨others, hne', hinner', rfl, hothers⟩
        have hsame := cutArguments_zero_eq_ok_iff.2 ⟨hne', hinner', fun p hp => (hothers p hp).1⟩
        rw [hcut] at hsame
        cases hsame
        rfl

end ValueClass
