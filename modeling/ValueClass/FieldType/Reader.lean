import ValueClass.Fault
import ValueClass.FieldType
import ValueClass.Text.Blank
import ValueClass.Text.Split

/-!
# Reading type descriptors

A descriptor is the text after the colon of a field. Reading goes from the outside in: `outermost`
finds out whether the text is a scalar, an array, a plain name or a name with arguments, and
`FieldType.read` reads the texts inside.

* `cutArguments` cuts between `<` and `>` at the commas that no inner bracket encloses.
* `outermost` reads one layer, and finds all that can be wrong with it.
* `FieldType.read` reads the whole descriptor. What is inside is shorter than what it is inside of.
-/

namespace ValueClass

open Text

/-- The pieces between the commas that no bracket encloses, `depth` brackets being open already. -/
def cutArguments (depth : Nat) : List Char → Except DescriptorFlaw (List (List Char))
  | [] => if depth = 0 then .ok [[]] else .error .unclosed
  | c :: rest =>
    if c = '<' then (cutArguments (depth + 1) rest).map (.modifyHead (c :: ·))
    else if c = '>' then
      match depth with
      | 0 => .error .unopened
      | outer + 1 => (cutArguments outer rest).map (.modifyHead (c :: ·))
    else if c = ',' ∧ depth = 0 then (cutArguments depth rest).map ([] :: ·)
    else (cutArguments depth rest).map (.modifyHead (c :: ·))

/-- The type arguments between `<` and `>`, blanks cut off. None may be empty. -/
def readArguments (inner : List Char) : Except DescriptorFlaw (List (List Char)) :=
  match cutArguments 0 inner with
  | .error flaw => .error flaw
  | .ok pieces =>
    let arguments := pieces.map trim
    if arguments.any List.isEmpty then .error .emptyArgument else .ok arguments

/-- The outermost layer of a type, with the texts inside it not read yet. -/
inductive Layer where
  | scalar (kind : Scalar)
  | array (element : List Char)
  | name (name : List Char)
  | generic (name : List Char) (arguments : List (List Char))
  deriving DecidableEq, Repr

/-- The outermost layer of a name, with or without arguments. -/
def outermostReference (descriptor : List Char) : Except DescriptorFlaw Layer :=
  match cut '<' descriptor with
  | none => if '>' ∈ descriptor then .error .unopened else .ok (.name descriptor)
  | some (before, after) =>
    if trim before = [] then .error .noBaseName
    else
      match List.isSuffixOf? ['>'] after with
      | none => .error (if '>' ∈ descriptor then .textAfterClosing else .unclosed)
      | some inner => (readArguments inner).map (.generic (trim before))

/-- **The outermost layer of a descriptor.** A fault names the text as it was given where nothing,
a wildcard or a bare `[]` stands, and without the blanks around it elsewhere. -/
def outermost (descriptor : List Char) : Except Fault Layer :=
  let trimmed := trim descriptor
  if trimmed = [] then .error (.descriptor (String.ofList descriptor) .empty)
  else
    match Scalar.ofKeyword? (String.ofList trimmed) with
    | some kind => .ok (.scalar kind)
    | none =>
      if trimmed = ['v', 'o', 'i', 'd'] then .error (.unsupported (String.ofList trimmed))
      else if trimmed.head? = some '?' then
        .error (.descriptor (String.ofList descriptor) .wildcard)
      else
        match List.isSuffixOf? ['[', ']'] trimmed with
        | some element =>
          if trim element = [] then .error (.descriptor (String.ofList descriptor) .bareSuffix)
          else .ok (.array element)
        | none => (outermostReference trimmed).mapError (.descriptor (String.ofList trimmed))

/-! ### What is inside is shorter -/

theorem isPrefixOf?_length {beginning as after : List Char}
    (h : beginning.isPrefixOf? as = some after) : beginning.length + after.length = as.length := by
  induction beginning generalizing as with
  | nil =>
    cases (h : some as = some after)
    exact Nat.zero_add _
  | cons b beginning ih =>
    cases as with
    | nil => cases (h : none = some after)
    | cons a as =>
      have := ih (Option.ite_none_right_eq_some.1 h).2
      simp only [List.length_cons]
      omega

theorem isSuffixOf?_length {ending as before : List Char}
    (h : ending.isSuffixOf? as = some before) : before.length + ending.length = as.length := by
  obtain ⟨after, hafter, rfl⟩ := Option.map_eq_some_iff.1 h
  have := isPrefixOf?_length hafter
  simp only [List.length_reverse] at this ⊢
  omega

theorem cut_length {sep : Char} : ∀ {as before after : List Char},
    cut sep as = some (before, after) → before.length + after.length + 1 = as.length
  | [], _, _, h => nomatch h
  | a :: rest, before, after, h => by
    unfold cut at h
    split at h
    · cases h; simp
    · obtain ⟨⟨b, c⟩, hb, hc⟩ := Option.map_eq_some_iff.1 h
      cases hc
      have := cut_length hb
      simp only [List.length_cons]
      omega

/-- How much there is to read in a list of texts: their lengths, and one for each. -/
def readingSize : List (List Char) → Nat
  | [] => 0
  | text :: texts => text.length + 1 + readingSize texts

theorem cutArguments_ne_nil : ∀ {cs : List Char} {depth : Nat} {pieces : List (List Char)},
    cutArguments depth cs = .ok pieces → pieces ≠ []
  | [], depth, pieces, h => by
    unfold cutArguments at h
    split at h <;> cases h
    simp
  | c :: rest, depth, pieces, h => by
    have head : ∀ d, (cutArguments d rest).map (.modifyHead (c :: ·)) = .ok pieces →
        pieces ≠ [] := by
      intro d hd
      cases hr : cutArguments d rest with
      | error e => rw [hr] at hd; exact nomatch hd
      | ok ps => rw [hr] at hd; cases hd; simpa using cutArguments_ne_nil hr
    unfold cutArguments at h
    split at h
    · exact head _ h
    · split at h
      · cases depth with
        | zero => exact nomatch h
        | succ d => exact head _ h
      · split at h
        · cases hr : cutArguments depth rest with
          | error e => rw [hr] at h; exact nomatch h
          | ok ps => rw [hr] at h; cases h; simp
        · exact head _ h

theorem cutArguments_size : ∀ {cs : List Char} {depth : Nat} {pieces : List (List Char)},
    cutArguments depth cs = .ok pieces → readingSize pieces = cs.length + 1
  | [], depth, pieces, h => by
    unfold cutArguments at h
    split at h <;> cases h
    simp [readingSize]
  | c :: rest, depth, pieces, h => by
    have head : ∀ d, (cutArguments d rest).map (.modifyHead (c :: ·)) = .ok pieces →
        readingSize pieces = (c :: rest).length + 1 := by
      intro d hd
      cases hr : cutArguments d rest with
      | error e => rw [hr] at hd; exact nomatch hd
      | ok ps =>
        have ih := cutArguments_size hr
        rw [hr] at hd
        cases hd
        cases ps with
        | nil => exact absurd rfl (cutArguments_ne_nil hr)
        | cons p ps =>
          simp [readingSize] at ih ⊢
          omega
    unfold cutArguments at h
    split at h
    · exact head _ h
    · split at h
      · cases depth with
        | zero => exact nomatch h
        | succ d => exact head _ h
      · split at h
        · cases hr : cutArguments depth rest with
          | error e => rw [hr] at h; exact nomatch h
          | ok ps =>
            have ih := cutArguments_size hr
            rw [hr] at h
            cases h
            simp [readingSize] at ih ⊢
            omega
        · exact head _ h

theorem readingSize_map_trim (texts : List (List Char)) :
    readingSize (texts.map trim) ≤ readingSize texts := by
  induction texts with
  | nil => simp [readingSize]
  | cons t ts ih =>
    have := length_trim_le t
    simp [readingSize] at ih ⊢
    omega

theorem readArguments_size {inner : List Char} {arguments : List (List Char)}
    (h : readArguments inner = .ok arguments) : readingSize arguments ≤ inner.length + 1 := by
  unfold readArguments at h
  cases hc : cutArguments 0 inner with
  | error e => rw [hc] at h; exact nomatch h
  | ok pieces =>
    rw [hc] at h
    dsimp only at h
    split at h
    · exact nomatch h
    · cases h
      rw [← cutArguments_size hc]
      exact readingSize_map_trim pieces

theorem outermostReference_size {descriptor name : List Char} {arguments : List (List Char)}
    (h : outermostReference descriptor = .ok (.generic name arguments)) :
    readingSize arguments < descriptor.length := by
  unfold outermostReference at h
  split at h
  · split at h <;> exact nomatch h
  · next before after hcut =>
    split at h
    · exact nomatch h
    · next hname =>
      split at h
      · exact nomatch h
      · next inner hinner =>
        cases hr : readArguments inner with
        | error e => rw [hr] at h; exact nomatch h
        | ok args =>
          rw [hr] at h
          cases h
          have h1 := readArguments_size hr
          have h2 := isSuffixOf?_length hinner
          have h3 := cut_length hcut
          have h4 := length_trim_le before
          have h5 : 0 < (trim before).length := List.length_pos_iff.2 hname
          simp only [List.length_cons, List.length_nil] at h2
          omega

theorem outermostReference_ne_array {descriptor element : List Char} :
    outermostReference descriptor ≠ .ok (.array element) := by
  intro h
  unfold outermostReference at h
  split at h
  · split at h <;> exact nomatch h
  · split at h
    · exact nomatch h
    · split at h
      · exact nomatch h
      · next inner _ =>
        cases hr : readArguments inner <;> rw [hr] at h <;> exact nomatch h

theorem outermost_array_length {descriptor element : List Char}
    (h : outermost descriptor = .ok (.array element)) : element.length < descriptor.length := by
  unfold outermost at h
  dsimp only at h
  split at h
  · exact nomatch h
  · split at h
    · exact nomatch h
    · split at h
      · exact nomatch h
      · split at h
        · exact nomatch h
        · split at h
          · next e he =>
            split at h
            · exact nomatch h
            · cases h
              have h1 := isSuffixOf?_length he
              have h2 := length_trim_le descriptor
              simp only [List.length_cons, List.length_nil] at h1
              omega
          · cases hr : outermostReference (trim descriptor) with
            | error e => rw [hr] at h; exact nomatch h
            | ok layer =>
              rw [hr] at h
              cases h
              exact absurd hr outermostReference_ne_array

theorem outermost_generic_size {descriptor name : List Char} {arguments : List (List Char)}
    (h : outermost descriptor = .ok (.generic name arguments)) :
    readingSize arguments < descriptor.length := by
  unfold outermost at h
  dsimp only at h
  split at h
  · exact nomatch h
  · split at h
    · exact nomatch h
    · split at h
      · exact nomatch h
      · split at h
        · exact nomatch h
        · split at h
          · split at h <;> exact nomatch h
          · cases hr : outermostReference (trim descriptor) with
            | error e => rw [hr] at h; exact nomatch h
            | ok layer =>
              rw [hr] at h
              cases h
              exact Nat.lt_of_lt_of_le (outermostReference_size hr) (length_trim_le descriptor)

/-! ### Reading -/

namespace FieldType

mutual

/-- The type that the characters of a descriptor spell. -/
def readChars (descriptor : List Char) : Except Fault FieldType :=
  match h : outermost descriptor with
  | .error fault => .error fault
  | .ok (.scalar kind) => .ok (.scalar kind)
  | .ok (.array element) =>
    have := outermost_array_length h
    (readChars element).map .array
  | .ok (.name name) => .ok (.reference (String.ofList name) [])
  | .ok (.generic name arguments) =>
    have := outermost_generic_size h
    (readAll arguments).map (.reference (String.ofList name))
termination_by descriptor.length

/-- The types of a list of descriptors, or the fault of the first that has one. -/
def readAll (descriptors : List (List Char)) : Except Fault (List FieldType) :=
  match descriptors with
  | [] => .ok []
  | descriptor :: rest =>
    match readChars descriptor with
    | .error fault => .error fault
    | .ok type => (readAll rest).map (type :: ·)
termination_by readingSize descriptors
decreasing_by
  · simp [readingSize]; omega
  · simp [readingSize]

end

/-- **The type that a descriptor spells.** -/
def read (descriptor : String) : Except Fault FieldType :=
  readChars descriptor.toList

end FieldType

end ValueClass
