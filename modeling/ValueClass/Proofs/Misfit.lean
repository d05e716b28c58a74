import ValueClass.Instance.Rule
import ValueClass.Proofs.Equivalence
import ValueClass.Proofs.Fit

/-!
# The first value that does not fit

Hashing fails exactly if some value within is of another kind than its place asks for, and then it
names the first such place. Whether the value itself is of the right kind is looked at first, and
then it is hashed by the rule for its type: every value of the right kind has a case there.

* `Value.places`: a value and all that is in it, each with the type of its place.
* `fits_iff_places`: a value fits exactly if every value within is of the right kind.
* `Blames`: what hashing has to answer where there is a misfit, and where there is none.
* `blames_hashFields`: **the fields of an instance are blamed from left to right**, if each of them
  is.
* `HashRule.part?`: what a value adds by a rule, and `part?_eq_some`, that the rule for a type has a
  case for every value of its kind.
* `EqualityRule.answer?`: what comparing by a rule answers, and `equalOf_eq_ofRule`, **that values
  are compared by the rule for their type.**
* `hash_fails_at_first_misfit`: **hashing fails exactly if a value does not fit, and names the first
  misfit.**
-/

namespace ValueClass

/-! ## Places -/

/-- **The places of a value**, each with its type, depth first and from left to right: the value
itself, then the places of its items if it is an array in the place of one. -/
def Value.places : FieldType → Value → List (FieldType × Value)
  | .array element, .array (some items) =>
    (.array element, .array (some items)) :: items.flatMap fun item => item.places element
  | type, v => [(type, v)]

/-- Whether the value in a place is of another kind than its type. -/
def isMisfit (place : FieldType × Value) : Bool :=
  place.2.kind != place.1.kind

/-- The first misfit in a value. -/
def Value.firstMisfit? (type : FieldType) (v : Value) : Option (FieldType × Value) :=
  (v.places type).find? isMisfit

/-- The first misfit in the fields of an instance. -/
def Instance.firstMisfit? (fields : Instance) : Option (FieldType × Value) :=
  (fields.flatMap fun field => field.2.places field.1).find? isMisfit

theorem isMisfit_array (element : FieldType) (items : Option (List Value)) :
    isMisfit (.array element, .array items) = false :=
  rfl

theorem places_items (element : FieldType) (items : List Value) :
    Value.places (.array element) (.array (some items)) =
      (.array element, .array (some items)) ::
        (itemFields element items).flatMap fun field => field.2.places field.1 := by
  rw [Value.places, itemFields, List.flatMap_map]

/-- The first place is the value itself. -/
theorem exists_places_eq (type : FieldType) (v : Value) :
    ∃ inner, v.places type = (type, v) :: inner := by
  fun_cases Value.places type v with
  | case1 element items => exact ⟨_, rfl⟩
  | case2 => exact ⟨[], rfl⟩

/-- **A value fits exactly if every value within is of the right kind.** -/
theorem fits_iff_places (type : FieldType) :
    ∀ v : Value, v.fits type = true ↔ ∀ place ∈ v.places type, isMisfit place = false := by
  induction type using FieldType.elementInduction with
  | step type ih =>
    intro v
    cases type with
    | scalar kind => simp [Value.fits, Value.places, isMisfit, FieldType.kind]
    | array element =>
      cases v with
      | array items =>
        cases items with
        | none => simp [Value.fits, Value.places, isMisfit, FieldType.kind, Value.kind]
        | some items =>
          simp only [Value.fits, Value.places, List.all_eq_true, List.forall_mem_cons,
            isMisfit_array, true_and, List.mem_flatMap, ih element rfl]
          constructor
          · rintro h place ⟨item, hitem, hplace⟩
            exact h item hitem place hplace
          · intro h item hitem place hplace
            exact h place ⟨item, hitem, hplace⟩
      | _ => simp [Value.fits, Value.places, isMisfit, FieldType.kind, Value.kind]
    | reference name arguments =>
      cases v <;> simp [Value.fits, Value.places, isMisfit, FieldType.kind, Value.kind]

theorem firstMisfit?_eq_none_iff {type : FieldType} {v : Value} :
    v.firstMisfit? type = none ↔ v.fits type = true := by
  rw [Value.firstMisfit?, List.find?_eq_none, fits_iff_places]
  simp only [Bool.not_eq_true]

theorem Instance.firstMisfit?_eq_none_iff {fields : Instance} :
    fields.firstMisfit? = none ↔ ∀ field ∈ fields, field.2.fits field.1 = true := by
  simp only [Instance.firstMisfit?, List.find?_eq_none, List.mem_flatMap, fits_iff_places,
    Bool.not_eq_true]
  constructor
  · intro h field hfield place hplace
    exact h place ⟨field, hfield, hplace⟩
  · rintro h place ⟨field, hfield, hplace⟩
    exact h field hfield place hplace

/-! ## Who is to blame -/

/-- **What hashing has to answer**: a hash code if there is no misfit, and otherwise the type of its
place and the kind of its value. -/
def Blames (answer : Except Mismatch Int32) : Option (FieldType × Value) → Prop
  | none => ∃ code, answer = .ok code
  | some place => answer = .error ⟨place.1, place.2.kind⟩

/-- **The fields of an instance are blamed from left to right.** -/
theorem blames_hashFields {fields : Instance}
    (h : ∀ field ∈ fields, Blames (hashOf field.1 field.2) (field.2.firstMisfit? field.1))
    (result : Int32) : Blames (hashFields result fields) fields.firstMisfit? := by
  induction fields generalizing result with
  | nil => exact ⟨result, rfl⟩
  | cons field rest ih =>
    obtain ⟨type, v⟩ := field
    obtain ⟨hfirst, hrest⟩ := List.forall_mem_cons.1 h
    have hfind : Instance.firstMisfit? ((type, v) :: rest) =
        (v.firstMisfit? type).or (Instance.firstMisfit? rest) := List.find?_append
    rw [hfind, hashFields]
    -- the rest is looked at only if there is no misfit in the first field
    cases hmisfit : v.firstMisfit? type with
    | none =>
      rw [hmisfit] at hfirst
      obtain ⟨part, hpart⟩ := hfirst
      dsimp only at hpart
      rw [hpart]
      exact ih hrest (addPart result part)
    | some place =>
      rw [hmisfit] at hfirst
      have herror : hashOf type v = .error ⟨place.1, place.2.kind⟩ := hfirst
      rw [herror]
      rfl

/-- **A value is blamed for the first misfit in it.** -/
theorem blames_hashOf (type : FieldType) :
    ∀ v : Value, Blames (hashOf type v) (v.firstMisfit? type) := by
  induction type using FieldType.elementInduction with
  | step type ih =>
    intro v
    by_cases hkind : v.kind = type.kind
    · cases type with
      | scalar kind =>
        have hfits : v.fits (.scalar kind) = true := beq_iff_eq.2 hkind
        rw [firstMisfit?_eq_none_iff.2 hfits]
        cases v <;> cases hkind <;> exact ⟨_, rfl⟩
      | array element =>
        obtain ⟨items, rfl⟩ := exists_array_of_kind hkind
        cases items with
        | none => exact ⟨0, rfl⟩
        | some items =>
          -- the array itself is of the right kind, and its items make up an instance
          have hitems : ∀ field ∈ itemFields element items,
              Blames (hashOf field.1 field.2) (field.2.firstMisfit? field.1) := by
            intro field hfield
            obtain ⟨item, -, rfl⟩ := List.mem_map.1 hfield
            exact ih element rfl item
          have hself : ¬isMisfit (.array element, .array (some items)) = true := by
            simp [isMisfit_array]
          rw [hashOf_array, Value.firstMisfit?, places_items, List.find?_cons_of_neg hself]
          exact blames_hashFields hitems hashSeed
      | reference name arguments =>
        obtain ⟨text, rfl⟩ := exists_reference_of_kind hkind
        cases text with
        | none => exact ⟨0, rfl⟩
        | some text => exact ⟨textHash text, rfl⟩
    · obtain ⟨inner, hplaces⟩ := exists_places_eq type v
      have hmisfit : isMisfit (type, v) = true := bne_iff_ne.2 hkind
      rw [Value.firstMisfit?, hplaces, List.find?_cons_of_pos hmisfit]
      exact hashOf_of_kind_ne hkind

theorem Blames.ok_iff {answer : Except Mismatch Int32} {misfit : Option (FieldType × Value)}
    (h : Blames answer misfit) : (∃ code, answer = .ok code) ↔ misfit = none := by
  cases misfit with
  | none => exact iff_of_true h rfl
  | some place =>
    have herror : answer = .error ⟨place.1, place.2.kind⟩ := h
    simp [herror]

theorem Blames.error_iff {answer : Except Mismatch Int32} {misfit : Option (FieldType × Value)}
    (h : Blames answer misfit) (mismatch : Mismatch) :
    answer = .error mismatch ↔
      ∃ place, misfit = some place ∧ mismatch = ⟨place.1, place.2.kind⟩ := by
  cases misfit with
  | none =>
    obtain ⟨code, hcode⟩ := h
    simp [hcode]
  | some place =>
    have herror : answer = .error ⟨place.1, place.2.kind⟩ := h
    simp [herror, eq_comm]

/-! ## Hashing by rules -/

/-- Whether a value is of the kind that a type asks for, told by the words for kinds. What is in an
array is not looked at. -/
def Value.passes : FieldType → Value → Bool
  | .scalar kind, v => kind.keyword == v.kind.name
  | .array _, .array _ => true
  | .reference _ _, .reference _ => true
  | _, _ => false

/-- **What a value adds by a rule**, in the place of an array with the given elements or of another
type. None if the rule has no case for the value. -/
def HashRule.part? (rule : HashRule) (element? : Option FieldType) (v : Value) :
    Option (Except Mismatch Int32) :=
  match rule, v with
  | .constants, .boolean b => some (.ok (if b then trueHash else falseHash))
  | .value, .byte n => some (.ok n.toInt32)
  | .value, .short n => some (.ok n.toInt32)
  | .value, .int n => some (.ok n)
  | .value, .char unit => some (.ok unit.toUInt32.toInt32)
  | .foldedLong, .long n => some (.ok (foldWord n))
  | .floatBits, .float bits => some (.ok (floatWord bits))
  | .foldedDouble, .double bits => some (.ok (foldWord (doubleWord bits)))
  | .items, .array none | .nestedItems, .array none => some (.ok 0)
  | .items, .array (some values) | .nestedItems, .array (some values) =>
    element?.map fun element => hashItems element hashSeed values
  | .objectOrNull, .reference text => some (.ok (text.elim 0 textHash))
  | _, _ => none

/-- No two kinds have one word. -/
theorem keyword_eq_name_iff {kind : Scalar} {found : ValueKind} :
    kind.keyword = found.name ↔ found = .scalar kind := by
  cases found with
  | scalar other => cases kind <;> cases other <;> decide
  | array => cases kind <;> decide
  | reference => cases kind <;> decide

theorem passes_iff {type : FieldType} {v : Value} : v.passes type = true ↔ v.kind = type.kind := by
  cases type with
  | scalar kind => simp [Value.passes, FieldType.kind, keyword_eq_name_iff]
  | array element => cases v <;> simp [Value.passes, FieldType.kind, Value.kind]
  | reference name arguments => cases v <;> simp [Value.passes, FieldType.kind, Value.kind]

/-- **The rule for a type has a case for every value of its kind**, which is what hashing
answers. -/
theorem part?_eq_some {type : FieldType} {v : Value} (h : v.passes type = true) :
    type.hashRule.part? type.element? v = some (hashOf type v) := by
  have hkind := passes_iff.1 h
  cases type with
  | scalar kind => cases v <;> cases hkind <;> rfl
  | array element =>
    obtain ⟨items, rfl⟩ := exists_array_of_kind hkind
    cases items <;> cases element <;> rfl
  | reference name arguments =>
    obtain ⟨text, rfl⟩ := exists_reference_of_kind hkind
    cases text <;> rfl

/-! ## Comparing by rules -/

/-- **What comparing two values by a rule answers**, in the place of an array with the given
elements or of another type. None if the rule has no case for the values. -/
def EqualityRule.answer? (rule : EqualityRule) (element? : Option FieldType) (a b : Value) :
    Option (Except Mismatch Bool) :=
  match rule, a, b with
  | .floatBits, .float a, .float b => some (.ok (floatWord a == floatWord b))
  | .doubleBits, .double a, .double b => some (.ok (doubleWord a == doubleWord b))
  | .value, .boolean a, .boolean b => some (.ok (a == b))
  | .value, .byte a, .byte b => some (.ok (a == b))
  | .value, .short a, .short b => some (.ok (a == b))
  | .value, .int a, .int b => some (.ok (a == b))
  | .value, .long a, .long b => some (.ok (a == b))
  | .value, .char a, .char b => some (.ok (a == b))
  | .items, .array as, .array bs | .nestedItems, .array as, .array bs =>
    match as, bs with
    | none, none => some (.ok true)
    | some as, some bs =>
      if as.length = bs.length then element?.map fun element => equalItems element as bs
      else some (.ok false)
    | _, _ => some (.ok false)
  | .objectOrNull, .reference a, .reference b => some (.ok (a == b))
  | _, _, _ => none

theorem answer?_array (element : FieldType) (as bs : Option (List Value)) :
    (FieldType.array element).equalityRule.answer? (FieldType.array element).element? (.array as)
      (.array bs) = some (equalOf (.array element) (.array as) (.array bs)) := by
  match as, bs with
  | none, none | none, some _ | some _, none => cases element <;> rfl
  | some as, some bs =>
    rw [equalOf]
    cases element <;> exact (apply_ite some _ _ _).symm

/-- **The rule for a type has a case for every two values of its kind**, which is what comparing
answers. -/
theorem answer?_eq_some {type : FieldType} {a b : Value} (ha : a.passes type = true)
    (hb : b.passes type = true) :
    type.equalityRule.answer? type.element? a b = some (equalOf type a b) := by
  have hakind := passes_iff.1 ha
  have hbkind := passes_iff.1 hb
  cases type with
  | scalar kind => cases a <;> cases hakind <;> cases b <;> cases hbkind <;> rfl
  | array element =>
    obtain ⟨as, rfl⟩ := exists_array_of_kind hakind
    obtain ⟨bs, rfl⟩ := exists_array_of_kind hbkind
    exact answer?_array element as bs
  | reference name arguments =>
    obtain ⟨x, rfl⟩ := exists_reference_of_kind hakind
    obtain ⟨y, rfl⟩ := exists_reference_of_kind hbkind
    rfl

/-- **Two values are compared by the rule for their type.** Before that the left one and then the
right one is refused if it is not of the right kind. -/
theorem equalOf_eq_ofRule (type : FieldType) (a b : Value) :
    some (equalOf type a b) =
      if a.passes type = false then some (.error ⟨type, a.kind⟩)
      else if b.passes type = false then some (.error ⟨type, b.kind⟩)
      else type.equalityRule.answer? type.element? a b := by
  by_cases ha : a.passes type = true
  · rw [if_neg (by simp [ha])]
    by_cases hb : b.passes type = true
    · rw [if_neg (by simp [hb]), answer?_eq_some ha hb]
    · rw [if_pos (by simpa using hb),
        equalOf_of_right_kind_ne (passes_iff.1 ha) (mt passes_iff.2 hb)]
  · rw [if_pos (by simpa using ha), equalOf_of_kind_ne (mt passes_iff.2 ha)]

/-! ## Failing -/

/-- **Hashing fails exactly if a value does not fit, and names the first misfit**, in depth and from
left to right, by the type of its place and the kind of its value. A value of the wrong kind is
refused at once, and for every other there is a case in the rule for its type. -/
theorem hash_fails_at_first_misfit :
    (∀ (type : FieldType) (v : Value),
      ((∃ part, hashOf type v = .ok part) ↔ v.fits type = true) ∧
      ∀ mismatch, hashOf type v = .error mismatch ↔
        ∃ place, v.firstMisfit? type = some place ∧ mismatch = ⟨place.1, place.2.kind⟩) ∧
    (∀ fields : Instance,
      ((∃ code, fields.hashCode = .ok code) ↔ ∀ field ∈ fields, field.2.fits field.1 = true) ∧
      ∀ mismatch, fields.hashCode = .error mismatch ↔
        ∃ place, fields.firstMisfit? = some place ∧ mismatch = ⟨place.1, place.2.kind⟩) ∧
    (∀ (type : FieldType) (v : Value), v.passes type = true →
      type.hashRule.part? type.element? v = some (hashOf type v)) ∧
    (∀ (type : FieldType) (v : Value), v.passes type = false →
      hashOf type v = .error ⟨type, v.kind⟩) ∧
    (∀ place : FieldType × Value, Mismatch.message ⟨place.1, place.2.kind⟩ =
      "value type mismatch: expected " ++ place.1.text ++ ", found " ++ place.2.kind.name) := by
  refine ⟨fun type v => ?_, fun fields => ?_, fun type v => part?_eq_some, fun type v h => ?_,
    fun place => rfl⟩
  · have hblames := blames_hashOf type v
    exact ⟨hblames.ok_iff.trans firstMisfit?_eq_none_iff, hblames.error_iff⟩
  · have hblames : Blames fields.hashCode fields.firstMisfit? :=
      blames_hashFields (fun field _ => blames_hashOf field.1 field.2) hashSeed
    exact ⟨hblames.ok_iff.trans Instance.firstMisfit?_eq_none_iff, hblames.error_iff⟩
  · have hkind : v.kind ≠ type.kind := fun hkind => by simp [passes_iff.2 hkind] at h
    exact hashOf_of_kind_ne hkind

/-- In depth the first misfit is a character among numbers, although an item after it is not even an
array. -/
theorem hash_fails_at_first_misfit_in_depth :
    let type : FieldType := .array (.array (.scalar .int))
    let grid : Value := .array (some [.array (some [.int 1]), .array none,
      .array (some [.int 2, .char 3, .long 4]), .reference none])
    let fields : Instance := [(.scalar .boolean, .boolean true), (type, grid), (type, .int 5)]
    grid.passes type = true ∧
      type.hashRule.part? type.element? grid = some (hashOf type grid) ∧
      hashOf type grid = .error ⟨.scalar .int, .scalar .char⟩ ∧
      fields.hashCode = .error ⟨.scalar .int, .scalar .char⟩ := by
  intro type grid fields
  obtain ⟨hvalues, hinstances, hrules, -⟩ := hash_fails_at_first_misfit
  exact ⟨rfl, hrules type grid rfl,
    ((hvalues type grid).2 _).2 ⟨(.scalar .int, .char 3), rfl, rfl⟩,
    ((hinstances fields).2 _).2 ⟨(.scalar .int, .char 3), rfl, rfl⟩⟩

end ValueClass
