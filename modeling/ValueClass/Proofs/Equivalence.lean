import ValueClass.Proofs.EqualHash

/-!
# Equality is an equivalence

Comparing two instances stops at the first fields that differ, and looks at the kind of the left
value before that of the right one. Whether it answers at all, and what, still does not depend on
which instance comes first, and an instance is compared with itself exactly as far as it is hashed.

* `equalOf_array`, `hashOf_array`: the items of an array are compared and hashed like the fields of
  an instance.
* `FieldType.Lawful`: what comparing the values of one type has to satisfy.
* `equals_self_of_lawful`, `equals_swap_of_lawful`, `equals_trans_of_lawful`: **instances inherit
  these laws from the types of their fields.**
* `lawful`: every type has them, since an array inherits them as an instance does.
* `equals_equivalence`: equality of instances is reflexive, symmetric and transitive, and it fails
  where hashing fails.
-/

namespace ValueClass

variable {type element : FieldType} {x y z : Value} {answer : Bool}

/-! ## Values of the wrong kind -/

theorem hashOf_of_kind_ne (h : x.kind ≠ type.kind) : hashOf type x = .error ⟨type, x.kind⟩ := by
  fun_cases hashOf type x with
  | case13 => rfl
  | _ => exact absurd rfl h

theorem equalOf_of_kind_ne (h : x.kind ≠ type.kind) : equalOf type x y = .error ⟨type, x.kind⟩ := by
  fun_cases equalOf type x y with
  | case15 => exact absurd ‹x.kind = type.kind› h
  | case16 => rfl
  | _ => exact absurd rfl h

theorem equalOf_of_right_kind_ne (h : x.kind = type.kind) (h' : y.kind ≠ type.kind) :
    equalOf type x y = .error ⟨type, y.kind⟩ := by
  fun_cases equalOf type x y with
  | case15 => rfl
  | case16 => exact absurd h ‹¬x.kind = type.kind›
  | _ => exact absurd rfl h'

/-- Comparing answers only for two values of the kind that the type asks for. -/
theorem kind_of_equalOf (h : equalOf type x y = .ok answer) :
    x.kind = type.kind ∧ y.kind = type.kind := by
  revert h
  fun_cases equalOf type x y with
  | case15 | case16 =>
    intro h
    cases h
  | _ => exact fun _ => ⟨rfl, rfl⟩

theorem exists_array_of_kind (h : x.kind = .array) : ∃ items, x = .array items := by
  cases x with
  | array items => exact ⟨items, rfl⟩
  | _ => cases h

theorem exists_reference_of_kind (h : x.kind = .reference) : ∃ text, x = .reference text := by
  cases x with
  | reference text => exact ⟨text, rfl⟩
  | _ => cases h

/-! ## Arrays as instances -/

/-- The items of an array, as fields that all have the type of the elements. -/
def itemFields (element : FieldType) (items : List Value) : Instance :=
  items.map (element, ·)

theorem map_fst_itemFields_eq_iff {as bs : List Value} :
    (itemFields element as).map (·.1) = (itemFields element bs).map (·.1) ↔
      as.length = bs.length := by
  simp [itemFields, Function.comp_def, List.map_const', List.replicate_inj]

theorem equalItems_eq (element : FieldType) (as bs : List Value) :
    equalItems element as bs = equalFields (itemFields element as) (itemFields element bs) := by
  induction as generalizing bs with
  | nil => cases bs <;> simp [equalItems, equalFields, itemFields]
  | cons a as ih =>
    cases bs with
    | nil => simp [equalItems, equalFields, itemFields]
    | cons b bs =>
      simp only [equalItems, itemFields, List.map_cons, equalFields]
      rw [ih bs]
      rfl

theorem hashItems_eq (element : FieldType) (result : Int32) (items : List Value) :
    hashItems element result items = hashFields result (itemFields element items) := by
  induction items generalizing result with
  | nil => simp [hashItems, hashFields, itemFields]
  | cons item rest ih =>
    simp only [hashItems, itemFields, List.map_cons, hashFields]
    cases hashOf element item with
    | error mismatch => rfl
    | ok part => exact ih (addPart result part)

/-- Two arrays are compared as instances are. -/
theorem equalOf_array (element : FieldType) (as bs : List Value) :
    equalOf (.array element) (.array (some as)) (.array (some bs)) =
      (itemFields element as).equals (itemFields element bs) := by
  rw [equalOf, Instance.equals, equalItems_eq]
  simp only [map_fst_itemFields_eq_iff]

/-- An array is hashed as an instance is. -/
theorem hashOf_array (element : FieldType) (items : List Value) :
    hashOf (.array element) (.array (some items)) = (itemFields element items).hashCode := by
  rw [hashOf, hashItems_eq, Instance.hashCode]

/-! ## The laws of one type -/

/-- **What comparing the values of a type has to satisfy.** -/
structure FieldType.Lawful (type : FieldType) : Prop where
  /-- A value is equal to itself, or is refused as hashing refuses it. -/
  self : ∀ x, equalOf type x x = (hashOf type x).map fun _ => true
  swap : ∀ {x y answer}, equalOf type x y = .ok answer → equalOf type y x = .ok answer
  trans : ∀ {x y z}, equalOf type x y = .ok true → equalOf type y z = .ok true →
    equalOf type x z = .ok true

/-! ## Instances of lawful types -/

/-- Comparing goes on after a field exactly if it is equal in both. -/
theorem equalFields_cons_eq_ok_iff {as bs : Instance} :
    equalFields ((type, x) :: as) ((element, y) :: bs) = .ok answer ↔
      equalOf type x y = .ok true ∧ equalFields as bs = .ok answer ∨
        equalOf type x y = .ok false ∧ answer = false := by
  rw [equalFields]
  cases hxy : equalOf type x y with
  | error mismatch => simp
  | ok same =>
    cases same with
    | false => simp [eq_comm]
    | true => simp

/-- A field of the first instance with the field of the second one in the same place. -/
theorem exists_cons_of_map_fst {as bs : Instance} {x : Value}
    (h : ((type, x) :: as).map (·.1) = bs.map (·.1)) :
    ∃ y rest, bs = (type, y) :: rest ∧ as.map (·.1) = rest.map (·.1) := by
  cases bs with
  | nil => cases h
  | cons field rest =>
    obtain ⟨other, y⟩ := field
    obtain ⟨htype, hrest⟩ := List.cons.inj h
    exact ⟨y, rest, by rw [show type = other from htype], hrest⟩

section Instances

variable {a b c : Instance} (hlawful : ∀ field ∈ a, field.1.Lawful)

include hlawful

theorem equalFields_self (result : Int32) :
    equalFields a a = (hashFields result a).map fun _ => true := by
  induction a generalizing result with
  | nil => rfl
  | cons field rest ih =>
    obtain ⟨type, x⟩ := field
    obtain ⟨htype, hrest⟩ := List.forall_mem_cons.1 hlawful
    rw [equalFields, htype.self x, hashFields]
    cases hashOf type x with
    | error mismatch => rfl
    | ok part => exact ih hrest (addPart result part)

theorem equalFields_swap (htypes : a.map (·.1) = b.map (·.1))
    (h : equalFields a b = .ok answer) : equalFields b a = .ok answer := by
  induction a generalizing b with
  | nil =>
    obtain rfl : b = [] := by simpa using htypes.symm
    exact h
  | cons field rest ih =>
    obtain ⟨type, x⟩ := field
    obtain ⟨htype, hrest⟩ := List.forall_mem_cons.1 hlawful
    obtain ⟨y, others, rfl, hothers⟩ := exists_cons_of_map_fst htypes
    rw [equalFields_cons_eq_ok_iff] at h ⊢
    rcases h with ⟨hsame, hnext⟩ | ⟨hdiffer, hanswer⟩
    · exact .inl ⟨htype.swap hsame, ih hrest hothers hnext⟩
    · exact .inr ⟨htype.swap hdiffer, hanswer⟩

theorem equalFields_trans (hab : a.map (·.1) = b.map (·.1)) (hbc : b.map (·.1) = c.map (·.1))
    (h : equalFields a b = .ok true) (h' : equalFields b c = .ok true) :
    equalFields a c = .ok true := by
  induction a generalizing b c with
  | nil =>
    obtain rfl : c = [] := by simpa using (hab.trans hbc).symm
    rfl
  | cons field rest ih =>
    obtain ⟨type, x⟩ := field
    obtain ⟨htype, hrest⟩ := List.forall_mem_cons.1 hlawful
    obtain ⟨y, bs, rfl, hbs⟩ := exists_cons_of_map_fst hab
    obtain ⟨z, cs, rfl, hcs⟩ := exists_cons_of_map_fst hbc
    simp only [equalFields_cons_eq_ok_iff, Bool.true_eq_false, and_false, or_false] at h h' ⊢
    exact ⟨htype.trans h.1 h'.1, ih hrest hbs hcs h.2 h'.2⟩

/-- An instance is equal to itself, or is refused as hashing refuses it. -/
theorem equals_self_of_lawful : a.equals a = a.hashCode.map fun _ => true := by
  rw [Instance.equals, if_pos rfl, Instance.hashCode]
  exact equalFields_self hlawful hashSeed

theorem equals_swap_of_lawful (h : a.equals b = .ok answer) : b.equals a = .ok answer := by
  unfold Instance.equals at h ⊢
  by_cases htypes : a.map (·.1) = b.map (·.1)
  · rw [if_pos htypes] at h
    rw [if_pos htypes.symm]
    exact equalFields_swap hlawful htypes h
  · rw [if_neg htypes] at h
    rw [if_neg (Ne.symm htypes)]
    exact h

theorem equals_trans_of_lawful (hab : a.equals b = .ok true) (hbc : b.equals c = .ok true) :
    a.equals c = .ok true := by
  unfold Instance.equals at hab hbc ⊢
  split at hab
  · split at hbc
    · rename_i hfirst hsecond
      rw [if_pos (hfirst.trans hsecond)]
      exact equalFields_trans hlawful hfirst hsecond hab hbc
    · cases hbc
  · cases hab

end Instances

/-! ## Every type is lawful -/

/-- Values of another kind are refused in the same way by comparing and by hashing. -/
theorem self_of_kind
    (h : x.kind = type.kind → equalOf type x x = (hashOf type x).map fun _ => true) :
    equalOf type x x = (hashOf type x).map fun _ => true := by
  by_cases hkind : x.kind = type.kind
  · exact h hkind
  · rw [equalOf_of_kind_ne hkind, hashOf_of_kind_ne hkind]
    rfl

theorem lawful_scalar (kind : Scalar) : (FieldType.scalar kind).Lawful where
  self x := by
    refine self_of_kind fun hx => ?_
    cases x <;> cases hx <;> simp [equalOf, hashOf, Except.map]
  swap {x y answer} h := by
    obtain ⟨hx, hy⟩ := kind_of_equalOf h
    cases x <;> cases hx <;> cases y <;> cases hy <;> rw [← h] <;> simp [equalOf, Bool.beq_comm]
  trans {x y z} hxy hyz := by
    obtain ⟨hx, hy⟩ := kind_of_equalOf hxy
    obtain ⟨-, hz⟩ := kind_of_equalOf hyz
    cases x <;> cases hx <;> cases y <;> cases hy <;> cases z <;> cases hz <;>
      simp_all [equalOf]

theorem lawful_reference (name : String) (arguments : List FieldType) :
    (FieldType.reference name arguments).Lawful where
  self x := by
    refine self_of_kind fun hx => ?_
    obtain ⟨text, rfl⟩ := exists_reference_of_kind hx
    cases text <;> simp [equalOf, hashOf, Except.map]
  swap {x y answer} h := by
    obtain ⟨hx, hy⟩ := kind_of_equalOf h
    obtain ⟨left, rfl⟩ := exists_reference_of_kind hx
    obtain ⟨right, rfl⟩ := exists_reference_of_kind hy
    rw [← h]
    simp [equalOf, Bool.beq_comm]
  trans {x y z} hxy hyz := by
    obtain ⟨hx, hy⟩ := kind_of_equalOf hxy
    obtain ⟨-, hz⟩ := kind_of_equalOf hyz
    obtain ⟨first, rfl⟩ := exists_reference_of_kind hx
    obtain ⟨second, rfl⟩ := exists_reference_of_kind hy
    obtain ⟨third, rfl⟩ := exists_reference_of_kind hz
    simp_all [equalOf]

/-- **An array inherits the laws from its elements**, as an instance does from its fields. -/
theorem lawful_array (h : element.Lawful) : (FieldType.array element).Lawful := by
  have hitems : ∀ items, ∀ field ∈ itemFields element items, field.1.Lawful := by
    intro items field hfield
    obtain ⟨item, -, rfl⟩ := List.mem_map.1 hfield
    exact h
  refine ⟨fun x => self_of_kind fun hx => ?_, fun {x y answer} hxy => ?_,
    fun {x y z} hxy hyz => ?_⟩
  · obtain ⟨items, rfl⟩ := exists_array_of_kind hx
    cases items with
    | none => rfl
    | some items =>
      rw [equalOf_array, hashOf_array]
      exact equals_self_of_lawful (hitems items)
  · obtain ⟨hx, hy⟩ := kind_of_equalOf hxy
    obtain ⟨as, rfl⟩ := exists_array_of_kind hx
    obtain ⟨bs, rfl⟩ := exists_array_of_kind hy
    match as, bs with
    | none, none | none, some _ | some _, none => exact hxy
    | some as, some bs =>
      rw [equalOf_array] at hxy ⊢
      exact equals_swap_of_lawful (hitems as) hxy
  · obtain ⟨hx, hy⟩ := kind_of_equalOf hxy
    obtain ⟨-, hz⟩ := kind_of_equalOf hyz
    obtain ⟨as, rfl⟩ := exists_array_of_kind hx
    obtain ⟨bs, rfl⟩ := exists_array_of_kind hy
    obtain ⟨cs, rfl⟩ := exists_array_of_kind hz
    -- null is equal to null alone, so all three are null or none is
    match as, bs, cs with
    | none, none, _ => exact hyz
    | none, some _, _ | some _, none, _ => cases hxy
    | some _, some _, none => cases hyz
    | some as, some bs, some cs =>
      rw [equalOf_array] at hxy hyz ⊢
      exact equals_trans_of_lawful (hitems as) hxy hyz

theorem lawful (type : FieldType) : type.Lawful := by
  induction type using FieldType.elementInduction with
  | step type ih =>
    cases type with
    | scalar kind => exact lawful_scalar kind
    | array element => exact lawful_array (ih element rfl)
    | reference name arguments => exact lawful_reference name arguments

/-- **Equality of instances is an equivalence**, whatever the types and the values are. Comparing an
instance with itself fails exactly as hashing it fails, and comparing two fails in one order if it
does in the other. -/
theorem equals_equivalence (a b c : Instance) :
    (∀ code, a.hashCode = .ok code → a.equals a = .ok true) ∧
      (∀ mismatch, a.hashCode = .error mismatch → a.equals a = .error mismatch) ∧
      (∀ answer, a.equals b = .ok answer ↔ b.equals a = .ok answer) ∧
      ((∃ mismatch, a.equals b = .error mismatch) ↔ ∃ mismatch, b.equals a = .error mismatch) ∧
      (a.equals b = .ok true → b.equals c = .ok true → a.equals c = .ok true) := by
  have hlawful : ∀ (i : Instance), ∀ field ∈ i, field.1.Lawful := fun _ field _ => lawful field.1
  have hself := equals_self_of_lawful (hlawful a)
  have hswap : ∀ answer, a.equals b = .ok answer ↔ b.equals a = .ok answer := fun answer =>
    ⟨equals_swap_of_lawful (hlawful a), equals_swap_of_lawful (hlawful b)⟩
  refine ⟨fun code hcode => ?_, fun mismatch hmismatch => ?_, hswap, ?_,
    equals_trans_of_lawful (hlawful a)⟩
  · rw [hself, hcode]
    rfl
  · rw [hself, hmismatch]
    rfl
  · cases hab : a.equals b with
    | ok answer => simp [(hswap answer).1 hab]
    | error mismatch =>
      cases hba : b.equals a with
      | ok answer => cases hab.symm.trans ((hswap answer).2 hba)
      | error other => simp

/-- Three different NaNs in arrays, and an array in which the second item is of the wrong kind. -/
theorem equals_equivalence_nans_and_misfit :
    let row (bits : UInt32) : Instance :=
      [(.array (.scalar .float), .array (some [.float 0x80000000, .float bits]))]
    let misfit : Instance :=
      [(.reference "Text" [], .reference none),
        (.array (.scalar .int), .array (some [.int 7, .boolean true, .char 7]))]
    (row 0x7f800001).equals (row 0xffc00000) = .ok true ∧
      (row 0xffc00000).equals (row 0x7fc00000) = .ok true ∧
      (row 0x7f800001).equals (row 0x7fc00000) = .ok true ∧
      misfit.hashCode = .error ⟨.scalar .int, .scalar .boolean⟩ ∧
      misfit.equals misfit = .error ⟨.scalar .int, .scalar .boolean⟩ := by
  intro row misfit
  obtain ⟨-, -, -, -, htrans⟩ :=
    equals_equivalence (row 0x7f800001) (row 0xffc00000) (row 0x7fc00000)
  obtain ⟨-, hself, -⟩ := equals_equivalence misfit misfit misfit
  have hhash : misfit.hashCode = .error ⟨.scalar .int, .scalar .boolean⟩ := rfl
  exact ⟨rfl, rfl, htrans rfl rfl, hhash, hself _ hhash⟩

end ValueClass
