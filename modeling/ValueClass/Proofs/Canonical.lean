import Mathlib.Algebra.Ring.Nat
import ValueClass.Proofs.Equivalence
import ValueClass.Proofs.Fit

/-!
# Equal instances are the same but for NaNs

Floating point numbers are kept as bit patterns, of which many are NaNs. With one NaN in place of
all of them, two instances are equal exactly if they are the same, types included.

* `IsNaN`: a bit pattern that stands for no number, by its exponent and its fraction.
* `Value.canonical`: a value with one NaN in place of every NaN, down to any depth.
* `FieldType.Decided`: comparing values of a type decides whether they are canonically the same.
* `equals_of_decided`: **an instance inherits this from the types of its fields**, and an array from
  the type of its elements.
* `equals_iff_canonical`: equality of instances whose values fit is sameness of canonical values.
-/

namespace ValueClass

/-! ## Bit patterns of NaNs -/

/-- Whether a bit pattern is a NaN: its exponent is all ones and its fraction is not zero. The two
fields have the given numbers of bits, the fraction being the lower one. -/
def IsNaN (exponent fraction word : Nat) : Prop :=
  word / 2 ^ fraction % 2 ^ exponent = 2 ^ exponent - 1 ∧ word % 2 ^ fraction ≠ 0

instance (exponent fraction word : Nat) : Decidable (IsNaN exponent fraction word) :=
  inferInstanceAs (Decidable (_ ∧ _))

/-- Without its sign, a NaN is above the pattern of infinity, which has no fraction. -/
theorem isNaN_iff_lt (exponent fraction word : Nat) :
    IsNaN exponent fraction word ↔
      (2 ^ exponent - 1) * 2 ^ fraction < word % 2 ^ (fraction + exponent) := by
  have hsplit : word % 2 ^ (fraction + exponent) =
      word % 2 ^ fraction + 2 ^ fraction * (word / 2 ^ fraction % 2 ^ exponent) := by
    rw [Nat.pow_add, Nat.mod_mul]
  have hlow : word % 2 ^ fraction < 2 ^ fraction := Nat.mod_lt _ (Nat.two_pow_pos _)
  have hhigh : word / 2 ^ fraction % 2 ^ exponent < 2 ^ exponent :=
    Nat.mod_lt _ (Nat.two_pow_pos _)
  rw [IsNaN, hsplit]
  generalize word / 2 ^ fraction % 2 ^ exponent = high at hhigh ⊢
  generalize word % 2 ^ fraction = low at hlow ⊢
  rw [Nat.mul_comm (2 ^ exponent - 1)]
  constructor
  · rintro ⟨rfl, hne⟩
    omega
  · intro h
    -- a smaller exponent leaves no room for the fraction to make up for it
    have hmax : ¬high + 1 ≤ 2 ^ exponent - 1 := by
      intro hlt
      have hle := Nat.mul_le_mul_left (2 ^ fraction) hlt
      rw [Nat.mul_succ] at hle
      omega
    obtain rfl : high = 2 ^ exponent - 1 := by omega
    exact ⟨rfl, by omega⟩

theorem isFloatNaN_iff (bits : UInt32) : isFloatNaN bits = true ↔ IsNaN 8 23 bits.toNat := by
  have hmask : bits.toNat &&& 2147483647 = bits.toNat % 2 ^ (23 + 8) :=
    Nat.and_two_pow_sub_one_eq_mod bits.toNat 31
  have hinfinity : (2 ^ 8 - 1) * 2 ^ 23 = 2139095040 := by decide
  rw [isNaN_iff_lt, isFloatNaN, decide_eq_true_iff, gt_iff_lt, UInt32.lt_iff_toNat_lt,
    UInt32.toNat_and]
  change 2139095040 < bits.toNat &&& 2147483647 ↔ _
  rw [hmask, hinfinity]

theorem isDoubleNaN_iff (bits : UInt64) : isDoubleNaN bits = true ↔ IsNaN 11 52 bits.toNat := by
  have hmask : bits.toNat &&& 9223372036854775807 = bits.toNat % 2 ^ (52 + 11) :=
    Nat.and_two_pow_sub_one_eq_mod bits.toNat 63
  have hinfinity : (2 ^ 11 - 1) * 2 ^ 52 = 9218868437227405312 := by decide
  rw [isNaN_iff_lt, isDoubleNaN, decide_eq_true_iff, gt_iff_lt, UInt64.lt_iff_toNat_lt,
    UInt64.toNat_and]
  change 9218868437227405312 < bits.toNat &&& 9223372036854775807 ↔ _
  rw [hmask, hinfinity]

/-! ## Canonical values -/

/-- The bit pattern of single precision with the canonical NaN in place of any other. -/
def canonicalFloat (bits : UInt32) : UInt32 :=
  if IsNaN 8 23 bits.toNat then 0x7fc00000 else bits

/-- The bit pattern of double precision with the canonical NaN in place of any other. -/
def canonicalDouble (bits : UInt64) : UInt64 :=
  if IsNaN 11 52 bits.toNat then 0x7ff8000000000000 else bits

mutual

/-- **A value with one NaN in place of every NaN**, also in the arrays in it. -/
def Value.canonical : Value → Value
  | .float bits => .float (canonicalFloat bits)
  | .double bits => .double (canonicalDouble bits)
  | .array (some items) => .array (some (Value.canonicalAll items))
  | v => v

/-- Values with one NaN in place of every NaN. -/
def Value.canonicalAll : List Value → List Value
  | [] => []
  | v :: rest => v.canonical :: Value.canonicalAll rest

end

theorem canonicalAll_eq_map (items : List Value) :
    Value.canonicalAll items = items.map Value.canonical := by
  induction items with
  | nil => rfl
  | cons item rest ih => rw [Value.canonicalAll, ih, List.map_cons]

/-- Numbers of single precision have the same word exactly if they are canonically the same. -/
theorem floatWord_eq_iff (a b : UInt32) :
    floatWord a = floatWord b ↔ canonicalFloat a = canonicalFloat b := by
  have hword : ∀ bits : UInt32, floatWord bits = (canonicalFloat bits).toInt32 := by
    intro bits
    simp only [floatWord, canonicalFloat, isFloatNaN_iff]
    split <;> rfl
  rw [hword, hword]
  refine ⟨fun h => ?_, congrArg UInt32.toInt32⟩
  rw [← UInt32.toUInt32_toInt32 (canonicalFloat a), h, UInt32.toUInt32_toInt32]

theorem doubleWord_eq_iff (a b : UInt64) :
    doubleWord a = doubleWord b ↔ canonicalDouble a = canonicalDouble b := by
  have hword : ∀ bits : UInt64, doubleWord bits = (canonicalDouble bits).toInt64 := by
    intro bits
    simp only [doubleWord, canonicalDouble, isDoubleNaN_iff]
    split <;> rfl
  rw [hword, hword]
  refine ⟨fun h => ?_, congrArg UInt64.toInt64⟩
  rw [← UInt64.toUInt64_toInt64 (canonicalDouble a), h, UInt64.toUInt64_toInt64]

/-! ## What comparing decides -/

/-- Comparing two values of a type that fit it answers whether they are canonically the same. -/
def FieldType.Decided (type : FieldType) : Prop :=
  ∀ x y : Value, x.fits type → y.fits type →
    ∃ answer, equalOf type x y = .ok answer ∧ (answer = true ↔ x.canonical = y.canonical)

/-- Whether every value of an instance fits its type. -/
def Instance.Fits (fields : Instance) : Prop :=
  ∀ field ∈ fields, field.2.fits field.1

section Instances

variable {a b : Instance} (hdecided : ∀ field ∈ a, field.1.Decided) (ha : a.Fits) (hb : b.Fits)

include hdecided ha hb

theorem equalFields_of_decided (htypes : a.map (·.1) = b.map (·.1)) :
    ∃ answer, equalFields a b = .ok answer ∧
      (answer = true ↔ a.map (·.2.canonical) = b.map (·.2.canonical)) := by
  induction a generalizing b with
  | nil =>
    obtain rfl : b = [] := by simpa using htypes.symm
    exact ⟨true, rfl, by simp⟩
  | cons field rest ih =>
    obtain ⟨type, x⟩ := field
    obtain ⟨htype, hrest⟩ := List.forall_mem_cons.1 hdecided
    obtain ⟨hx, hxs⟩ := List.forall_mem_cons.1 ha
    obtain ⟨y, others, rfl, hothers⟩ := exists_cons_of_map_fst htypes
    obtain ⟨hy, hys⟩ := List.forall_mem_cons.1 hb
    obtain ⟨same, hsame, hfirst⟩ := htype x y hx hy
    obtain ⟨answer, hanswer, hnext⟩ := ih hrest hxs hys hothers
    simp only [List.map_cons, List.cons.injEq]
    cases same with
    | false =>
      -- comparing stops here, and so does the sameness
      refine ⟨false, equalFields_cons_eq_ok_iff.2 (.inr ⟨hsame, rfl⟩), ?_⟩
      rw [← hfirst]
      simp
    | true =>
      refine ⟨answer, equalFields_cons_eq_ok_iff.2 (.inl ⟨hsame, hanswer⟩), ?_⟩
      rw [← hfirst, hnext]
      simp

/-- **Comparing instances decides whether they have the same types and canonically the same
values**, if comparing values of their types does. -/
theorem equals_of_decided :
    ∃ answer, a.equals b = .ok answer ∧
      (answer = true ↔ a.map (·.1) = b.map (·.1) ∧
        a.map (·.2.canonical) = b.map (·.2.canonical)) := by
  unfold Instance.equals
  by_cases htypes : a.map (·.1) = b.map (·.1)
  · obtain ⟨answer, hanswer, hiff⟩ := equalFields_of_decided hdecided ha hb htypes
    exact ⟨answer, by rw [if_pos htypes, hanswer], by simp [hiff, htypes]⟩
  · exact ⟨false, if_neg htypes, by simp [htypes]⟩

end Instances

/-! ## Every type is decided -/

theorem decided_scalar (kind : Scalar) : (FieldType.scalar kind).Decided := by
  intro x y hx hy
  have hxkind := fits_scalar hx
  have hykind := fits_scalar hy
  cases x <;> cases hxkind <;> cases y <;> cases hykind <;>
    exact ⟨_, rfl, by simp [Value.canonical, floatWord_eq_iff, doubleWord_eq_iff]⟩

theorem decided_reference (name : String) (arguments : List FieldType) :
    (FieldType.reference name arguments).Decided := by
  intro x y hx hy
  obtain ⟨left, rfl⟩ := fits_reference hx
  obtain ⟨right, rfl⟩ := fits_reference hy
  exact ⟨left == right, rfl, by simp [Value.canonical]⟩

theorem fits_itemFields {element : FieldType} {items : List Value}
    (h : ∀ item ∈ items, item.fits element) : (itemFields element items).Fits := by
  intro field hfield
  obtain ⟨item, hitem, rfl⟩ := List.mem_map.1 hfield
  exact h item hitem

/-- An array is compared as the instance that its items make up. -/
theorem decided_array {element : FieldType} (h : element.Decided) :
    (FieldType.array element).Decided := by
  intro x y hx hy
  have hitems : ∀ items, ∀ field ∈ itemFields element items, field.1.Decided := by
    intro items field hfield
    obtain ⟨item, -, rfl⟩ := List.mem_map.1 hfield
    exact h
  rcases fits_array hx with rfl | ⟨xs, rfl, hxs⟩ <;> rcases fits_array hy with rfl | ⟨ys, rfl, hys⟩
  · exact ⟨true, rfl, by simp⟩
  · exact ⟨false, rfl, by simp [Value.canonical]⟩
  · exact ⟨false, rfl, by simp [Value.canonical]⟩
  obtain ⟨answer, hanswer, hiff⟩ :=
    equals_of_decided (hitems xs) (fits_itemFields hxs) (fits_itemFields hys)
  refine ⟨answer, by rw [equalOf_array, hanswer], hiff.trans ?_⟩
  have hvalues : ∀ items, (itemFields element items).map (·.2.canonical)
      = items.map Value.canonical := by
    intro items
    simp [itemFields, Function.comp_def]
  simp only [Value.canonical, Value.array.injEq, Option.some.injEq, canonicalAll_eq_map]
  rw [hvalues, hvalues, map_fst_itemFields_eq_iff]
  -- arrays with the same items have the same length
  exact and_iff_right_of_imp fun hsame => by simpa using congrArg List.length hsame

theorem decided (type : FieldType) : type.Decided := by
  induction type using FieldType.elementInduction with
  | step type ih =>
    cases type with
    | scalar kind => exact decided_scalar kind
    | array element => exact decided_array (ih element rfl)
    | reference name arguments => exact decided_reference name arguments

/-- **Equality of instances decides whether they are the same but for NaNs.** If all values fit
their types, comparing two instances answers, and the answer is yes exactly if they have the same
types and, place by place, the same values once every NaN is the canonical one. -/
theorem equals_iff_canonical {a b : Instance} (ha : a.Fits) (hb : b.Fits) :
    ∃ answer, a.equals b = .ok answer ∧
      (answer = true ↔ a.map (·.1) = b.map (·.1) ∧
        a.map (·.2.canonical) = b.map (·.2.canonical)) :=
  equals_of_decided (fun field _ => decided field.1) ha hb

/-- Two NaNs within arrays are the same number, and the two zeros are not. -/
theorem equals_iff_canonical_nans_and_zeros :
    let row (bits : UInt32) (last : Value) : Instance :=
      [(.array (.array (.scalar .float)), .array (some [.array (some [.float bits]), .array none])),
        (.scalar .double, last)]
    (row 0x7f800001 (.double 0xfff8000000000000)).equals
        (row 0xffc00000 (.double 0x7ff0000000000001)) = .ok true ∧
      (row 0x7f800001 (.double 0)).equals (row 0xffc00000 (.double 0x8000000000000000))
        = .ok false := by
  intro row
  have hfits : ∀ (bits : UInt32) (last : UInt64), (row bits (.double last)).Fits := by
    intro bits last
    simp [row, Instance.Fits, Value.fits, Value.kind]
  obtain ⟨same, hsame, hiff⟩ :=
    equals_iff_canonical (hfits 0x7f800001 0xfff8000000000000) (hfits 0xffc00000 0x7ff0000000000001)
  obtain ⟨other, hother, hdiffer⟩ :=
    equals_iff_canonical (hfits 0x7f800001 0) (hfits 0xffc00000 0x8000000000000000)
  have hyes : same = true := hiff.2 ⟨rfl, rfl⟩
  have hno : other = false := by
    rw [← Bool.not_eq_true, hdiffer]
    rintro ⟨-, hvalues⟩
    simp [row, Value.canonical, canonicalDouble, IsNaN] at hvalues
  rw [hsame, hother, hyes, hno]
  exact ⟨rfl, rfl⟩

end ValueClass
