import ValueClass.Instance.Equality
import ValueClass.Instance.Hash

/-!
# Equal instances have equal hash codes

Equality and hashing go through types and values separately. They agree all the same.

* `sameHash_of_equalOf`: two values of a type that are equal add the same to a hash code.
* `hashCode_eq_of_equals`: **equal instances have hash codes, and the same one**, whatever the
  types and the values are.
-/

namespace ValueClass

/-- Both results are hash codes, and the same one. -/
def SameHash (x y : Except Mismatch Int32) : Prop :=
  ∃ code, x = .ok code ∧ y = .ok code

/-- Items that are equal one by one continue a hash code in the same way. -/
theorem sameHash_of_equalItems {element : FieldType}
    (ih : ∀ a b, equalOf element a b = .ok true → SameHash (hashOf element a) (hashOf element b))
    {as bs : List Value} (hlen : as.length = bs.length)
    (h : equalItems element as bs = .ok true) (result : Int32) :
    SameHash (hashItems element result as) (hashItems element result bs) := by
  induction as generalizing bs result with
  | nil =>
    obtain rfl : bs = [] := List.length_eq_zero_iff.1 hlen.symm
    exact ⟨result, by simp [hashItems], by simp [hashItems]⟩
  | cons a as iha =>
    obtain ⟨b, bs, rfl⟩ := List.exists_cons_of_length_eq_add_one hlen.symm
    simp only [equalItems] at h
    split at h
    · rename_i hab
      obtain ⟨part, ha, hb⟩ := ih a b hab
      simp only [hashItems, ha, hb]
      exact iha (by simpa using hlen) h _
    · rename_i hab
      exact absurd h hab

/-- **Equal values of a type add the same to a hash code.** -/
theorem sameHash_of_equalOf (type : FieldType) :
    ∀ a b, equalOf type a b = .ok true → SameHash (hashOf type a) (hashOf type b) := by
  induction type using FieldType.elementInduction with
  | step type ih =>
    intro a b
    fun_cases equalOf type a b with
    | case1 a b | case2 a b | case3 a b | case4 a b | case5 a b | case6 a b =>
      intro h
      obtain rfl : a = b := by simpa using h
      exact ⟨_, rfl, rfl⟩
    | case7 a b | case8 a b =>
      -- both are hashed by the very word they are compared by
      intro h
      simp only [Except.ok.injEq, beq_iff_eq] at h
      simp only [hashOf, h]
      exact ⟨_, rfl, rfl⟩
    | case9 element => exact fun _ => ⟨0, rfl, rfl⟩
    | case12 element as bs hlen =>
      intro h
      simp only [hashOf]
      exact sameHash_of_equalItems (ih element rfl) hlen h hashSeed
    | case14 name arguments a b =>
      intro h
      obtain rfl : a = b := by simpa using h
      cases a with
      | none => exact ⟨0, rfl, rfl⟩
      | some text => exact ⟨textHash text, rfl, rfl⟩
    | case10 | case11 | case13 | case15 | case16 =>
      intro h
      cases h

theorem sameHash_of_equalFields {as bs : Instance} (htypes : as.map (·.1) = bs.map (·.1))
    (h : equalFields as bs = .ok true) (result : Int32) :
    SameHash (hashFields result as) (hashFields result bs) := by
  induction as generalizing bs result with
  | nil =>
    obtain rfl : bs = [] := by simpa using htypes.symm
    exact ⟨result, rfl, rfl⟩
  | cons field as ih =>
    obtain ⟨type, a⟩ := field
    cases bs with
    | nil => simp at htypes
    | cons field bs =>
      obtain ⟨other, b⟩ := field
      simp only [List.map_cons, List.cons.injEq] at htypes
      obtain ⟨rfl, htypes⟩ := htypes
      simp only [equalFields] at h
      split at h
      · rename_i hab
        obtain ⟨part, ha, hb⟩ := sameHash_of_equalOf type a b hab
        simp only [hashFields, ha, hb]
        exact ih htypes h _
      · rename_i hab
        exact absurd h hab

/-- **Equal instances have hash codes, and the same one.** -/
theorem hashCode_eq_of_equals {a b : Instance} (h : a.equals b = .ok true) :
    ∃ code, a.hashCode = .ok code ∧ b.hashCode = .ok code := by
  unfold Instance.equals at h
  split at h
  · rename_i htypes
    exact sameHash_of_equalFields htypes h hashSeed
  · cases h

/-- Two different NaNs, one of them within an array of arrays beside a null array. -/
theorem hashCode_eq_of_different_nans :
    let grid (bits : UInt64) := Value.array (some [.array (some [.double bits]), .array none])
    let point (bits : UInt64) (label : UInt32) : Instance :=
      [(.array (.array (.scalar .double)), grid bits), (.scalar .float, .float label)]
    let a := point 0x7ff0000000000001 0xffc00000
    let b := point 0xfff8000000000000 0x7f800001
    a.equals b = .ok true ∧ ∃ code, a.hashCode = .ok code ∧ b.hashCode = .ok code :=
  ⟨rfl, hashCode_eq_of_equals rfl⟩

end ValueClass
