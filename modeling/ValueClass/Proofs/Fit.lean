import ValueClass.Instance.Equality
import ValueClass.Instance.Hash

/-!
# Values that fit their types, and the methods of arrays

A value fits a type if it is of the type's kind, and so are the items of an array, down to any
depth. The library has methods that hash and compare arrays by looking at the values alone, shallow
ones and deep ones. On values that fit, they agree with hashing and equality by the type.

* `Value.arrayHash` and `Value.arrayEquals`: the methods of arrays. They say nothing where the
  answer depends on which object an array is.
* `arrayHash_of_fits`, `arrayEquals_of_fits`: **arrays of arrays need the deep method, and the
  shallow one does for all others.**
-/

namespace ValueClass

/-- **Whether a value fits a type**, with all that is in it. -/
def Value.fits : FieldType → Value → Bool
  | .scalar kind, v => v.kind == .scalar kind
  | .array _, .array none => true
  | .array element, .array (some items) => items.all fun item => item.fits element
  | .reference _ _, .reference _ => true
  | _, _ => false

/-- Whether a value is an object rather than a scalar. -/
def Value.isObject : Value → Bool
  | .array _ | .reference _ => true
  | _ => false

mutual

/-- What an item adds to the hash code of an array. The deep method goes into the items that are
arrays. For the shallow one an array is an object like any other, and its hash code is not known. -/
def Value.itemHash (deep : Bool) : Value → Option Int32
  | .boolean b => some (if b then 1231 else 1237)
  | .byte n => some n.toInt32
  | .short n => some n.toInt32
  | .int n => some n
  | .long n => some (foldWord n)
  | .char unit => some unit.toUInt32.toInt32
  | .float bits => some (floatWord bits)
  | .double bits => some (foldWord (doubleWord bits))
  | .array none => some 0
  | .array (some items) => if deep then itemsHash deep 1 items else none
  | .reference none => some 0
  | .reference (some text) => some (textHash text)

/-- The hash code of the items before, continued with more items. -/
def itemsHash (deep : Bool) (result : Int32) : List Value → Option Int32
  | [] => some result
  | item :: rest =>
    match item.itemHash deep with
    | some part => itemsHash deep (31 * result + part) rest
    | none => none

end

/-- **The hash code of an array.** The deep method takes arrays of objects only. -/
def Value.arrayHash (deep : Bool) : Value → Option Int32
  | .array none => some 0
  | .array (some items) =>
    if deep && !items.all Value.isObject then none else itemsHash deep 1 items
  | _ => none

mutual

/-- Whether two items of arrays are equal. For the shallow method two arrays are equal if they are
one object, which is not known. -/
def Value.itemEquals (deep : Bool) : Value → Value → Option Bool
  | .boolean a, .boolean b => some (a == b)
  | .byte a, .byte b => some (a == b)
  | .short a, .short b => some (a == b)
  | .int a, .int b => some (a == b)
  | .long a, .long b => some (a == b)
  | .char a, .char b => some (a == b)
  | .float a, .float b => some (floatWord a == floatWord b)
  | .double a, .double b => some (doubleWord a == doubleWord b)
  | .array none, .array none => some true
  | .array none, .array (some _) => some false
  | .array (some _), .array none => some false
  | .array (some as), .array (some bs) =>
    if deep then if as.length = bs.length then itemsEqual deep as bs else some false else none
  | .reference a, .reference b => some (a == b)
  | _, _ => none

/-- Whether items are equal one by one, up to the first that differ. -/
def itemsEqual (deep : Bool) : List Value → List Value → Option Bool
  | a :: as, b :: bs =>
    match a.itemEquals deep b with
    | some true => itemsEqual deep as bs
    | answer => answer
  | _, _ => some true

end

/-- **Whether two arrays are equal.** The deep method takes arrays of objects only. -/
def Value.arrayEquals (deep : Bool) : Value → Value → Option Bool
  | .array none, .array none => some true
  | .array none, .array (some _) => some false
  | .array (some _), .array none => some false
  | .array (some as), .array (some bs) =>
    if deep && !(as ++ bs).all Value.isObject then none
    else if as.length = bs.length then itemsEqual deep as bs else some false
  | _, _ => none

/-! ## What fits -/

theorem fits_scalar {kind : Scalar} {v : Value} (h : v.fits (.scalar kind)) :
    v.kind = .scalar kind := by
  simpa [Value.fits] using h

theorem fits_float {v : Value} (h : v.fits (.scalar .float)) : ∃ bits, v = .float bits := by
  have hkind := fits_scalar h
  cases v <;> cases hkind
  exact ⟨_, rfl⟩

theorem fits_double {v : Value} (h : v.fits (.scalar .double)) : ∃ bits, v = .double bits := by
  have hkind := fits_scalar h
  cases v <;> cases hkind
  exact ⟨_, rfl⟩

/-- A value of an array type is null or has items that fit. -/
theorem fits_array {element : FieldType} {v : Value} (h : v.fits (.array element)) :
    v = .array none ∨ ∃ items, v = .array (some items) ∧ ∀ item ∈ items, item.fits element := by
  cases v with
  | array items =>
    cases items with
    | none => exact Or.inl rfl
    | some items => exact Or.inr ⟨items, rfl, by simpa [Value.fits] using h⟩
  | _ => simp [Value.fits] at h

theorem fits_reference {name : String} {arguments : List FieldType} {v : Value}
    (h : v.fits (.reference name arguments)) : ∃ text, v = .reference text := by
  cases v with
  | reference text => exact ⟨text, rfl⟩
  | _ => simp [Value.fits] at h

/-- The method that suits a type is the deep one, or the items are no arrays. -/
theorem isNestedArray_or_element? (element : FieldType) :
    (FieldType.array element).isNestedArray = true ∨ element.element? = none := by
  cases element <;> simp [FieldType.isNestedArray, FieldType.element?]

/-- Where the deep method suits the type, the items are objects. -/
theorem isObject_of_fits {element : FieldType} {items : List Value}
    (h : ∀ item ∈ items, item.fits element) :
    ((FieldType.array element).isNestedArray && !items.all Value.isObject) = false := by
  cases element with
  | array inner =>
    have hall : items.all Value.isObject = true := by
      rw [List.all_eq_true]
      intro item hitem
      rcases fits_array (h item hitem) with rfl | ⟨_, rfl, -⟩ <;> rfl
    simp [hall]
  | _ => simp [FieldType.isNestedArray]

/-! ## Hashing -/

theorem itemsHash_of_items {element : FieldType} {deep : Bool} {items : List Value}
    (h : ∀ item ∈ items, ∃ part, hashOf element item = .ok part ∧ item.itemHash deep = some part)
    (result : Int32) :
    ∃ code, hashItems element result items = .ok code ∧
      itemsHash deep result items = some code := by
  induction items generalizing result with
  | nil => exact ⟨result, by simp [hashItems], by simp [itemsHash]⟩
  | cons item rest ih =>
    obtain ⟨part, hpart, hpart'⟩ := h item List.mem_cons_self
    obtain ⟨code, hcode, hcode'⟩ :=
      ih (fun other hother => h other (List.mem_cons_of_mem _ hother)) (addPart result part)
    refine ⟨code, ?_, ?_⟩
    · rw [hashItems, hpart]
      exact hcode
    · rw [itemsHash, hpart']
      exact hcode'

/-- An item that fits is hashed as its type says, if it is not an array or the method is deep. -/
theorem itemHash_of_fits (type : FieldType) :
    ∀ (v : Value) (deep : Bool), v.fits type → deep = true ∨ type.element? = none →
      ∃ part, hashOf type v = .ok part ∧ v.itemHash deep = some part := by
  induction type using FieldType.elementInduction with
  | step type ih =>
    intro v deep hv hdeep
    cases type with
    | scalar kind =>
      have hkind := fits_scalar hv
      cases v <;> cases hkind <;> exact ⟨_, rfl, rfl⟩
    | array element =>
      -- an item that is an array is met by the deep method only
      obtain rfl : deep = true := by simpa [FieldType.element?] using hdeep
      rcases fits_array hv with rfl | ⟨items, rfl, hitems⟩
      · exact ⟨0, rfl, rfl⟩
      · obtain ⟨code, hcode, hcode'⟩ := itemsHash_of_items
          (fun item hitem => ih element rfl item true (hitems item hitem) (Or.inl rfl)) 1
        exact ⟨code, hcode, hcode'⟩
    | reference name arguments =>
      obtain ⟨text, rfl⟩ := fits_reference hv
      cases text with
      | none => exact ⟨0, rfl, rfl⟩
      | some text => exact ⟨textHash text, rfl, rfl⟩

/-- **The method for arrays that suits the type computes the part of an array.** -/
theorem arrayHash_of_fits {element : FieldType} {v : Value} (hv : v.fits (.array element)) :
    ∃ part, hashOf (.array element) v = .ok part ∧
      v.arrayHash (FieldType.array element).isNestedArray = some part := by
  rcases fits_array hv with rfl | ⟨items, rfl, hitems⟩
  · exact ⟨0, rfl, rfl⟩
  have hsuits := isNestedArray_or_element? element
  obtain ⟨code, hcode, hcode'⟩ := itemsHash_of_items
    (fun item hitem => itemHash_of_fits element item _ (hitems item hitem) hsuits) 1
  refine ⟨code, hcode, ?_⟩
  simpa [Value.arrayHash, isObject_of_fits hitems] using hcode'

/-! ## Equality -/

theorem itemsEqual_of_items {element : FieldType} {deep : Bool} {as bs : List Value}
    (h : ∀ a ∈ as, ∀ b ∈ bs, ∃ answer, equalOf element a b = .ok answer ∧
      a.itemEquals deep b = some answer) :
    ∃ answer, equalItems element as bs = .ok answer ∧ itemsEqual deep as bs = some answer := by
  induction as generalizing bs with
  | nil => exact ⟨true, by simp [equalItems], by simp [itemsEqual]⟩
  | cons a as ih =>
    cases bs with
    | nil => exact ⟨true, by simp [equalItems], by simp [itemsEqual]⟩
    | cons b bs =>
      obtain ⟨answer, hanswer, hanswer'⟩ := h a List.mem_cons_self b List.mem_cons_self
      simp only [equalItems, itemsEqual, hanswer, hanswer']
      cases answer with
      | false => exact ⟨false, rfl, rfl⟩
      | true =>
        exact ih fun x hx y hy => h x (List.mem_cons_of_mem _ hx) y (List.mem_cons_of_mem _ hy)

/-- Items that fit are compared as their type says, if they are not arrays or the method is deep. -/
theorem itemEquals_of_fits (type : FieldType) :
    ∀ (a b : Value) (deep : Bool), a.fits type → b.fits type →
      deep = true ∨ type.element? = none →
      ∃ answer, equalOf type a b = .ok answer ∧ a.itemEquals deep b = some answer := by
  induction type using FieldType.elementInduction with
  | step type ih =>
    intro a b deep ha hb hdeep
    cases type with
    | scalar kind =>
      have hakind := fits_scalar ha
      have hbkind := fits_scalar hb
      cases a <;> cases hakind <;> cases b <;> cases hbkind <;> exact ⟨_, rfl, rfl⟩
    | array element =>
      obtain rfl : deep = true := by simpa [FieldType.element?] using hdeep
      rcases fits_array ha with rfl | ⟨as, rfl, has⟩ <;>
        rcases fits_array hb with rfl | ⟨bs, rfl, hbs⟩
      · exact ⟨true, rfl, rfl⟩
      · exact ⟨false, rfl, rfl⟩
      · exact ⟨false, rfl, rfl⟩
      · simp only [equalOf, Value.itemEquals, if_true]
        by_cases hlen : as.length = bs.length
        · simp only [hlen, if_true]
          exact itemsEqual_of_items fun x hx y hy =>
            ih element rfl x y true (has x hx) (hbs y hy) (Or.inl rfl)
        · simp only [hlen, if_false]
          exact ⟨false, rfl, rfl⟩
    | reference name arguments =>
      obtain ⟨x, rfl⟩ := fits_reference ha
      obtain ⟨y, rfl⟩ := fits_reference hb
      exact ⟨x == y, rfl, rfl⟩

/-- **The method for arrays that suits the type compares two arrays.** -/
theorem arrayEquals_of_fits {element : FieldType} {a b : Value} (ha : a.fits (.array element))
    (hb : b.fits (.array element)) :
    ∃ answer, equalOf (.array element) a b = .ok answer ∧
      a.arrayEquals (FieldType.array element).isNestedArray b = some answer := by
  rcases fits_array ha with rfl | ⟨as, rfl, has⟩ <;> rcases fits_array hb with rfl | ⟨bs, rfl, hbs⟩
  · exact ⟨true, rfl, rfl⟩
  · exact ⟨false, rfl, rfl⟩
  · exact ⟨false, rfl, rfl⟩
  have hall : ∀ item ∈ as ++ bs, item.fits element := by
    intro item hitem
    rcases List.mem_append.1 hitem with h | h
    · exact has item h
    · exact hbs item h
  simp only [equalOf, Value.arrayEquals, isObject_of_fits hall, Bool.false_eq_true, if_false]
  by_cases hlen : as.length = bs.length
  · simp only [hlen, if_true]
    exact itemsEqual_of_items fun x hx y hy => itemEquals_of_fits element x y _ (has x hx)
      (hbs y hy) (isNestedArray_or_element? element)
  · simp only [hlen, if_false]
    exact ⟨false, rfl, rfl⟩

end ValueClass
