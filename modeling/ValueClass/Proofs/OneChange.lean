import Mathlib.Data.List.Forall2
import ValueClass.Proofs.Equivalence

/-!
# What one change does to a hash code

A hash code is accumulated from what the fields add, and a sum that is multiplied by an odd factor
loses nothing. If two instances differ in what one field adds, their hash codes differ, however many
fields come after it and however often the words wrap around.

* `Instance.Adds`: what the fields of an instance add, one by one.
* `hashCode_eq_ok_iff`: **a hash code is accumulated from what the fields add.**
* `foldl_addPart_inj`: codes that differ still differ after more parts.
* `DifferAt`, `DifferWithin`: two instances, or two values, that differ at one place only. In arrays
  the place may be at any depth.
* `hash_eq_iff_of_one_change`: **the hash codes are equal exactly if the parts at that place are.**
-/

namespace ValueClass

/-! ## Parts -/

/-- What the fields of an instance add, one by one. -/
def Instance.Adds (fields : Instance) (parts : List Int32) : Prop :=
  List.Forall₂ (fun field part => hashOf field.1 field.2 = .ok part) fields parts

/-- What the field at a place adds, if there is one. -/
def Instance.partAt? (fields : Instance) (i : Nat) : Option (Except Mismatch Int32) :=
  fields[i]?.map fun field => hashOf field.1 field.2

theorem partAt?_of_adds {fields : Instance} {parts : List Int32} (h : fields.Adds parts) (i : Nat) :
    fields.partAt? i = parts[i]?.map .ok := by
  induction h generalizing i with
  | nil => rfl
  | cons hpart _ ih =>
    cases i with
    | zero => exact congrArg some hpart
    | succ i => exact ih i

theorem hashFields_eq_ok_iff {fields : Instance} {result code : Int32} :
    hashFields result fields = .ok code ↔
      ∃ parts, fields.Adds parts ∧ code = parts.foldl addPart result := by
  induction fields generalizing result with
  | nil => simp [hashFields, Instance.Adds, eq_comm]
  | cons field rest ih =>
    obtain ⟨type, value⟩ := field
    rw [hashFields]
    cases hpart : hashOf type value with
    | error mismatch => simp [Instance.Adds, List.forall₂_cons_left_iff, hpart]
    | ok part =>
      rw [ih]
      constructor
      · rintro ⟨parts, hparts, rfl⟩
        exact ⟨part :: parts, .cons hpart hparts, rfl⟩
      · rintro ⟨_, hadds, rfl⟩
        obtain ⟨first, parts, hfirst, hparts, rfl⟩ := List.forall₂_cons_left_iff.1 hadds
        cases hpart.symm.trans hfirst
        exact ⟨parts, hparts, rfl⟩

/-- **A hash code is accumulated from what the fields add.** -/
theorem hashCode_eq_ok_iff {fields : Instance} {code : Int32} :
    fields.hashCode = .ok code ↔
      ∃ parts, fields.Adds parts ∧ code = parts.foldl addPart hashSeed :=
  hashFields_eq_ok_iff

/-! ## Nothing is lost -/

/-- The word by which the factor of hash codes is taken back. -/
def inversePrime : Int32 := -1108378657

theorem inversePrime_mul (n : Int32) : inversePrime * (hashPrime * n) = n := by
  have hone : inversePrime * hashPrime = 1 := by decide
  rw [← Int32.mul_assoc, hone, Int32.one_mul]

@[simp] theorem addPart_left_inj {a b part : Int32} : addPart a part = addPart b part ↔ a = b := by
  unfold addPart
  rw [Int32.add_left_inj]
  constructor
  · intro h
    rw [← inversePrime_mul a, h, inversePrime_mul]
  · exact congrArg _

@[simp] theorem addPart_right_inj {result p q : Int32} :
    addPart result p = addPart result q ↔ p = q :=
  Int32.add_right_inj _

/-- **Codes that differ still differ after more parts.** -/
theorem foldl_addPart_inj {a b : Int32} (parts : List Int32) :
    parts.foldl addPart a = parts.foldl addPart b ↔ a = b := by
  induction parts generalizing a b with
  | nil => rfl
  | cons part parts ih => rw [List.foldl_cons, List.foldl_cons, ih, addPart_left_inj]

/-- Parts that are the same but for one place accumulate to the same code exactly if they are the
same there. -/
theorem foldl_addPart_eq_iff {ps qs : List Int32} {i : Nat} (hlen : ps.length = qs.length)
    (hothers : ∀ j, j ≠ i → ps[j]? = qs[j]?) (result : Int32) :
    ps.foldl addPart result = qs.foldl addPart result ↔ ps[i]? = qs[i]? := by
  induction ps generalizing qs i result with
  | nil =>
    obtain rfl : qs = [] := List.length_eq_zero_iff.1 hlen.symm
    simp
  | cons p ps ih =>
    obtain ⟨q, qs, rfl⟩ := List.exists_cons_of_length_eq_add_one hlen.symm
    rw [List.foldl_cons, List.foldl_cons]
    cases i with
    | zero =>
      -- all parts after the place are the same, and never make up for a difference before them
      obtain rfl : ps = qs := List.ext_getElem? fun j => hothers (j + 1) (by omega)
      rw [foldl_addPart_inj, addPart_right_inj]
      simp
    | succ i =>
      obtain rfl : p = q := by simpa using hothers 0 (by omega)
      have hrest : ∀ j, j ≠ i → ps[j]? = qs[j]? := by
        intro j hj
        exact hothers (j + 1) (by omega)
      exact ih (by simpa using hlen) hrest (addPart result p)

/-! ## One place -/

/-- **Two instances that differ at one place only**, as far as hashing goes: all fields elsewhere
add the same. At the place they have the fields `x` and `y`. -/
structure DifferAt (a b : Instance) (i : Nat) (x y : FieldType × Value) : Prop where
  length_eq : a.length = b.length
  left : a[i]? = some x
  right : b[i]? = some y
  others : ∀ j, j ≠ i → a.partAt? j = b.partAt? j

/-- **Two values that differ at one place within them only**, where they have `u` and `v`. The place
is the value itself, or is within an item of an array of which all other items add the same. -/
inductive DifferWithin : (x y u v : FieldType × Value) → Prop
  | here (x y : FieldType × Value) : DifferWithin x y x y
  | item {element element' : FieldType} {as bs : List Value} {i : Nat} {x y u v : FieldType × Value}
      (h : DifferAt (itemFields element as) (itemFields element' bs) i x y)
      (within : DifferWithin x y u v) :
      DifferWithin (.array element, .array (some as)) (.array element', .array (some bs)) u v

variable {a b : Instance} {i : Nat} {x y u v : FieldType × Value}

/-- Two instances that differ at one place have the same hash code exactly if they add the same
there. -/
theorem DifferAt.hashCode_eq_iff (h : DifferAt a b i x y) {code code' : Int32}
    (ha : a.hashCode = .ok code) (hb : b.hashCode = .ok code') :
    ∃ p q, hashOf x.1 x.2 = .ok p ∧ hashOf y.1 y.2 = .ok q ∧ (code = code' ↔ p = q) := by
  obtain ⟨ps, hps, rfl⟩ := hashCode_eq_ok_iff.1 ha
  obtain ⟨qs, hqs, rfl⟩ := hashCode_eq_ok_iff.1 hb
  have hlen : ps.length = qs.length := by
    rw [← List.Forall₂.length_eq hps, ← List.Forall₂.length_eq hqs, h.length_eq]
  have hothers : ∀ j, j ≠ i → ps[j]? = qs[j]? := by
    intro j hj
    have hsame := h.others j hj
    rw [partAt?_of_adds hps, partAt?_of_adds hqs] at hsame
    exact Option.map_injective (fun _ _ => Except.ok.inj) hsame
  have hx : some (hashOf x.1 x.2) = ps[i]?.map .ok := by
    rw [← partAt?_of_adds hps, Instance.partAt?, h.left, Option.map_some]
  have hy : some (hashOf y.1 y.2) = qs[i]?.map .ok := by
    rw [← partAt?_of_adds hqs, Instance.partAt?, h.right, Option.map_some]
  obtain ⟨p, hp, hpart⟩ := Option.map_eq_some_iff.1 hx.symm
  obtain ⟨q, hq, hpart'⟩ := Option.map_eq_some_iff.1 hy.symm
  refine ⟨p, q, hpart.symm, hpart'.symm, ?_⟩
  rw [foldl_addPart_eq_iff hlen hothers, hp, hq, Option.some.injEq]

/-- Two values that differ at one place within them add the same exactly if they do so there. -/
theorem DifferWithin.hashOf_eq_iff (h : DifferWithin x y u v) {p q : Int32}
    (hx : hashOf x.1 x.2 = .ok p) (hy : hashOf y.1 y.2 = .ok q) :
    ∃ p' q', hashOf u.1 u.2 = .ok p' ∧ hashOf v.1 v.2 = .ok q' ∧ (p = q ↔ p' = q') := by
  induction h generalizing p q with
  | here x y => exact ⟨p, q, hx, hy, Iff.rfl⟩
  | item h _ ih =>
    -- the items of an array make up an instance
    rw [hashOf_array] at hx hy
    obtain ⟨p₁, q₁, hx₁, hy₁, hiff⟩ := h.hashCode_eq_iff hx hy
    obtain ⟨p₂, q₂, hx₂, hy₂, hiff'⟩ := ih hx₁ hy₁
    exact ⟨p₂, q₂, hx₂, hy₂, hiff.trans hiff'⟩

/-- **One change of a part changes the hash code.** Let two values differ at one place within them
only, at any depth. They add the same to a hash code exactly if they do so at that place. Two
instances with these values in one place, and elsewhere with fields that add the same, have the same
hash code exactly then. -/
theorem hash_eq_iff_of_one_change (h : DifferWithin x y u v) :
    (∀ p q, hashOf x.1 x.2 = .ok p → hashOf y.1 y.2 = .ok q →
      ∃ p' q', hashOf u.1 u.2 = .ok p' ∧ hashOf v.1 v.2 = .ok q' ∧ (p = q ↔ p' = q')) ∧
    (∀ (a b : Instance) (i : Nat) (code code' : Int32), DifferAt a b i x y →
      a.hashCode = .ok code → b.hashCode = .ok code' →
      ∃ p' q', hashOf u.1 u.2 = .ok p' ∧ hashOf v.1 v.2 = .ok q' ∧ (code = code' ↔ p' = q')) := by
  refine ⟨fun p q => h.hashOf_eq_iff, ?_⟩
  intro a b i code code' hdiffer ha hb
  obtain ⟨p, q, hp, hq, hiff⟩ := hdiffer.hashCode_eq_iff ha hb
  obtain ⟨p', q', hp', hq', hiff'⟩ := h.hashOf_eq_iff hp hq
  exact ⟨p', q', hp', hq', hiff.trans hiff'⟩

/-- Instances with another field in one place differ there only. -/
theorem differAt_middle (front back : Instance) (x y : FieldType × Value) :
    DifferAt (front ++ x :: back) (front ++ y :: back) front.length x y := by
  refine ⟨by simp, by simp, by simp, fun j hj => ?_⟩
  unfold Instance.partAt?
  rw [List.getElem?_append, List.getElem?_append]
  split
  · rfl
  · obtain ⟨k, hk⟩ : ∃ k, j - front.length = k + 1 := ⟨j - front.length - 1, by omega⟩
    rw [hk, List.getElem?_cons_succ, List.getElem?_cons_succ]

/-- One item of an array in an array makes a difference, although the words wrap around before and
after it. -/
theorem hash_eq_iff_of_one_change_item :
    let grid (n : Int32) : FieldType × Value := (.array (.array (.scalar .int)),
      .array (some [.array none, .array (some [.int 2147483647, .int n, .int (-7)])]))
    let row (n : Int32) : Instance :=
      [(.scalar .boolean, .boolean true), grid n, (.scalar .char, .char 65535)]
    DifferWithin (grid 3) (grid 4) (.scalar .int, .int 3) (.scalar .int, .int 4) ∧
      DifferAt (row 3) (row 4) 1 (grid 3) (grid 4) ∧
      ∃ code code', (row 3).hashCode = .ok code ∧ (row 4).hashCode = .ok code' ∧ code ≠ code' := by
  intro grid row
  have hwithin : DifferWithin (grid 3) (grid 4) (.scalar .int, .int 3) (.scalar .int, .int 4) :=
    .item (differAt_middle [(_, .array none)] [] _ _)
      (.item (differAt_middle [(_, .int 2147483647)] [(_, .int (-7))] _ _) (.here _ _))
  have hrow : DifferAt (row 3) (row 4) 1 (grid 3) (grid 4) := differAt_middle [_] [_] _ _
  obtain ⟨-, hcodes⟩ := hash_eq_iff_of_one_change hwithin
  obtain ⟨p, q, hp, hq, hiff⟩ := hcodes (row 3) (row 4) 1 _ _ hrow rfl rfl
  cases hp
  cases hq
  exact ⟨hwithin, hrow, _, _, rfl, rfl, fun hsame => absurd (hiff.1 hsame) (by decide)⟩

end ValueClass
