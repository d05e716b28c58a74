import Mathlib.Algebra.BigOperators.Fin
import Mathlib.Data.Int.ModEq
import Mathlib.Tactic.Ring
import ValueClass.Proofs.OneChange

/-!
# Hash codes in closed form

A hash code is accumulated step by step with sums and products that wrap around. Over the integers
the same steps write a number in base 31, of which the hash code is the signed word that is left.

* `inBase31`: the number with the given digits. A digit may be any number.
* `foldl_addPart_modEq`: **a hash code is the number of its parts, up to multiples of `2 ^ 32`.**
* `IsUtf16`: the code units of a text, and `isUtf16_iff`, that they are the units which are hashed.
* `hash_closed_forms`: the closed forms of the hash codes of instances, arrays and texts.
-/

namespace ValueClass

open Text

/-! ## Numbers in base 31 -/

/-- **The number with the given digits in base 31**, the first digit being the highest. -/
def inBase31 (digits : List Int) : Int :=
  ∑ i : Fin digits.length, digits[i] * 31 ^ (digits.length - (i + 1))

theorem inBase31_cons (digit : Int) (digits : List Int) :
    inBase31 (digit :: digits) = digit * 31 ^ digits.length + inBase31 digits := by
  simp only [inBase31, List.length_cons]
  rw [Fin.sum_univ_succ]
  simp

theorem inBase31_nil : inBase31 [] = 0 :=
  Fin.sum_univ_zero _

theorem bmod_modEq (n : Int) (m : Nat) : n.bmod m ≡ n [ZMOD m] :=
  Int.bmod_emod

/-- A word is what is left of any number that it agrees with up to multiples of `2 ^ 32`. -/
theorem toInt_eq_bmod {word : Int32} {n : Int} (h : word.toInt ≡ n [ZMOD 2 ^ 32]) :
    word.toInt = n.bmod (2 ^ 32) := by
  calc word.toInt = word.toInt.bmod (2 ^ 32) := (Int32.toInt_bmod word).symm
    _ = (word.toInt % 2 ^ 32).bmod (2 ^ 32) := (Int.emod_bmod _ _).symm
    _ = (n % 2 ^ 32).bmod (2 ^ 32) := by rw [h]
    _ = n.bmod (2 ^ 32) := Int.emod_bmod _ _

theorem addPart_modEq (result part : Int32) :
    (addPart result part).toInt ≡ result.toInt * 31 + part.toInt [ZMOD 2 ^ 32] := by
  have hprime : hashPrime.toInt = 31 := rfl
  have hproduct : (hashPrime * result).toInt ≡ result.toInt * 31 [ZMOD 2 ^ 32] := by
    rw [Int32.toInt_mul, hprime, mul_comm]
    exact bmod_modEq _ _
  rw [addPart, Int32.toInt_add]
  exact (bmod_modEq _ _).trans (hproduct.add_right part.toInt)

/-- **A hash code is the number of its parts**, continued from the code before them. -/
theorem foldl_addPart_modEq (parts : List Int32) (result : Int32) :
    (parts.foldl addPart result).toInt ≡
      result.toInt * 31 ^ parts.length + inBase31 (parts.map Int32.toInt) [ZMOD 2 ^ 32] := by
  induction parts generalizing result with
  | nil => simp [inBase31_nil]
  | cons part parts ih =>
    have hstep : (addPart result part).toInt * 31 ^ parts.length ≡
        (result.toInt * 31 + part.toInt) * 31 ^ parts.length [ZMOD 2 ^ 32] :=
      (addPart_modEq result part).mul_right _
    -- the code before the part is shifted once more than the part itself
    have hexpand : result.toInt * 31 ^ (part :: parts).length +
        inBase31 ((part :: parts).map Int32.toInt) =
        (result.toInt * 31 + part.toInt) * 31 ^ parts.length +
          inBase31 (parts.map Int32.toInt) := by
      rw [List.map_cons, inBase31_cons, List.length_map, List.length_cons]
      ring
    rw [List.foldl_cons, hexpand]
    exact (ih (addPart result part)).trans (hstep.add_right _)

/-! ## Code units -/

/-- **The numbers are the UTF-16 code units of the characters.** A character outside the first
`2 ^ 16` is a pair of surrogates, which have the upper and the lower ten bits of its place there. -/
inductive IsUtf16 : List Char → List Nat → Prop
  | nil : IsUtf16 [] []
  | one {c : Char} {cs : List Char} {units : List Nat} (h : c.toNat < 2 ^ 16)
      (rest : IsUtf16 cs units) : IsUtf16 (c :: cs) (c.toNat :: units)
  | pair {c : Char} {cs : List Char} {units : List Nat} {high low : Nat} (hhigh : high < 2 ^ 10)
      (hlow : low < 2 ^ 10) (h : c.toNat = 2 ^ 16 + high * 2 ^ 10 + low)
      (rest : IsUtf16 cs units) :
      IsUtf16 (c :: cs) ((0xd800 + high) :: (0xdc00 + low) :: units)

theorem toNat_toUInt16 {n : Nat} (h : n < 2 ^ 16) : n.toUInt16.toNat = n :=
  UInt16.toNat_ofNat_of_lt' h

theorem map_charUnits_of_lt {c : Char} (h : c.toNat < 2 ^ 16) :
    (charUnits c).map UInt16.toNat = [c.toNat] := by
  have hlt : c.toNat < 0x10000 := h
  rw [charUnits, if_pos hlt, List.map_singleton, toNat_toUInt16 h]

theorem map_charUnits_of_pair {c : Char} {high low : Nat} (hhigh : high < 2 ^ 10)
    (hlow : low < 2 ^ 10) (h : c.toNat = 2 ^ 16 + high * 2 ^ 10 + low) :
    (charUnits c).map UInt16.toNat = [0xd800 + high, 0xdc00 + low] := by
  have hupper : (c.toNat - 0x10000) / 0x400 = high := by omega
  have hlower : (c.toNat - 0x10000) % 0x400 = low := by omega
  rw [charUnits, if_neg (by omega)]
  simp only [hupper, hlower, List.map_cons, List.map_nil]
  rw [toNat_toUInt16 (by omega), toNat_toUInt16 (by omega)]

/-- A character outside the first `2 ^ 16` has upper and lower bits for a pair of surrogates. -/
theorem exists_pair {c : Char} (h : ¬c.toNat < 2 ^ 16) :
    ∃ high low, high < 2 ^ 10 ∧ low < 2 ^ 10 ∧ c.toNat = 2 ^ 16 + high * 2 ^ 10 + low := by
  have hlast : c.toNat < 0x110000 := by
    rcases c.valid with hlow | ⟨-, hhigh⟩
    · exact hlow.trans (by decide)
    · exact hhigh
  exact ⟨(c.toNat - 2 ^ 16) / 2 ^ 10, (c.toNat - 2 ^ 16) % 2 ^ 10, by omega, by omega, by omega⟩

/-- **The code units of characters are the units that are hashed**, and no others. -/
theorem isUtf16_iff {cs : List Char} {units : List Nat} :
    IsUtf16 cs units ↔ units = (cs.flatMap charUnits).map UInt16.toNat := by
  constructor
  · intro h
    induction h with
    | nil => rfl
    | one h _ ih => rw [List.flatMap_cons, List.map_append, map_charUnits_of_lt h, ih]; rfl
    | pair hhigh hlow h _ ih =>
      rw [List.flatMap_cons, List.map_append, map_charUnits_of_pair hhigh hlow h, ih]; rfl
  · rintro rfl
    induction cs with
    | nil => exact .nil
    | cons c cs ih =>
      rw [List.flatMap_cons, List.map_append]
      by_cases h : c.toNat < 2 ^ 16
      · rw [map_charUnits_of_lt h]
        exact .one h ih
      · obtain ⟨high, low, hhigh, hlow, hc⟩ := exists_pair h
        rw [map_charUnits_of_pair hhigh hlow hc]
        exact .pair hhigh hlow hc ih

/-! ## Closed forms -/

/-- A unit is widened without a sign. -/
theorem toInt_unit (unit : UInt16) : unit.toUInt32.toInt32.toInt = unit.toNat := by
  have hbits : unit.toUInt32.toInt32.toInt = unit.toUInt32.toBitVec.toInt := rfl
  have hsame : unit.toUInt32.toBitVec.toNat = unit.toNat := UInt16.toNat_toUInt32 unit
  have hlt := unit.toNat_lt
  rw [hbits, BitVec.toInt_eq_toNat_of_lt (by omega), hsame]

/-- The code units of a text are hashed as parts are. -/
theorem foldl_units_modEq {text : String} {units : List Nat} (h : IsUtf16 text.toList units)
    (result : Int32) :
    ((Text.units text).foldl (fun hash unit => addPart hash unit.toUInt32.toInt32) result).toInt ≡
      result.toInt * 31 ^ units.length + inBase31 (units.map Nat.cast) [ZMOD 2 ^ 32] := by
  have hunits : units = (Text.units text).map UInt16.toNat := isUtf16_iff.1 h
  have hparts :=
    foldl_addPart_modEq ((Text.units text).map fun unit => unit.toUInt32.toInt32) result
  rw [List.foldl_map, List.length_map, List.map_map] at hparts
  rw [hunits, List.length_map, List.map_map]
  simpa only [Function.comp_def, toInt_unit] using hparts

theorem textHash_modEq {text : String} {units : List Nat} (h : IsUtf16 text.toList units) :
    (textHash text).toInt ≡ inBase31 (units.map Nat.cast) [ZMOD 2 ^ 32] := by
  have hzero : (0 : Int32).toInt = 0 := rfl
  simpa only [textHash, hzero, zero_mul, zero_add] using foldl_units_modEq h 0

/-- The hash code of an instance starts from one, which is the highest digit. -/
theorem hashCode_of_adds {fields : Instance} {parts : List Int32} (h : fields.Adds parts) :
    ∃ code, fields.hashCode = .ok code ∧
      code.toInt = (31 ^ parts.length + inBase31 (parts.map Int32.toInt)).bmod (2 ^ 32) := by
  have hseed : hashSeed.toInt = 1 := rfl
  refine ⟨_, hashCode_eq_ok_iff.2 ⟨parts, h, rfl⟩, toInt_eq_bmod ?_⟩
  simpa only [hseed, one_mul] using foldl_addPart_modEq parts hashSeed

/-- **The closed forms of hash codes.** Of `n` parts `hᵢ` the hash code of an instance, and what an
array adds, is the signed word that is left of `31 ^ n + ∑ hᵢ * 31 ^ (n - i)`. The hash code of a
text is that of the same sum over its UTF-16 code units, without the first term, so that a text in
two pieces is hashed by shifting the hash code of the first. -/
theorem hash_closed_forms :
    (∀ (fields : Instance) (parts : List Int32), fields.Adds parts →
      ∃ code, fields.hashCode = .ok code ∧
        code.toInt = (31 ^ parts.length + inBase31 (parts.map Int32.toInt)).bmod (2 ^ 32)) ∧
    (∀ (element : FieldType) (items : List Value) (parts : List Int32),
      List.Forall₂ (fun item part => hashOf element item = .ok part) items parts →
      ∃ part, hashOf (.array element) (.array (some items)) = .ok part ∧
        part.toInt = (31 ^ parts.length + inBase31 (parts.map Int32.toInt)).bmod (2 ^ 32)) ∧
    (∀ element : FieldType, hashOf (.array element) (.array none) = .ok 0) ∧
    (∀ text : String, ∃ units, IsUtf16 text.toList units) ∧
    (∀ (text : String) (units : List Nat), IsUtf16 text.toList units →
      (textHash text).toInt = (inBase31 (units.map Nat.cast)).bmod (2 ^ 32)) ∧
    (∀ (first second : String) (units : List Nat), IsUtf16 second.toList units →
      (textHash (first ++ second)).toInt =
        ((textHash first).toInt * 31 ^ units.length + (textHash second).toInt).bmod (2 ^ 32)) := by
  refine ⟨fun fields parts => hashCode_of_adds, fun element items parts h => ?_, fun _ => rfl,
    fun text => ⟨_, isUtf16_iff.2 rfl⟩, fun text units h => toInt_eq_bmod (textHash_modEq h),
    fun first second units h => toInt_eq_bmod ?_⟩
  · -- the items of an array make up an instance
    rw [hashOf_array]
    exact hashCode_of_adds (List.forall₂_map_left_iff.2 h)
  · have hpieces : textHash (first ++ second) = (Text.units second).foldl
        (fun hash unit => addPart hash unit.toUInt32.toInt32) (textHash first) := by
      rw [textHash, Text.units, String.toList_append, List.flatMap_append, List.foldl_append]
      rfl
    rw [hpieces]
    exact (foldl_units_modEq h (textHash first)).trans ((textHash_modEq h).symm.add_left _)

/-- A text with a pair of surrogates, after an array of which the sum wraps around. -/
theorem hash_closed_forms_surrogates :
    let fields : Instance :=
      [(.array (.scalar .int), .array (some [.int 2147483647, .int (-1)])),
        (.reference "Text" [], .reference (some "é😀"))]
    fields.Adds [-2147482719, 1996812] ∧
      (∃ code, fields.hashCode = .ok code ∧
        code.toInt = (31 ^ 2 + inBase31 [-2147482719, 1996812]).bmod (2 ^ 32)) ∧
      IsUtf16 "é😀".toList [0xe9, 0xd83d, 0xde00] ∧
      (textHash "é😀").toInt = (inBase31 [0xe9, 0xd83d, 0xde00]).bmod (2 ^ 32) := by
  intro fields
  obtain ⟨hfields, -, -, -, htexts, -⟩ := hash_closed_forms
  have hadds : fields.Adds [-2147482719, 1996812] := .cons rfl (.cons rfl .nil)
  have hunits : IsUtf16 "é😀".toList [0xe9, 0xd83d, 0xde00] := isUtf16_iff.2 rfl
  have hcode := hfields fields _ hadds
  have htext := htexts "é😀" _ hunits
  simp only [List.map_cons, List.map_nil, Nat.cast_ofNat] at htext
  exact ⟨hadds, hcode, hunits, htext⟩

end ValueClass
