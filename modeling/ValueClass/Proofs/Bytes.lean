import Mathlib.Data.List.Basic
import ValueClass.Text.Utf8

/-!
# Texts and their bytes

* `utf8_append`, `utf8_inj`: the bytes of a text.
* `mem_utf8_iff`: a byte of ASCII stands only for its character.
* `slice?_append`: **the bytes that a part of a text takes are an extent at which it can be cut
  out.**
-/

namespace ValueClass

open Text

/-! ## Bytes -/

theorem utf8_eq_flatMap (text : String) :
    utf8 text = text.toList.flatMap String.utf8EncodeChar := by
  have htext : text.toByteArray = text.toList.utf8Encode := by
    rw [← String.toByteArray_ofList, String.ofList_toList]
  rw [utf8, htext, List.utf8Encode, List.data_toByteArray]

theorem utf8_append (a b : String) : utf8 (a ++ b) = utf8 a ++ utf8 b := by
  rw [utf8_eq_flatMap, utf8_eq_flatMap, utf8_eq_flatMap, String.toList_append, List.flatMap_append]

theorem utf8_inj {a b : String} : utf8 a = utf8 b ↔ a = b := by
  constructor
  · intro h
    exact Option.some.inj (by rw [← ofUtf8?_utf8, h, ofUtf8?_utf8])
  · exact congrArg utf8

theorem utf8_of_ofUtf8? {bytes : List UInt8} {text : String} (h : ofUtf8? bytes = some text) :
    utf8 text = bytes := by
  unfold ofUtf8? String.fromUTF8? at h
  split at h
  · cases h
    rfl
  · cases h

theorem utf8EncodeChar_of_lt {c : Char} (h : c.toNat < 128) :
    String.utf8EncodeChar c = [UInt8.ofNat c.toNat] :=
  if_pos (Nat.le_of_lt_succ h)

theorem le_of_mem_utf8EncodeChar {c : Char} (h : 128 ≤ c.toNat) {b : UInt8}
    (hb : b ∈ String.utf8EncodeChar c) : 128 ≤ b.toNat := by
  have hc : ¬c.val.toNat ≤ 127 := Nat.not_le.2 h
  simp only [String.utf8EncodeChar, if_neg hc] at hb
  split at hb
  · simp only [List.mem_cons, List.not_mem_nil, or_false] at hb
    rcases hb with rfl | rfl <;> rw [UInt8.toNat_ofNat'] <;> omega
  split at hb
  · simp only [List.mem_cons, List.not_mem_nil, or_false] at hb
    rcases hb with rfl | rfl | rfl <;> rw [UInt8.toNat_ofNat'] <;> omega
  · simp only [List.mem_cons, List.not_mem_nil, or_false] at hb
    rcases hb with rfl | rfl | rfl | rfl <;> rw [UInt8.toNat_ofNat'] <;> omega

theorem mem_utf8EncodeChar_iff {c d : Char} (hc : c.toNat < 128) :
    UInt8.ofNat c.toNat ∈ String.utf8EncodeChar d ↔ c = d := by
  have hbyte : ∀ {n}, n < 128 → (UInt8.ofNat n).toNat = n := by
    intro n hn
    rw [UInt8.toNat_ofNat']
    omega
  constructor
  · intro h
    by_cases hd : d.toNat < 128
    · rw [utf8EncodeChar_of_lt hd, List.mem_singleton] at h
      have hcode := congrArg UInt8.toNat h
      rw [hbyte hc, hbyte hd] at hcode
      exact Char.toNat_inj.1 hcode
    · have hle := le_of_mem_utf8EncodeChar (Nat.not_lt.1 hd) h
      rw [hbyte hc] at hle
      omega
  · rintro rfl
    rw [utf8EncodeChar_of_lt hc]
    exact List.mem_singleton_self _

/-- **A byte of ASCII stands only for its character.** -/
theorem mem_utf8_iff {c : Char} (hc : c.toNat < 128) {text : String} :
    UInt8.ofNat c.toNat ∈ utf8 text ↔ c ∈ text.toList := by
  simp only [utf8_eq_flatMap, List.mem_flatMap, mem_utf8EncodeChar_iff hc, exists_eq_right']

/-! ## Slices -/

theorem isValid_utf8ByteSize (front back : String) :
    String.Pos.Raw.IsValid (front ++ back) ⟨front.utf8ByteSize⟩ :=
  String.Pos.Raw.isValid_iff_exists_append.2 ⟨front, back, rfl, rfl⟩

/-- **The bytes that a part of a text takes are an extent at which it can be cut out.** -/
theorem slice?_append (front part back : String) :
    slice? (front ++ part ++ back) front.utf8ByteSize (front ++ part).utf8ByteSize = some part := by
  have hstart : String.Pos.Raw.IsValid (front ++ part ++ back) ⟨front.utf8ByteSize⟩ := by
    rw [String.append_assoc]
    exact isValid_utf8ByteSize front (part ++ back)
  have hstop := isValid_utf8ByteSize (front ++ part) back
  have hle : front.utf8ByteSize ≤ (front ++ part).utf8ByteSize := by
    rw [String.utf8ByteSize_append]
    exact Nat.le_add_right _ _
  rw [slice?, dif_pos ⟨hstart, hstop, hle⟩, Option.some_inj, ← String.toByteArray_inj]
  calc (front ++ part ++ back).toByteArray.extract front.utf8ByteSize (front ++ part).utf8ByteSize
    _ = (front ++ part).toByteArray.extract front.utf8ByteSize (front ++ part).utf8ByteSize := by
      rw [String.toByteArray_append (s := front ++ part)]
      exact ByteArray.extract_append_size_left
    _ = part.toByteArray := by
      rw [String.toByteArray_append, String.utf8ByteSize_append]
      exact ByteArray.extract_append_eq_right rfl rfl

end ValueClass
