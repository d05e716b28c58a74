import ValueClass.Text.Utf16

/-!
# Hash words

Hash codes are 32-bit words; sums and products wrap around.
-/

namespace ValueClass

/-- The factor by which a hash code grows with each part. -/
def hashPrime : Int32 := 31

/-- The hash code of nothing yet. -/
def hashSeed : Int32 := 1

/-- The contribution of `true`. -/
def trueHash : Int32 := 1231

/-- The contribution of `false`. -/
def falseHash : Int32 := 1237

/-- A hash code with one part more. -/
def addPart (result part : Int32) : Int32 :=
  hashPrime * result + part

/-- A bit pattern of single precision is a NaN if all exponent bits are set and some other bit
below them. -/
def isFloatNaN (bits : UInt32) : Bool :=
  bits &&& 0x7fffffff > 0x7f800000

/-- A bit pattern of double precision is a NaN if all exponent bits are set and some other bit
below them. -/
def isDoubleNaN (bits : UInt64) : Bool :=
  bits &&& 0x7fffffffffffffff > 0x7ff0000000000000

/-- The word of a single precision number, the same one for every NaN. -/
def floatWord (bits : UInt32) : Int32 :=
  if isFloatNaN bits then 0x7fc00000 else bits.toInt32

/-- The word of a double precision number, the same one for every NaN. -/
def doubleWord (bits : UInt64) : Int64 :=
  if isDoubleNaN bits then 0x7ff8000000000000 else bits.toInt64

/-- The upper and the lower half of a word, one laid over the other by exclusive or. -/
def foldWord (word : Int64) : Int32 :=
  (word.toUInt64 ^^^ (word.toUInt64 >>> 32)).toUInt32.toInt32

/-- The hash code of a string: its 16-bit units, accumulated from zero. -/
def textHash (text : String) : Int32 :=
  (Text.units text).foldl (fun hash unit => addPart hash unit.toUInt32.toInt32) 0

end ValueClass
