import ValueClass.FieldType

/-!
# How the type of a field decides its part in the methods

The type of a field decides how it adds to the hash code, and how two values of it are compared.
-/

namespace ValueClass

/-- How a field adds to the hash code. -/
inductive HashRule where
  /-- The value, widened. -/
  | value
  /-- One constant for `true` and one for `false`. -/
  | constants
  /-- The two halves of the word laid over each other. -/
  | foldedLong
  /-- The word of a single precision number. -/
  | floatBits
  /-- The two halves of the word of a double precision number. -/
  | foldedDouble
  /-- The items of an array. -/
  | items
  /-- The items of an array of arrays, and of the arrays in it. -/
  | nestedItems
  /-- The hash code of the object, and zero for null. -/
  | objectOrNull
  deriving DecidableEq, Repr

def FieldType.hashRule : FieldType → HashRule
  | .scalar .boolean => .constants
  | .scalar .long => .foldedLong
  | .scalar .float => .floatBits
  | .scalar .double => .foldedDouble
  | .scalar .byte | .scalar .short | .scalar .int | .scalar .char => .value
  | .array (.array _) => .nestedItems
  | .array _ => .items
  | .reference _ _ => .objectOrNull

/-- How two values of a field are compared. -/
inductive EqualityRule where
  /-- As they are. -/
  | value
  /-- By the words of single precision numbers. -/
  | floatBits
  /-- By the words of double precision numbers. -/
  | doubleBits
  /-- Item by item. -/
  | items
  /-- Item by item, and arrays in the array likewise. -/
  | nestedItems
  /-- As objects, null being equal to null alone. -/
  | objectOrNull
  deriving DecidableEq, Repr

def FieldType.equalityRule : FieldType → EqualityRule
  | .scalar .float => .floatBits
  | .scalar .double => .doubleBits
  | .scalar _ => .value
  | .array (.array _) => .nestedItems
  | .array _ => .items
  | .reference _ _ => .objectOrNull

end ValueClass
