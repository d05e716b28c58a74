import ValueClass.Instance.Value
import ValueClass.Instance.Word

/-!
# Hash codes of instances

What the `hashCode` method of a value class returns, computed from the types and the values of the
fields.
-/

namespace ValueClass

mutual

/-- **What a value adds to the hash code.** A null reference and a null array add zero. Fails at the
first value, from left to right, that is not of the type of its place. -/
def hashOf : FieldType → Value → Except Mismatch Int32
  | .scalar .boolean, .boolean b => .ok (if b then trueHash else falseHash)
  | .scalar .byte, .byte n => .ok n.toInt32
  | .scalar .short, .short n => .ok n.toInt32
  | .scalar .int, .int n => .ok n
  | .scalar .long, .long n => .ok (foldWord n)
  | .scalar .char, .char unit => .ok unit.toUInt32.toInt32
  | .scalar .float, .float bits => .ok (floatWord bits)
  | .scalar .double, .double bits => .ok (foldWord (doubleWord bits))
  | .array _, .array none => .ok 0
  | .array element, .array (some items) => hashItems element hashSeed items
  | .reference _ _, .reference none => .ok 0
  | .reference _ _, .reference (some text) => .ok (textHash text)
  | type, value => .error ⟨type, value.kind⟩

/-- The hash code of the items before, accumulated with the items of an array. -/
def hashItems (element : FieldType) (result : Int32) : List Value → Except Mismatch Int32
  | [] => .ok result
  | item :: rest =>
    match hashOf element item with
    | .error mismatch => .error mismatch
    | .ok part => hashItems element (addPart result part) rest

end

/-- The hash code of the fields before, accumulated with the fields of an instance. -/
def hashFields (result : Int32) : Instance → Except Mismatch Int32
  | [] => .ok result
  | (type, value) :: rest =>
    match hashOf type value with
    | .error mismatch => .error mismatch
    | .ok part => hashFields (addPart result part) rest

/-- **The hash code of an instance.** -/
def Instance.hashCode (fields : Instance) : Except Mismatch Int32 :=
  hashFields hashSeed fields

end ValueClass
