import ValueClass.Instance.Value
import ValueClass.Instance.Word

/-!
# Equality of instances

What the `equals` method of a value class returns for two instances, computed from the types and the
values of the fields.
-/

namespace ValueClass

mutual

/-- **Whether two values of one type are equal.** Floating point numbers are compared by their word,
arrays item by item up to the first that differ. A left value of the wrong kind is reported before a
right one. -/
def equalOf : FieldType → Value → Value → Except Mismatch Bool
  | .scalar .boolean, .boolean a, .boolean b => .ok (a == b)
  | .scalar .byte, .byte a, .byte b => .ok (a == b)
  | .scalar .short, .short a, .short b => .ok (a == b)
  | .scalar .int, .int a, .int b => .ok (a == b)
  | .scalar .long, .long a, .long b => .ok (a == b)
  | .scalar .char, .char a, .char b => .ok (a == b)
  | .scalar .float, .float a, .float b => .ok (floatWord a == floatWord b)
  | .scalar .double, .double a, .double b => .ok (doubleWord a == doubleWord b)
  | .array _, .array none, .array none => .ok true
  | .array _, .array none, .array (some _) => .ok false
  | .array _, .array (some _), .array none => .ok false
  | .array element, .array (some as), .array (some bs) =>
    if as.length = bs.length then equalItems element as bs else .ok false
  | .reference _ _, .reference a, .reference b => .ok (a == b)
  | type, left, right =>
    if left.kind = type.kind then .error ⟨type, right.kind⟩ else .error ⟨type, left.kind⟩

/-- Whether two lists of values of one type are equal, item by item. -/
def equalItems (element : FieldType) : List Value → List Value → Except Mismatch Bool
  | a :: as, b :: bs =>
    match equalOf element a b with
    | .ok true => equalItems element as bs
    | answer => answer
  | _, _ => .ok true

end

/-- Whether the fields of two instances of one class are equal, up to the first that differ. -/
def equalFields : Instance → Instance → Except Mismatch Bool
  | (type, a) :: as, (_, b) :: bs =>
    match equalOf type a b with
    | .ok true => equalFields as bs
    | answer => answer
  | _, _ => .ok true

/-- **Whether two instances are equal.** Instances with other field types are of another class and
never equal. -/
def Instance.equals (left right : Instance) : Except Mismatch Bool :=
  if left.map (·.1) = right.map (·.1) then equalFields left right else .ok false

end ValueClass
