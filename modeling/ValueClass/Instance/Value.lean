import ValueClass.FieldType

/-!
# Values of fields

What the fields of an instance hold at run time. Floating point numbers are kept as bit patterns, so
that every NaN and both zeros are told apart. A reference refers to a string, or to nothing.
-/

namespace ValueClass

/-- A value of a field. -/
inductive Value where
  | boolean (b : Bool)
  | byte (n : Int8)
  | short (n : Int16)
  | int (n : Int32)
  | long (n : Int64)
  | char (unit : UInt16)
  | float (bits : UInt32)
  | double (bits : UInt64)
  | array (items : Option (List Value))
  | reference (text : Option String)
  deriving Repr

/-- What kind of value a value is. -/
inductive ValueKind where
  | scalar (kind : Scalar)
  | array
  | reference
  deriving DecidableEq, Repr

def ValueKind.name : ValueKind → String
  | .scalar kind => kind.keyword
  | .array => "array"
  | .reference => "reference"

def Value.kind : Value → ValueKind
  | .boolean _ => .scalar .boolean
  | .byte _ => .scalar .byte
  | .short _ => .scalar .short
  | .int _ => .scalar .int
  | .long _ => .scalar .long
  | .char _ => .scalar .char
  | .float _ => .scalar .float
  | .double _ => .scalar .double
  | .array _ => .array
  | .reference _ => .reference

/-- The kind of the values of a type. -/
def FieldType.kind : FieldType → ValueKind
  | .scalar kind => .scalar kind
  | .array _ => .array
  | .reference _ _ => .reference

/-- A value that is not of the type that its place has. -/
structure Mismatch where
  expected : FieldType
  found : ValueKind
  deriving DecidableEq, Repr

def Mismatch.message (m : Mismatch) : String :=
  "value type mismatch: expected " ++ m.expected.text ++ ", found " ++ m.found.name

/-- An instance of a value class: the type and the value of each field. -/
abbrev Instance :=
  List (FieldType × Value)

end ValueClass
