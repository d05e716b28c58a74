/-!
# Field types

The type of a field is a scalar, an array, or a reference to a class, possibly with type arguments.
`FieldType.text` writes it the way declarations do.
-/

namespace ValueClass

/-- The primitive types. -/
inductive Scalar where
  | boolean
  | byte
  | short
  | int
  | long
  | char
  | float
  | double
  deriving DecidableEq, Repr

/-- The word for a primitive type. -/
def Scalar.keyword : Scalar → String
  | .boolean => "boolean"
  | .byte => "byte"
  | .short => "short"
  | .int => "int"
  | .long => "long"
  | .char => "char"
  | .float => "float"
  | .double => "double"

/-- Every primitive type. -/
def Scalar.all : List Scalar :=
  [.boolean, .byte, .short, .int, .long, .char, .float, .double]

/-- The primitive type of which the text is the word. -/
def Scalar.ofKeyword? (text : String) : Option Scalar :=
  Scalar.all.find? (·.keyword == text)

/-- The type of a field. -/
inductive FieldType where
  | scalar (kind : Scalar)
  | array (element : FieldType)
  | reference (name : String) (arguments : List FieldType)
  deriving Repr

namespace FieldType

mutual

/-- Two types are equal or not. -/
def decEq : (a b : FieldType) → Decidable (a = b)
  | .scalar k, .scalar l => decidable_of_iff (k = l) (by simp)
  | .array a, .array b =>
    match decEq a b with
    | isTrue h => isTrue (by rw [h])
    | isFalse h => isFalse (by simpa using h)
  | .reference n as, .reference m bs =>
    if hn : n = m then
      match decEqAll as bs with
      | isTrue h => isTrue (by rw [hn, h])
      | isFalse h => isFalse (by simp [h])
    else isFalse (by simp [hn])
  | .scalar _, .array _ => isFalse (by simp)
  | .scalar _, .reference _ _ => isFalse (by simp)
  | .array _, .scalar _ => isFalse (by simp)
  | .array _, .reference _ _ => isFalse (by simp)
  | .reference _ _, .scalar _ => isFalse (by simp)
  | .reference _ _, .array _ => isFalse (by simp)

/-- Two lists of types are equal or not. -/
def decEqAll : (as bs : List FieldType) → Decidable (as = bs)
  | [], [] => isTrue rfl
  | [], _ :: _ => isFalse (by simp)
  | _ :: _, [] => isFalse (by simp)
  | a :: as, b :: bs =>
    match decEq a b with
    | isFalse h => isFalse (by simp [h])
    | isTrue h =>
      match decEqAll as bs with
      | isTrue hs => isTrue (by rw [h, hs])
      | isFalse hs => isFalse (by simp [hs])

end

instance : DecidableEq FieldType :=
  decEq

/-- Whether values of the type are references to objects other than arrays. -/
def isReference : FieldType → Bool
  | .reference _ _ => true
  | _ => false

/-- The type of the elements of an array. -/
def element? : FieldType → Option FieldType
  | .array element => some element
  | _ => none

/-- Induction along the elements of arrays: the elements of an array come before the array. -/
theorem elementInduction {motive : FieldType → Prop}
    (step : ∀ type, (∀ element, type = .array element → motive element) → motive type) :
    ∀ type, motive type
  | .scalar _ => step _ (by nofun)
  | .array element => step _ fun _ h => by
    cases h
    exact elementInduction step element
  | .reference _ _ => step _ (by nofun)

/-- Whether the type is an array of arrays. -/
def isNestedArray : FieldType → Bool
  | .array (.array _) => true
  | _ => false

mutual

/-- The type with every reference name written as `write` says. -/
def spell (write : String → String) : FieldType → String
  | .scalar kind => kind.keyword
  | .array element => element.spell write ++ "[]"
  | .reference name arguments =>
    if arguments.isEmpty then write name
    else write name ++ "<" ++ String.intercalate ", " (spellAll write arguments) ++ ">"

/-- The types of a list, written one by one. -/
def spellAll (write : String → String) : List FieldType → List String
  | [] => []
  | type :: types => type.spell write :: spellAll write types

end

/-- **The normal form of a type's descriptor**: names as they were written, arguments divided by a
comma and one space. -/
def text (type : FieldType) : String :=
  type.spell id

mutual

/-- The reference names of a type: a class before its arguments, and those from left to right. -/
def names : FieldType → List String
  | .scalar _ => []
  | .array element => element.names
  | .reference name arguments => name :: namesAll arguments

/-- The reference names of a list of types. -/
def namesAll : List FieldType → List String
  | [] => []
  | type :: types => type.names ++ namesAll types

end

end FieldType

end ValueClass
