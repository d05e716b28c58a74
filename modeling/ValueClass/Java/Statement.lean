/-!
# Expressions and statements

What the generated methods are made of, and how it is written.

* `Expr` and `Statement` have the forms that `hashCode` and `equals` use.
* `Expr.text` and `Statement.text` write them. Brackets stand where the forms in use need them.
-/

namespace ValueClass.Java

/-- An expression in a method body. -/
inductive Expr where
  /-- A name by itself: a variable if the method has one of that name, a field otherwise. -/
  | name (id : String)
  /-- A field of this object. -/
  | ofThis (field : String)
  /-- A field of the object in the variable `that`. -/
  | ofThat (field : String)
  | null
  | number (n : Int32)
  | product (a b : Expr)
  | sum (a b : Expr)
  | exclusiveOr (a b : Expr)
  /-- The upper half of a 64-bit word. -/
  | upperHalf (e : Expr)
  /-- The lower 32 bits of a word. -/
  | toInt (e : Expr)
  | same (a b : Expr)
  | choice (condition yes no : Expr)
  /-- The hash code of an object. -/
  | objectHash (e : Expr)
  /-- The word of a single precision number, by a method of the class `owner`. -/
  | floatBits (owner : String) (e : Expr)
  /-- The word of a double precision number. -/
  | doubleBits (owner : String) (e : Expr)
  /-- The hash code of the items of an array, going into arrays of arrays if `deep`. -/
  | arrayHash (owner : String) (deep : Bool) (e : Expr)
  /-- Whether two arrays have equal items. -/
  | arrayEquals (owner : String) (deep : Bool) (a b : Expr)
  /-- Whether two objects are equal, by the helper method of the unit. -/
  | nullSafeEquals (a b : Expr)
  /-- Whether two objects are equal, by the method of the first. -/
  | objectEquals (a b : Expr)
  | truth
  /-- Whether both conditions hold. The second is looked at only if the first holds. -/
  | both (a b : Expr)
  deriving DecidableEq, Repr

/-- A statement in a method body. -/
inductive Statement where
  | declareInt (id : String) (e : Expr)
  | declareLong (id : String) (e : Expr)
  | assign (id : String) (e : Expr)
  | returns (e : Expr)
  /-- Returns one of two values, as the condition says. -/
  | returnsEither (condition yes no : Expr)
  deriving DecidableEq, Repr

/-- The text of an expression. -/
def Expr.text : Expr → String
  | .name id => id
  | .ofThis field => "this." ++ field
  | .ofThat field => "that." ++ field
  | .null => "null"
  | .number n => toString n
  | .product a b => a.text ++ " * " ++ b.text
  | .sum a b => a.text ++ " + " ++ b.text
  | .exclusiveOr a b => a.text ++ " ^ " ++ b.text
  | .upperHalf e => "(" ++ e.text ++ " >>> 32)"
  | .toInt e => "(int) (" ++ e.text ++ ")"
  | .same a b => a.text ++ " == " ++ b.text
  | .choice condition yes no =>
    "(" ++ condition.text ++ " ? " ++ yes.text ++ " : " ++ no.text ++ ")"
  | .objectHash e => e.text ++ ".hashCode()"
  | .floatBits owner e => owner ++ ".floatToIntBits(" ++ e.text ++ ")"
  | .doubleBits owner e => owner ++ ".doubleToLongBits(" ++ e.text ++ ")"
  | .arrayHash owner deep e =>
    owner ++ (if deep then ".deepHashCode(" else ".hashCode(") ++ e.text ++ ")"
  | .arrayEquals owner deep a b =>
    owner ++ (if deep then ".deepEquals(" else ".equals(") ++ a.text ++ ", " ++ b.text ++ ")"
  | .nullSafeEquals a b => "equals(" ++ a.text ++ ", " ++ b.text ++ ")"
  | .objectEquals a b => a.text ++ ".equals(" ++ b.text ++ ")"
  | .truth => "true"
  | .both a b => a.text ++ "\n            && " ++ b.text

/-- The text of a statement, without the indentation of its first line and its last line end. -/
def Statement.text : Statement → String
  | .declareInt id e => "int " ++ id ++ " = " ++ e.text ++ ";"
  | .declareLong id e => "long " ++ id ++ " = " ++ e.text ++ ";"
  | .assign id e => id ++ " = " ++ e.text ++ ";"
  | .returns e => "return " ++ e.text ++ ";"
  | .returnsEither condition yes no =>
    "if (" ++ condition.text ++ ")\n        return " ++ yes.text
      ++ ";\n    else\n        return " ++ no.text ++ ";"

end ValueClass.Java
