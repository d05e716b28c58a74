import ValueClass.FieldType
import ValueClass.Instance.Rule
import ValueClass.Instance.Word
import ValueClass.Java.Accessor
import ValueClass.Java.Statement

/-!
# Bodies of the generated methods

The `hashCode` and `equals` methods, as statements and expressions.

* `Member` is a field as the methods see it.
* `LibrarySpelling` says how the methods name the classes of the library.
* `hashStatements` is the body of `hashCode`.
* `equalsResult` is what `equals` returns in the end.
* `helperStatements` is the body of the helper method for references.
-/

namespace ValueClass.Java

/-- A field of the unit: its type, and how the unit writes the type. -/
structure Member where
  name : String
  documentation : String
  type : FieldType
  spelled : String
  deriving DecidableEq, Repr

/-- How the generated methods name the classes of the library. -/
structure LibrarySpelling where
  object : String
  override : String
  floatInHash : String
  doubleInHash : String
  floatInEquals : String
  doubleInEquals : String
  arrays : String
  deriving DecidableEq, Repr

/-- A field of this object, in a method with the given variables. A variable hides the field of its
name. -/
def fieldIn (locals : List String) (field : String) : Expr :=
  if field ∈ locals then .ofThis field else .name field

/-- The two halves of a 64-bit word, laid over each other. -/
def folded (word : Expr) : Expr :=
  .toInt (.exclusiveOr word (.upperHalf word))

/-- What a field adds to the hash code. The word of a double precision number is in `temp`. -/
def contribution (library : LibrarySpelling) (type : FieldType) (field : Expr) : Expr :=
  match type.hashRule with
  | .value => field
  | .constants => .choice field (.number trueHash) (.number falseHash)
  | .foldedLong => folded field
  | .floatBits => .floatBits library.floatInHash field
  | .foldedDouble => folded (.name "temp")
  | .items => .arrayHash library.arrays false field
  | .nestedItems => .arrayHash library.arrays true field
  | .objectOrNull => .choice (.same field .null) (.number 0) (.objectHash field)

/-- The statement that adds a field to `result`, with fields referred to as `field` says. -/
def addStatement (library : LibrarySpelling) (field : String → Expr) (m : Member) : Statement :=
  .assign "result" (.sum (.product (.name "prime") (.name "result"))
    (contribution library m.type (field m.name)))

/-- The statements that add the fields to `result`. The first field of double precision declares
`temp`. -/
def addingStatements (library : LibrarySpelling) (field : String → Expr) (declared : Bool) :
    List Member → List Statement
  | [] => []
  | m :: rest =>
    if m.type.hashRule = .foldedDouble then
      let word := Expr.doubleBits library.doubleInHash (field m.name)
      let store := if declared then Statement.assign "temp" word else .declareLong "temp" word
      store :: addStatement library field m :: addingStatements library field true rest
    else addStatement library field m :: addingStatements library field declared rest

/-- The body of a hash code method, with fields referred to as `field` says. -/
def hashBody (library : LibrarySpelling) (field : String → Expr) (members : List Member) :
    List Statement :=
  .declareInt "prime" (.number hashPrime) :: .declareInt "result" (.number hashSeed) ::
    addingStatements library field false members ++ [.returns (.name "result")]

/-- **The body of `hashCode`.** -/
def hashStatements (library : LibrarySpelling) (members : List Member) : List Statement :=
  hashBody library (fieldIn hashVariables) members

/-- The comparison of a field of this object, referred to as `mine`, with the same field of
`that`. -/
def comparison (library : LibrarySpelling) (mine : Expr) (m : Member) : Expr :=
  let theirs := Expr.ofThat m.name
  match m.type.equalityRule with
  | .value => .same mine theirs
  | .floatBits =>
    .same (.floatBits library.floatInEquals mine) (.floatBits library.floatInEquals theirs)
  | .doubleBits =>
    .same (.doubleBits library.doubleInEquals mine) (.doubleBits library.doubleInEquals theirs)
  | .items => .arrayEquals library.arrays false mine theirs
  | .nestedItems => .arrayEquals library.arrays true mine theirs
  | .objectOrNull => .nullSafeEquals mine theirs

/-- Whether all conditions hold, looked at from left to right. -/
def conjunction : List Expr → Expr
  | [] => .truth
  | first :: rest => rest.foldl .both first

/-- The comparison of all fields, with fields of this object referred to as `field` says. -/
def comparisonOfAll (library : LibrarySpelling) (field : String → Expr) (members : List Member) :
    Expr :=
  conjunction (members.map fun m => comparison library (field m.name) m)

/-- **What `equals` returns** for another object of the class. -/
def equalsResult (library : LibrarySpelling) (members : List Member) : Expr :=
  comparisonOfAll library (fieldIn equalsVariables) members

/-- **The body of the helper method**, which compares two references. -/
def helperStatements : List Statement :=
  [.returnsEither (.same (.name "left") .null) (.same (.name "right") .null)
    (.objectEquals (.name "left") (.name "right"))]

/-- Whether some comparison needs the helper method. -/
def needsHelper (members : List Member) : Bool :=
  members.any (·.type.isReference)

end ValueClass.Java
