import ValueClass.Text.Quoted

/-!
# What can be wrong with a declaration

Each fault names its cause; `Fault.message` words it.
-/

namespace ValueClass

/-- What is wrong with a target name. -/
inductive TargetFlaw where
  | empty
  | emptySegment
  | blank
  deriving DecidableEq, Repr

def TargetFlaw.reason : TargetFlaw → String
  | .empty => "name is empty"
  | .emptySegment => "name has an empty segment"
  | .blank => "name contains whitespace"

/-- What is wrong with a type descriptor. -/
inductive DescriptorFlaw where
  | empty
  | wildcard
  | bareSuffix
  | noBaseName
  | unopened
  | unclosed
  | textAfterClosing
  | emptyArgument
  deriving DecidableEq, Repr

def DescriptorFlaw.reason : DescriptorFlaw → String
  | .empty => "descriptor is empty"
  | .wildcard => "wildcard type arguments are not supported"
  | .bareSuffix => "array suffix without element type"
  | .noBaseName => "type arguments without base name"
  | .unopened => "unbalanced '>'"
  | .unclosed => "unbalanced '<'"
  | .textAfterClosing => "unexpected text after closing '>'"
  | .emptyArgument => "empty type argument"

/-- Why a declaration cannot be read, or no class be generated from it. -/
inductive Fault where
  /-- The target is no qualified class name. -/
  | target (name : String) (flaw : TargetFlaw)
  /-- A line is neither blank, nor documentation, nor a field. Lines count from one. -/
  | field (line : Nat) (content : String)
  /-- The text is no type descriptor. -/
  | descriptor (text : String) (flaw : DescriptorFlaw)
  /-- The text names a type that no field can have. -/
  | unsupported (text : String)
  deriving DecidableEq, Repr

def Fault.message : Fault → String
  | .target name flaw => "invalid target name " ++ Text.quote name ++ ": " ++ flaw.reason
  | .field line content =>
    "malformed field declaration on line " ++ toString line ++ ": " ++ Text.quote content
  | .descriptor text flaw => "malformed type descriptor " ++ Text.quote text ++ ": " ++ flaw.reason
  | .unsupported text => "unsupported type category: " ++ text

end ValueClass
