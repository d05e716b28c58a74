import ValueClass.Project.Fault

/-!
# Where declarations and classes are

The path of a declaration below the source root names its class: `com/example/Person.scroole` is the
declaration of `com.example.Person`, whose source is written to `com/example/Person.java` below the
output root.
-/

namespace ValueClass

open Text

/-- The ending of declaration files. -/
def sourceEnding : List UInt8 :=
  utf8 ".scroole"

/-- The names of some steps, where all are names. Staying where one is counts for nothing. -/
def directoryNames : List Path.Component → Option (List String)
  | [] => some []
  | .current :: rest => directoryNames rest
  | .name name :: rest =>
    match ofUtf8? name, directoryNames rest with
    | some segment, some segments => some (segment :: segments)
    | _, _ => none
  | .root :: _ => none
  | .parent :: _ => none

/-- **The target of a declaration**, from its path below the source root. -/
def targetOfPath (relative : Path) : Except ProjectFault String :=
  match (relative.fileName?.map Path.stem).bind ofUtf8?,
      directoryNames relative.components.dropLast with
  | some stem, some segments => .ok (String.intercalate "." (segments ++ [stem]))
  | _, _ => .error (.noTarget relative)

/-- Goes on from a path by the segments of a target, the last one with the ending of sources. -/
def pushSegments (p : Path) : List (List Char) → Path
  | [] => p
  | [last] => p.push (utf8 (String.ofList last ++ ".java"))
  | segment :: next :: rest => pushSegments (p.push (utf8 (String.ofList segment))) (next :: rest)

/-- **Where the source of a class is written**, below the output root. -/
def pathOfTarget (output : Path) (target : String) : Path :=
  pushSegments output (List.splitOn '.' target.toList)

end ValueClass
