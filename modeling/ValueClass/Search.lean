import ValueClass.Volume

/-!
# Searching a volume

A pattern is a text that says which paths are looked for. The patterns here end in `/**/*` and an
ending: they ask for what is below a directory, at any depth, and has a name with that ending. In
the text of the directory `[c]` stands for the byte `c`, whatever meaning it has otherwise.

* `Pattern.escape` makes a text stand for itself, and `Pattern.read?` reads a pattern.
* `walk` goes to the directory of a pattern, part by part.
* `Volume.search` finds what a pattern asks for. A directory that has to be listed and cannot be is
  found too, as an error in place of what is in it.
-/

namespace ValueClass

open Text

/-- A part of the directory of a pattern. -/
structure PatternPart where
  name : Name
  /-- Whether a bracket stands in it. Then the name is looked for among the entries of the directory
  it is in, else it is looked up. -/
  bracketed : Bool
  deriving DecidableEq, Repr

/-- What a pattern asks for: below a directory, whatever has a name with the ending. -/
structure Pattern where
  absolute : Bool
  directory : List PatternPart
  ending : Name
  deriving DecidableEq, Repr

namespace Pattern

/-- The bytes that have a meaning in patterns: `*`, `?`, `[` and `]`. -/
def isWild (b : UInt8) : Bool :=
  b == 0x2a || b == 0x3f || b == 0x5b || b == 0x5d

/-- **A text as part of a pattern**, in which it stands for itself. -/
def escape (text : List UInt8) : List UInt8 :=
  text.flatMap fun b => if isWild b then [0x5b, b, 0x5d] else [b]

/-- What a text stands for in which some bytes are in brackets. -/
def unbracket : List UInt8 → List UInt8
  | 0x5b :: b :: 0x5d :: rest => b :: unbracket rest
  | b :: rest => b :: unbracket rest
  | [] => []

/-- **Reads the text of a pattern.** None if it does not end in `/**/*` and an ending. -/
def read? (text : List UInt8) : Option Pattern :=
  let absolute := text.head? == some slash
  match (List.splitOn slash (if absolute then text.tail else text)).reverse with
  | (0x2a :: ending) :: [0x2a, 0x2a] :: directory =>
    some ⟨absolute, directory.reverse.map fun part => ⟨unbracket part, part.contains 0x5b⟩, ending⟩
  | _ => none

end Pattern

/-- One step to the directory of a pattern. What comes after nothing but dots starts anew. -/
def step (v : Volume) (here : Path) (part : Name) : Option Path :=
  let next : Path := if here.components = [.current] then ⟨part⟩ else here.push part
  if part = [dot] ∨ part = [dot, dot] then if v.isDirectory here then some next else none
  else if v.exists? next then some next
  else none

/-- Steps one after the other, as far as all of them lead somewhere. Fails with a directory that
cannot be listed, if the next part makes it necessary. -/
def steps (v : Volume) (here : Path) : List PatternPart → Except Path (Option Path)
  | [] => .ok (some here)
  | part :: rest =>
    if part.bracketed && v.isClosed here then .error here
    else
      match step v here part.name with
      | some next => steps v next rest
      | none => .ok none

/-- Goes to the directory of a pattern, from the root directory or from a single dot. -/
def walk (v : Volume) (pattern : Pattern) : Except Path (Option Path) :=
  steps v (if pattern.absolute then ⟨[slash]⟩ else ⟨[dot]⟩) pattern.directory

/-- Goes on from a path by names. After a single dot the names stand alone. -/
def pushNames (base : Path) (names : List Name) : Path :=
  names.foldl Path.push (if base.components = [.current] then ⟨[]⟩ else base)

/-- Whether the last name is text and has an ending. -/
def hasEnding (ending : Name) (names : List Name) : Bool :=
  match names.getLast? with
  | some name => (ofUtf8? name).isSome && ending.isSuffixOf name
  | none => false

namespace Volume

/-- Whether the directories that names lead through can all be listed. -/
def reaches (v : Volume) (location : Location) (names : List Name) : Bool :=
  (List.range names.length).all fun n => !v.closed.contains (location ++ names.take n)

/-- What is found where some names lead to from the directory of a pattern: the path that goes on by
them, if the ending is right, and then the directory there, if it cannot be listed. -/
def foundAt (v : Volume) (base : Path) (location : Location) (ending : Name) (names : List Name) :
    List (Except Path Path) :=
  let path := if names = [] then base else pushNames base names
  (if hasEnding ending names then [.ok path] else [])
    ++ (if v.closed.contains (location ++ names) then [.error path] else [])

/-- **Finds what a pattern asks for**, in the order of the directories. -/
def search (v : Volume) (pattern : Pattern) : List (Except Path Path) :=
  match walk v pattern with
  | .error p => [.error p]
  | .ok none => []
  | .ok (some base) =>
    match v.resolve base with
    | .error _ => []
    | .ok location =>
      ((v.below location).filter (v.reaches location)).flatMap
        (v.foundAt base location pattern.ending)

end Volume

end ValueClass
