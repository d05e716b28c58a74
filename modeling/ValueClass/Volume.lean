import ValueClass.Path

/-!
# Volumes

Files and directories as a value. A volume lists what is on it by location, and knows the directory
that relative paths start from. The root directory is always there.

Links and special files are left out, and so are permissions but for one: a directory may be one
whose entries cannot be listed. What is in it can be used all the same by one who knows its name.

* `Volume.resolve` finds the location of a path.
* `Volume.read`, `Volume.makeDirectory`, `Volume.makeAll` and `Volume.write` work on one path, and
  tell why they fail.
* `Volume.below` lists what is in a directory and in those below it.
-/

namespace ValueClass

/-- Why a file or directory cannot be used. -/
inductive IoFault where
  | notFound
  | alreadyExists
  | notADirectory
  | isADirectory
  | accessDenied
  | notText
  deriving DecidableEq, Repr

def IoFault.message : IoFault → String
  | .notFound => "No such file or directory (os error 2)"
  | .alreadyExists => "File exists (os error 17)"
  | .notADirectory => "Not a directory (os error 20)"
  | .isADirectory => "Is a directory (os error 21)"
  | .accessDenied => "Permission denied (os error 13)"
  | .notText => "stream did not contain valid UTF-8"

/-- The names that lead from the root directory to a file or directory. -/
abbrev Location :=
  List Name

/-- What is at a location. -/
inductive Entry where
  | file (content : List UInt8)
  | directory
  deriving DecidableEq, Repr

/-- Files and directories. -/
structure Volume where
  /-- What there is besides the root directory, each location once. -/
  entries : List (Location × Entry)
  /-- Where relative paths start. -/
  working : Location
  /-- The directories whose entries cannot be listed. -/
  closed : List Location
  deriving DecidableEq, Repr

namespace Volume

/-- A volume with nothing but its working directory. -/
def empty (working : Location) : Volume :=
  ⟨(List.range working.length).map fun n => (working.take (n + 1), .directory), working, []⟩

/-- What is at a location. -/
def lookup (v : Volume) (location : Location) : Option Entry :=
  if location = [] then some .directory else v.entries.lookup location

/-- Replaces what is at a location of the list, or adds it at the end. -/
def putEntry (location : Location) (entry : Entry) :
    List (Location × Entry) → List (Location × Entry)
  | [] => [(location, entry)]
  | (l, e) :: rest =>
    if l = location then (l, entry) :: rest else (l, e) :: putEntry location entry rest

/-- The volume with something new at a location. -/
def put (v : Volume) (location : Location) (entry : Entry) : Volume :=
  { v with entries := putEntry location entry v.entries }

/-- Follows the parts of a path from a location. Only directories have something in them. -/
def follow (v : Volume) (location : Location) : List Name → Except IoFault Location
  | [] => .ok location
  | part :: rest =>
    if v.lookup location ≠ some .directory then .error .notADirectory
    else if part = [] ∨ part = [dot] then v.follow location rest
    else if part = [dot, dot] then v.follow location.dropLast rest
    else
      match v.lookup (location ++ [part]) with
      | none => .error .notFound
      | some _ => v.follow (location ++ [part]) rest

/-- Where a path starts. -/
def startOf (v : Volume) (p : Path) : Location :=
  if p.isAbsolute then [] else v.working

/-- **The location of a path.** The empty path has none. -/
def resolve (v : Volume) (p : Path) : Except IoFault Location :=
  if p.bytes = [] then .error .notFound else v.follow (v.startOf p) p.parts

/-- What a path leads to. -/
def entry? (v : Volume) (p : Path) : Option Entry :=
  match v.resolve p with
  | .ok location => v.lookup location
  | .error _ => none

def exists? (v : Volume) (p : Path) : Bool :=
  (v.entry? p).isSome

def isDirectory (v : Volume) (p : Path) : Bool :=
  v.entry? p == some .directory

def isFile (v : Volume) (p : Path) : Bool :=
  match v.entry? p with
  | some (.file _) => true
  | _ => false

/-- **The content of a file.** -/
def read (v : Volume) (p : Path) : Except IoFault (List UInt8) :=
  match v.resolve p with
  | .error fault => .error fault
  | .ok location =>
    match v.lookup location with
    | some (.file content) => .ok content
    | some .directory => .error .isADirectory
    | none => .error .notFound

/-- The content of a file as text. -/
def readText (v : Volume) (p : Path) : Except IoFault String :=
  match v.read p with
  | .error fault => .error fault
  | .ok content =>
    match Text.ofUtf8? content with
    | some text => .ok text
    | none => .error .notText

/-- The directory that is to hold the last name of the given parts, and that name. The name is empty
where the parts end in a dot or two, or have no end. -/
def place (v : Volume) (start : Location) (parts : List Name) : Except IoFault (Location × Name) :=
  match v.follow start parts.dropLast with
  | .error fault => .error fault
  | .ok directory =>
    if v.lookup directory ≠ some .directory then .error .notADirectory
    else
      let name := parts.getLast?.getD []
      if name = [dot] ∨ name = [dot, dot] then .ok (directory, []) else .ok (directory, name)

/-- **Makes a directory** in one that exists. -/
def makeDirectory (v : Volume) (p : Path) : Except IoFault Volume :=
  if p.bytes = [] then .error .notFound
  else
    let parts := (p.parts.reverse.dropWhile List.isEmpty).reverse
    match v.place (v.startOf p) parts with
    | .error fault => .error fault
    | .ok (directory, name) =>
      if name = [] then .error .alreadyExists
      else
        match v.lookup (directory ++ [name]) with
        | some _ => .error .alreadyExists
        | none => .ok (v.put (directory ++ [name]) .directory)

/-- Makes the first of some directories, each being in the next one, and those of the others that
are missing. Gives the volume afterwards, and what stopped it. -/
def makeAll (v : Volume) : List Path → Volume × Option IoFault
  | [] => (v, none)
  | p :: above =>
    if p.bytes = [] then (v, none)
    else
      match v.makeDirectory p with
      | .ok made => (made, none)
      | .error .notFound =>
        match v.makeAll above with
        | (ready, some fault) => (ready, some fault)
        | (ready, none) =>
          match ready.makeDirectory p with
          | .ok made => (made, none)
          | .error fault => (ready, if ready.isDirectory p then none else some fault)
      | .error fault => (v, if v.isDirectory p then none else some fault)

/-- **Makes a directory and all those above it** that are missing. A directory that is there already
is left as it is. -/
def makeDirectories (v : Volume) (p : Path) : Volume × Option IoFault :=
  v.makeAll p.ancestors

/-- **Writes a file**, new or in place of what it held. -/
def write (v : Volume) (p : Path) (content : List UInt8) : Except IoFault Volume :=
  if p.bytes = [] then .error .notFound
  else
    match v.place (v.startOf p) p.parts with
    | .error fault => .error fault
    | .ok (directory, name) =>
      if name = [] ∨ v.lookup (directory ++ [name]) = some .directory then .error .isADirectory
      else .ok (v.put (directory ++ [name]) (.file content))

/-- The names that lead from a location to what is at or below it. -/
def namesBelow (v : Volume) (location : Location) : List (List Name) :=
  [] :: (v.entries.filterMap fun (l, _) => List.isPrefixOf? location l).filter (· ≠ [])

/-- The names that lead from a location to what is at or below it, in byte order name by name. So
those of a directory stand before those of what is in it. -/
def below (v : Volume) (location : Location) : List (List Name) :=
  (v.namesBelow location).mergeSort fun a b => !decide (b < a)

/-- Whether a path leads to a directory whose entries cannot be listed. -/
def isClosed (v : Volume) (p : Path) : Bool :=
  match v.resolve p with
  | .ok location => v.closed.contains location
  | .error _ => false

end Volume

end ValueClass
