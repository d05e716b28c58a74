import ValueClass.Command.Run

/-!
# The program

Runs a command line on files. The program does not look into directories: the files and directories
that it may use are named on standard input, one a line, and only those below the working directory
are found by relative paths. It works on a volume that holds what was named, and afterwards writes
what has changed on it.
-/

namespace ValueClass

/-- The lines of a stream. -/
partial def readNames (input : IO.FS.Stream) : IO (List String) := do
  let line ← input.getLine
  if line.isEmpty then return []
  let name := String.ofList (line.toList.filter (· ≠ '\n'))
  return name :: (← readNames input)

/-- The volume with a file or directory that was named. -/
def addNamed (v : Volume) (name : String) : IO Volume := do
  let p := Path.ofString name
  try
    let content ← IO.FS.readBinFile name
    let ready := (v.makeDirectories (p.parent?.getD ⟨[]⟩)).1
    match ready.write p content.data.toList with
    | .ok next => return next
    | .error _ => return ready
  catch _ => return (v.makeDirectories p).1

/-- A location as a path from the working directory where it is below that. -/
def pathTo (v : Volume) (location : Location) : String :=
  match List.isPrefixOf? v.working location with
  | some names => (Path.ofParts names).display
  | none => (Path.ofParts ([] :: location)).display

/-- Writes what a volume has that was not there before. -/
def writeChanges (before after : Volume) : IO Unit := do
  for (location, entry) in after.entries do
    if before.lookup location ≠ some entry then
      match entry with
      | .directory => IO.FS.createDirAll (pathTo after location)
      | .file content => IO.FS.writeBinFile (pathTo after location) ⟨⟨content⟩⟩

end ValueClass

open ValueClass in
def main (arguments : List String) : IO UInt32 := do
  let request := Request.ofArguments (arguments.map Text.utf8)
  let nothing := Volume.empty [Text.utf8 "working"]
  let before ← match request with
    | .run _ _ => (← readNames (← IO.getStdin)).foldlM addNamed nothing
    | _ => pure nothing
  let outcome := request.answer before
  writeChanges before outcome.volume
  IO.print outcome.output
  for line in outcome.log do
    IO.eprintln line.text
  IO.eprint outcome.errors
  return outcome.exitCode.toUInt32
