import ValueClass.Command.Arguments
import ValueClass.Declaration.Json
import ValueClass.Project.Report
import ValueClass.Project.Settings

/-!
# Running commands

A command works on a volume. It gives the volume afterwards, what it prints, and what it logs.

* `describeText` shows one declaration.
* `Command.run` runs a command.
* `Request.answer` runs a command line.
-/

namespace ValueClass

/-- Why a command failed: a message, and the messages of what caused it, each the cause of the one
before. -/
structure Failure where
  message : String
  causes : List String := []
  deriving DecidableEq, Repr

/-- A fault with nothing said about what failed because of it. -/
def Failure.ofFault (fault : ProjectFault) : Failure :=
  ⟨fault.message, fault.cause?.toList⟩

/-- A fault, with what failed because of it. -/
def Failure.because (message : String) (fault : ProjectFault) : Failure :=
  ⟨message, fault.message :: fault.cause?.toList⟩

/-- Every line but the first indented. -/
def indentRest (indent : String) (text : String) : String :=
  String.intercalate ("\n" ++ indent) ((List.splitOn '\n' text.toList).map String.ofList)

/-- The causes below each other, numbered from zero if there are several. -/
def causeLines (causes : List String) : String :=
  match causes with
  | [] => ""
  | [cause] => "\n\nCaused by:\n    " ++ indentRest "    " cause
  | causes =>
    "\n\nCaused by:" ++ String.join (causes.zipIdx.map fun (cause, n) =>
      let number := toString n
      "\n" ++ String.ofList (List.replicate (5 - number.length) ' ') ++ number ++ ": "
        ++ indentRest "       " cause)

/-- What is printed about a failure. -/
def Failure.text (f : Failure) : String :=
  "Error: " ++ f.message ++ causeLines f.causes ++ "\n"

/-- What a run leaves behind. -/
structure Outcome where
  exitCode : Nat
  output : String
  errors : String
  log : List LogLine
  volume : Volume

/-- A run that fails, after printing something. -/
def Outcome.failed (v : Volume) (output errors : String) (log : List LogLine) (f : Failure) :
    Outcome :=
  ⟨1, output, errors ++ f.text, log, v⟩

/-- The lines about what failed. -/
def failureLines (failures : List ProjectFault) : String :=
  String.join (failures.map fun fault => "✗ " ++ fault.message ++ "\n")

/-- The failure of a generation in which some declarations failed. -/
def GenerationResult.failure (r : GenerationResult) : Failure :=
  let failed := toString r.failures.length ++ " declaration(s) failed, "
  ⟨if r.written.isEmpty then failed ++ "nothing was written"
    else failed ++ toString r.written.length ++ " file(s) written", []⟩

/-- Generates every class, under the settings that were loaded. -/
def runGenerate (v : Volume) (s : Settings) : Outcome :=
  let heading :=
    "Generating Java sources: " ++ s.source.display ++ " -> " ++ s.output.display ++ "\n"
  match s.generationRoots v with
  | .error fault => .failed v heading "" [] (.because "Invalid source or output directory" fault)
  | .ok roots =>
    let generation := roots.generate s.policy v
    let log := roots.generationLog s.policy v
    match generation.result with
    | .error fault =>
      .failed generation.volume heading "" log (.because "Failed to write generated sources" fault)
    | .ok report =>
      let output := heading ++ String.join (report.written.map fun p => "✓ " ++ p.display ++ "\n")
      if report.failures.isEmpty then
        ⟨0, output ++ "\nGenerated " ++ toString report.written.length ++ " file(s)\n", "", log,
          generation.volume⟩
      else
        .failed generation.volume output (failureLines report.failures) log report.failure

/-- Checks every declaration, under the settings that were loaded. -/
def runCheck (v : Volume) (s : Settings) : Outcome :=
  let heading := "Checking declarations in " ++ s.source.display ++ "\n"
  match s.checkRoots v with
  | .error fault => .failed v heading "" [] (.because "Invalid source directory" fault)
  | .ok roots =>
    let log := roots.checkLog v
    match roots.check v with
    | .error fault => .failed v heading "" log (.ofFault fault)
    | .ok report =>
      let output := heading ++ String.join (report.passed.map fun target => "✓ " ++ target ++ "\n")
      let passed := report.passed.length
      let failed := report.failures.length
      if failed = 0 then
        ⟨0, output ++ "\nAll " ++ toString passed ++ " declaration(s) are valid!\n", "", log, v⟩
      else
        .failed v output (failureLines report.failures) log
          ⟨toString failed ++ " of " ++ toString (failed + passed) ++ " declaration(s) failed", []⟩

/-- **One declaration, as the source of its class or as JSON.** -/
def describeText (target declaration : String) (json : Bool) : Except Failure String :=
  match Description.read target declaration with
  | .error fault => .error ⟨"Failed to parse " ++ target, [fault.message]⟩
  | .ok d =>
    if json then .ok d.json
    else (Java.sourceOf d).mapError fun fault => ⟨"Failed to generate " ++ target, [fault.message]⟩

/-- The target of a file by itself: its name without the ending. -/
def targetOfFile (file : Path) : Except Failure String :=
  match (file.fileName?.map Path.stem).bind Text.ofUtf8? with
  | some target => .ok target
  | none => .error ⟨"Cannot derive a class name from " ++ file.quoted, []⟩

/-- What a description prints. -/
def describeFile (v : Volume) (file : Path) (name : Option String) (json : Bool) :
    Except Failure String := do
  let declaration ← (v.readText file).mapError fun fault =>
    (⟨"Failed to read declaration: " ++ file.quoted, [fault.message]⟩ : Failure)
  let target ← match name with
    | some name => .ok name
    | none => targetOfFile file
  let text ← describeText target declaration json
  return if json then text ++ "\n" else text

/-- Shows one declaration. -/
def runDescribe (v : Volume) (file : Path) (name : Option String) (json : Bool) : Outcome :=
  let log : List LogLine :=
    if file.fileName?.bind Path.extension? = some (sourceEnding.drop 1) then []
    else [⟨.warn, file.quoted ++ " does not have the .scroole suffix"⟩]
  match describeFile v file name json with
  | .error failure => .failed v "" "" log failure
  | .ok text => ⟨0, text, "", log, v⟩

/-- A run under the settings of a file and of the command line. -/
def underSettings (v : Volume) (verbosity : Verbosity) (file source output : Option Path)
    (keepGoing : Bool) (run : Settings → Outcome) : Outcome :=
  match Settings.load v file with
  | .error fault => .failed v "" "" [] (.because "Failed to load configuration" fault)
  | .ok loaded =>
    match loaded.override source output keepGoing with
    | .error fault => .failed v "" "" [] (.ofFault (.settings fault))
    | .ok settings =>
      let outcome := run settings
      let shown := shownName loaded.level verbosity.verbose verbosity.quiet
      { outcome with log := shownLines shown outcome.log }

/-- **Runs a command.** The log lines are those that are shown. -/
def Command.run (v : Volume) (verbosity : Verbosity) : Command → Outcome
  | .generate source output settings keepGoing =>
    underSettings v verbosity settings source output keepGoing (runGenerate v)
  | .check source settings => underSettings v verbosity settings source none false (runCheck v)
  | .describe file name json =>
    let outcome := runDescribe v file name json
    let shown := shownName ({} : Settings).level verbosity.verbose verbosity.quiet
    { outcome with log := shownLines shown outcome.log }

/-- How the program is called. -/
def usage : String :=
  "Usage: scroole [OPTIONS] <COMMAND>\n\nCommands:\n"
    ++ "  generate  [-s DIR] [-o DIR] [-c FILE] [-k]\n"
    ++ "  check     [-s DIR] [-c FILE]\n"
    ++ "  describe  [-n NAME] [--json] FILE\n\nOptions:\n"
    ++ "  -v, --verbose\n  -q, --quiet\n  -h, --help\n  -V, --version\n"

/-- **Runs a command line.** -/
def Request.answer (v : Volume) : Request → Outcome
  | .misuse => ⟨2, "", usage, [], v⟩
  | .version => ⟨0, "scroole 0.3.0\n", "", [], v⟩
  | .help => ⟨0, usage, "", [], v⟩
  | .run verbosity command => command.run v verbosity

end ValueClass
