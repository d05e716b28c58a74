import ValueClass.Log
import ValueClass.Project.Build
import ValueClass.Project.SettingsFile

/-!
# Settings

Where the declarations are, where the sources go, and how a run behaves. What a settings file leaves
out has a default.

* `Settings.read` reads the text of a settings file.
* `Settings.load` finds the file.
* `Settings.override` lets the command line have the last word.
-/

namespace ValueClass

/-- How a run behaves. -/
structure Settings where
  source : Path := .ofString "src/main/scroole"
  output : Path := .ofString "target/generated-sources/scroole"
  /-- The name of the log level, in any case. -/
  level : String := "info"
  /-- Whether the declarations that do not fail are written when others do. -/
  keepGoing : Bool := false
  deriving DecidableEq, Repr

namespace Settings

/-- The file that is looked for in the working directory. -/
def fileName : Path :=
  .ofString "scroole.toml"

/-- The names of log levels in settings. -/
def levelNames : List String :=
  ["trace", "debug", "info", "warn", "error", "off"]

/-- The settings, if they make sense. -/
def validate (s : Settings) : Except SettingsFault Settings :=
  if s.source.bytes = [] then .error .emptySource
  else if s.output.bytes = [] then .error .emptyOutput
  else if lowerCase s.level ∈ levelNames then .ok s
  else .error (.unknownLevel s.level)

/-- The settings with the value of one key. -/
def set (s : Settings) (key : String) (value : SettingsFile.Value) : Option Settings :=
  match key, value with
  | "source_dir", .text text => some { s with source := .ofString text }
  | "output_dir", .text text => some { s with output := .ofString text }
  | "log_level", .text text => some { s with level := text }
  | "keep_going", .flag flag => some { s with keepGoing := flag }
  | _, _ => none

/-- The settings with the values of some keys, of which none may come twice. -/
def setAll (s : Settings) : List (String × SettingsFile.Value) → Option Settings
  | [] => some s
  | (key, value) :: rest =>
    if rest.any (·.1 == key) then none else (s.set key value).bind (setAll · rest)

/-- **The settings that a file holds.** -/
def read (text : String) : Except SettingsFault Settings :=
  match (SettingsFile.readPairs text).bind (setAll {}) with
  | none => .error .unreadable
  | some settings => settings.validate

/-- The settings in the file at a path. -/
def readFile (v : Volume) (p : Path) : Except ProjectFault Settings :=
  match v.readText p with
  | .error fault => .error (.io p fault)
  | .ok text => (read text).mapError .settings

/-- **The settings of a run**: of the given file, else of the file in the working directory if there
is one, else the defaults. -/
def load (v : Volume) (file : Option Path) : Except ProjectFault Settings :=
  match file with
  | some p => readFile v p
  | none => if v.isFile fileName then readFile v fileName else .ok {}

/-- **The settings with what the command line says** in place of what they say. -/
def override (s : Settings) (source output : Option Path) (keepGoing : Bool) :
    Except SettingsFault Settings :=
  validate
    { s with
      source := source.getD s.source
      output := output.getD s.output
      keepGoing := s.keepGoing || keepGoing }

def policy (s : Settings) : OnFailure :=
  if s.keepGoing then .writeOthers else .writeNothing

/-- The roots, if they can be checked. -/
def checkRoots (s : Settings) (v : Volume) : Except ProjectFault Roots :=
  Roots.toCheck v s.source s.output

/-- The roots, if they can be generated into. -/
def generationRoots (s : Settings) (v : Volume) : Except ProjectFault Roots :=
  Roots.toGenerate v s.source s.output

end Settings

end ValueClass
