import ValueClass.Fault
import ValueClass.Volume

/-!
# What can go wrong in a project

Faults of the settings and of the files, besides those of single declarations.
-/

namespace ValueClass

/-- What is wrong with the settings. -/
inductive SettingsFault where
  /-- The file is not one of settings: it is malformed, or it has a key or a value that is not
  known. -/
  | unreadable
  | emptySource
  | emptyOutput
  | unknownLevel (level : String)
  deriving DecidableEq, Repr

def SettingsFault.message : SettingsFault → String
  | .unreadable => "TOML parse error"
  | .emptySource => "source_dir cannot be empty"
  | .emptyOutput => "output_dir cannot be empty"
  | .unknownLevel level =>
    "invalid log_level " ++ Text.quote level
      ++ ", expected one of trace, debug, info, warn, error, off"

/-- Why a project, or one of its declarations, cannot be worked on. -/
inductive ProjectFault where
  | sourceMissing (p : Path)
  | notADirectory (p : Path)
  | io (p : Path) (fault : IoFault)
  /-- The source root does not make a pattern. -/
  | badPattern
  /-- The path of a declaration gives no target. -/
  | noTarget (p : Path)
  | declaration (target : String) (fault : Fault)
  | settings (fault : SettingsFault)
  deriving DecidableEq, Repr

def ProjectFault.message : ProjectFault → String
  | .sourceMissing p => "source directory does not exist: " ++ p.quoted
  | .notADirectory p => "not a directory: " ++ p.quoted
  | .io p fault => "I/O error on " ++ p.quoted ++ ": " ++ fault.message
  | .badPattern => "invalid discovery pattern: Pattern syntax error"
  | .noTarget p => "path cannot be mapped to a target name: " ++ p.quoted
  | .declaration target fault => target ++ ": " ++ fault.message
  | .settings fault => "configuration error: " ++ fault.message

/-- The message of the fault inside, if there is one. -/
def ProjectFault.cause? : ProjectFault → Option String
  | .io _ fault => some fault.message
  | .declaration _ fault => some fault.message
  | _ => none

end ValueClass
