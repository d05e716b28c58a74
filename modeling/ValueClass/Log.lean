import ValueClass.Text.Quoted

/-!
# Log lines

What is reported besides the output, at five levels. The level that is shown is the one of the
settings, raised by each `-v` and lowered to errors by `-q`.
-/

namespace ValueClass

/-- How much a log line matters. -/
inductive LogLevel where
  | error
  | warn
  | info
  | debug
  | trace
  deriving DecidableEq, Repr

namespace LogLevel

/-- The levels, from the one that matters most. -/
def all : List LogLevel :=
  [.error, .warn, .info, .debug, .trace]

def name : LogLevel → String
  | .error => "error"
  | .warn => "warn"
  | .info => "info"
  | .debug => "debug"
  | .trace => "trace"

/-- The level with a name. -/
def ofName? (name : String) : Option LogLevel :=
  all.find? (·.name = name)

/-- The name at the beginning of a log line. -/
def label : LogLevel → String
  | .error => "ERROR"
  | .warn => "WARN"
  | .info => "INFO"
  | .debug => "DEBUG"
  | .trace => "TRACE"

/-- The place of a level among all levels. -/
def rank : LogLevel → Nat
  | .error => 0
  | .warn => 1
  | .info => 2
  | .debug => 3
  | .trace => 4

end LogLevel

/-- A log line. -/
structure LogLine where
  level : LogLevel
  message : String
  deriving DecidableEq, Repr

/-- How a character stands in a log line. Those that a terminal may take for the beginning of a
command are written by their code. -/
def shownChar (c : Char) : List Char :=
  match c with
  | '\x07' => ['\\', 'x', '0', '7']
  | '\x08' => ['\\', 'x', '0', '8']
  | '\x0c' => ['\\', 'x', '0', 'c']
  | '\x1b' => ['\\', 'x', '1', 'b']
  | '\x7f' => ['\\', 'x', '7', 'f']
  | _ => if 0x80 ≤ c.toNat ∧ c.toNat ≤ 0x9f then Text.codePointEscape c else [c]

def LogLine.text (l : LogLine) : String :=
  l.level.label ++ " " ++ String.ofList (l.message.toList.flatMap shownChar)

/-- A text with the letters from A to Z in lower case. -/
def lowerCase (text : String) : String :=
  String.ofList (text.toList.map Char.toLower)

/-- **The name of the last level that is shown**, `off` if nothing is. A level that is not known
counts as `info`. -/
def shownName (level : String) (verbose : Nat) (quiet : Bool) : String :=
  if quiet then LogLevel.error.name
  else if lowerCase level = "off" ∧ verbose = 0 then "off"
  else
    let base := (LogLevel.ofName? (lowerCase level)).getD .info
    (LogLevel.all[base.rank + verbose]?.getD .trace).name

/-- The lines that are shown up to the level with a name. -/
def shownLines (shown : String) (lines : List LogLine) : List LogLine :=
  match LogLevel.ofName? shown with
  | none => []
  | some last => lines.filter (·.level.rank ≤ last.rank)

end ValueClass
