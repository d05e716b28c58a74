import ValueClass.Path

/-!
# Command line arguments

A command line names a command, and has options before and after its name. An option is a flag or
takes a value; it has a long name, mostly also a letter. Letters can be put together (`-kq`), and a
value can follow in the same argument (`-sX`, `-s=X`, `--source=X`) or in the next one. After `--`
all arguments stand for themselves.

* `Command` is what is to be done.
* `Request.ofArguments` reads a command line.
-/

namespace ValueClass

open Text

/-- What is to be done. -/
inductive Command where
  /-- Generate every class. -/
  | generate (source output settings : Option Path) (keepGoing : Bool)
  /-- Generate every class and write none. -/
  | check (source settings : Option Path)
  /-- Show one declaration. -/
  | describe (file : Path) (name : Option String) (json : Bool)
  deriving DecidableEq, Repr

/-- How much is to be logged. -/
structure Verbosity where
  verbose : Nat := 0
  quiet : Bool := false
  deriving DecidableEq, Repr

/-- What a command line asks for. -/
inductive Request where
  /-- The command line cannot be understood. -/
  | misuse
  | version
  | help
  | run (verbosity : Verbosity) (command : Command)
  deriving DecidableEq, Repr

/-- The options without a value. -/
inductive Flag where
  | verbose
  | quiet
  | version
  | help
  | keepGoing
  | json
  deriving DecidableEq, Repr

/-- The options with a value. -/
inductive Parameter where
  | source
  | output
  | settings
  | name
  deriving DecidableEq, Repr

/-- The names of an option. -/
structure OptionNames where
  long : String
  letter : Option Char
  meaning : Flag ⊕ Parameter

/-- The options that every command has. -/
def commonOptions : List OptionNames :=
  [⟨"verbose", some 'v', .inl .verbose⟩, ⟨"quiet", some 'q', .inl .quiet⟩,
    ⟨"help", some 'h', .inl .help⟩]

/-- The options before the name of the command. -/
def outerOptions : List OptionNames :=
  ⟨"version", some 'V', .inl .version⟩ :: commonOptions

def generateOptions : List OptionNames :=
  ⟨"source", some 's', .inr .source⟩ :: ⟨"output", some 'o', .inr .output⟩ ::
    ⟨"config", some 'c', .inr .settings⟩ :: ⟨"keep-going", some 'k', .inl .keepGoing⟩ ::
    commonOptions

def checkOptions : List OptionNames :=
  ⟨"source", some 's', .inr .source⟩ :: ⟨"config", some 'c', .inr .settings⟩ :: commonOptions

def describeOptions : List OptionNames :=
  ⟨"name", some 'n', .inr .name⟩ :: ⟨"json", none, .inl .json⟩ :: commonOptions

/-- An argument of the command line. -/
abbrev Argument :=
  List UInt8

/-- What arguments mean, piece by piece. -/
inductive Piece where
  | flag (flag : Flag)
  | value (parameter : Parameter) (value : Argument)
  | plain (argument : Argument)
  /-- An option that is not known, or one that lacks its value or has one it must not have. -/
  | wrong
  deriving DecidableEq, Repr

/-- What one argument means by itself. -/
inductive Meaning where
  | pieces (pieces : List Piece)
  /-- The next argument is the value of the parameter. -/
  | awaitsValue (pieces : List Piece) (parameter : Parameter)
  | plain
  /-- No argument after this one is an option. -/
  | endOfOptions
  deriving DecidableEq, Repr

/-- The byte of the minus sign. -/
def minus : UInt8 := 0x2d

/-- The byte of the equals sign. -/
def equalsSign : UInt8 := 0x3d

/-- The letters of an argument, one after the other. What follows the letter of a parameter is its
value. -/
def letters (options : List OptionNames) (before : List Piece) : List UInt8 → Meaning
  | [] => .pieces before
  | b :: rest =>
    match options.find? fun o => o.letter.map Char.toNat == some b.toNat with
    | none => .pieces (before ++ [.wrong])
    | some o =>
      match o.meaning with
      | .inl flag => letters options (before ++ [.flag flag]) rest
      | .inr parameter =>
        match rest with
        | [] => .awaitsValue before parameter
        | first :: more =>
          .pieces (before ++ [.value parameter (if first = equalsSign then more else rest)])

/-- An argument with the long name of an option. -/
def longName (options : List OptionNames) (argument : List UInt8) : Meaning :=
  let (name, value) : List UInt8 × Option (List UInt8) :=
    match cut equalsSign argument with
    | some (name, value) => (name, some value)
    | none => (argument, none)
  match options.find? fun o => utf8 o.long == name with
  | none => .pieces [.wrong]
  | some o =>
    match o.meaning, value with
    | .inl flag, none => .pieces [.flag flag]
    | .inl _, some _ => .pieces [.wrong]
    | .inr parameter, none => .awaitsValue [] parameter
    | .inr parameter, some value => .pieces [.value parameter value]

/-- What an argument means. A minus sign alone is no option. -/
def meaning (options : List OptionNames) (argument : Argument) : Meaning :=
  match argument with
  | [] => .plain
  | [_] => .plain
  | a :: b :: rest =>
    if a ≠ minus then .plain
    else if b ≠ minus then letters options [] (b :: rest)
    else if rest = [] then .endOfOptions
    else longName options rest

/-- Whether an argument looks like an option, so that it cannot be a value. -/
def looksLikeOption : Argument → Bool
  | a :: _ :: _ => a == minus
  | _ => false

/-- What the arguments after the name of a command mean. -/
def pieces (options : List OptionNames) : List Argument → List Piece
  | [] => []
  | argument :: rest =>
    match meaning options argument with
    | .pieces found => found ++ pieces options rest
    | .plain => .plain argument :: pieces options rest
    | .endOfOptions => rest.map .plain
    | .awaitsValue before parameter =>
      match rest with
      | [] => before ++ [.wrong]
      | value :: after =>
        if looksLikeOption value then before ++ [.wrong]
        else before ++ .value parameter value :: pieces options after

/-- What the arguments after the name of a command say. -/
structure Given where
  verbosity : Verbosity := {}
  keepGoing : Bool := false
  json : Bool := false
  values : List (Parameter × Argument) := []
  plain : List Argument := []

/-- Takes in one piece. Only `-v` may be repeated. -/
def Given.add (g : Given) : Piece → Except Request Given
  | .wrong => .error .misuse
  | .flag .version => .error .version
  | .flag .help => .error .help
  | .flag .verbose => .ok { g with verbosity.verbose := g.verbosity.verbose + 1 }
  | .flag .quiet =>
    if g.verbosity.quiet then .error .misuse else .ok { g with verbosity.quiet := true }
  | .flag .keepGoing => if g.keepGoing then .error .misuse else .ok { g with keepGoing := true }
  | .flag .json => if g.json then .error .misuse else .ok { g with json := true }
  | .value parameter value =>
    if g.values.any (·.1 == parameter) then .error .misuse
    else .ok { g with values := g.values ++ [(parameter, value)] }
  | .plain argument => .ok { g with plain := g.plain ++ [argument] }

/-- Takes in pieces one after the other. -/
def Given.addAll (g : Given) : List Piece → Except Request Given
  | [] => .ok g
  | piece :: rest =>
    match g.add piece with
    | .error request => .error request
    | .ok next => next.addAll rest

/-- Whether the options contradict each other. -/
def Verbosity.isContradiction (v : Verbosity) : Bool :=
  v.quiet && v.verbose != 0

/-- The path that a parameter was given. Paths are not empty. -/
def Given.path? (g : Given) (parameter : Parameter) : Except Request (Option Path) :=
  match g.values.lookup parameter with
  | none => .ok none
  | some [] => .error .misuse
  | some bytes => .ok (some ⟨bytes⟩)

/-- The text that a parameter was given. -/
def Given.text? (g : Given) (parameter : Parameter) : Except Request (Option String) :=
  match g.values.lookup parameter with
  | none => .ok none
  | some bytes =>
    match ofUtf8? bytes with
    | some text => .ok (some text)
    | none => .error .misuse

def Given.generate (g : Given) : Except Request Command := do
  let source ← g.path? .source
  let output ← g.path? .output
  let settings ← g.path? .settings
  if g.plain = [] then .ok (.generate source output settings g.keepGoing) else .error .misuse

def Given.check (g : Given) : Except Request Command := do
  let source ← g.path? .source
  let settings ← g.path? .settings
  if g.plain = [] then .ok (.check source settings) else .error .misuse

def Given.describe (g : Given) : Except Request Command := do
  let name ← g.text? .name
  match g.plain with
  | [file] => if file = [] then .error .misuse else .ok (.describe ⟨file⟩ name g.json)
  | _ => .error .misuse

/-- A command by its name: its options, and how they make up the command. -/
def commandNamed? (name : Argument) :
    Option (List OptionNames × (Given → Except Request Command)) :=
  if name = utf8 "generate" then some (generateOptions, Given.generate)
  else if name = utf8 "check" then some (checkOptions, Given.check)
  else if name = utf8 "describe" then some (describeOptions, Given.describe)
  else none

/-- The command line from the name of the command on. What is given after it about logging counts
more than what is given before. -/
def commandRequest (outer : Verbosity) (name : Argument) (rest : List Argument) :
    Except Request Request :=
  if name = utf8 "help" then .error .help
  else
    match commandNamed? name with
    | none => .error .misuse
    | some (options, command) => do
      let given ← Given.addAll {} (pieces options rest)
      let inner := given.verbosity
      let command ← command given
      if inner.isContradiction || outer.isContradiction then .error .misuse
      else
        .ok (.run ⟨if inner.verbose = 0 then outer.verbose else inner.verbose,
          outer.quiet || inner.quiet⟩ command)

/-- The command line, after some options before the name of the command. -/
def outerRequest (given : Given) : List Argument → Except Request Request
  | [] => .error .misuse
  | argument :: rest =>
    match meaning outerOptions argument with
    | .plain => commandRequest given.verbosity argument rest
    | .pieces found =>
      match given.addAll found with
      | .error request => .error request
      | .ok next => outerRequest next rest
    | _ => .error .misuse

/-- **What a command line asks for.** -/
def Request.ofArguments (arguments : List Argument) : Request :=
  match outerRequest {} arguments with
  | .ok request => request
  | .error request => request

end ValueClass
