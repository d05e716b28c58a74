import ValueClass.Text.Split

/-!
# Settings files

A settings file holds one `key = value` pair a line, in the notation of TOML. The values that
settings have are strings and booleans, so that a file with any other value, or with tables, cannot
be one of settings.

* `readString` reads a string in one of the four notations.
* `readPairs` reads a whole file.
-/

namespace ValueClass.SettingsFile

open Text

/-- The value of a key. -/
inductive Value where
  | text (value : String)
  | flag (value : Bool)
  deriving DecidableEq, Repr

/-- Whether a character is a blank within a line. -/
def isSpace (c : Char) : Bool :=
  c == ' ' || c == '\t'

def skipSpaces (cs : List Char) : List Char :=
  cs.dropWhile isSpace

/-- Whether a character may not stand in a string or a comment as it is. -/
def isControl (c : Char) : Bool :=
  (c.toNat < 0x20 && c != '\t') || c.toNat == 0x7f

/-- The value of a hexadecimal digit. -/
def hexDigit? (c : Char) : Option Nat :=
  if '0' ≤ c ∧ c ≤ '9' then some (c.toNat - 48)
  else if 'a' ≤ c ∧ c ≤ 'f' then some (c.toNat - 87)
  else if 'A' ≤ c ∧ c ≤ 'F' then some (c.toNat - 55)
  else none

/-- The number that hexadecimal digits write. -/
def hexNumber? (n : Nat) : List Char → Option Nat
  | [] => some n
  | c :: rest => (hexDigit? c).bind fun digit => hexNumber? (n * 16 + digit) rest

/-- The character with the code point that hexadecimal digits write. -/
def hexChar? (digits : List Char) : Option Char :=
  (hexNumber? 0 digits).bind fun n => if n.isValidChar then some (Char.ofNat n) else none

/-- The character that a letter stands for after a backslash. -/
def escaped? (c : Char) : Option Char :=
  match c with
  | 'b' => some '\x08'
  | 'e' => some '\x1b'
  | 't' => some '\t'
  | 'n' => some '\n'
  | 'f' => some '\x0c'
  | 'r' => some '\r'
  | '"' => some '"'
  | '\\' => some '\\'
  | _ => none

/-- Puts a character, if there is one, in front of what was read. -/
def prepend (c : Option Char) (read : Option (List Char × List Char)) :
    Option (List Char × List Char) :=
  c.bind fun c => read.map fun (text, rest) => (c :: text, rest)

/-- A string on one line in double quotes, after the first quote: its characters, and what follows
it. -/
def basic : List Char → Option (List Char × List Char)
  | [] => none
  | '"' :: rest => some ([], rest)
  | '\\' :: 'x' :: a :: b :: rest => prepend (hexChar? [a, b]) (basic rest)
  | '\\' :: 'u' :: a :: b :: c :: d :: rest => prepend (hexChar? [a, b, c, d]) (basic rest)
  | '\\' :: 'U' :: a :: b :: c :: d :: e :: f :: g :: h :: rest =>
    prepend (hexChar? [a, b, c, d, e, f, g, h]) (basic rest)
  | '\\' :: c :: rest => prepend (escaped? c) (basic rest)
  | c :: rest => if isControl c then none else prepend (some c) (basic rest)

/-- A string on one line in single quotes, after the first quote. -/
def literal : List Char → Option (List Char × List Char)
  | [] => none
  | c :: rest =>
    if c = '\'' then some ([], rest)
    else if isControl c then none
    else prepend (some c) (literal rest)

/-- What a string over several lines is in the middle of. -/
inductive Fold where
  /-- Text. -/
  | no
  /-- Blanks after a backslash, before the line ends. -/
  | line
  /-- Blanks and line ends after such a line end. -/
  | blanks
  deriving DecidableEq, Repr

/-- A string over several lines in three double quotes, after the first three. Up to two more quotes
may stand before the last three. A backslash at the end of a line swallows the blanks that
follow. -/
def basicLines (fold : Fold) : List Char → Option (List Char × List Char)
  | [] => none
  | c :: rest =>
    match fold, c with
    | .line, '\n' => basicLines .blanks rest
    | .line, '\r' => if rest.head? = some '\n' then basicLines .line rest else none
    | .line, _ => if isSpace c then basicLines .line rest else none
    | .blanks, '\n' => basicLines .blanks rest
    | .blanks, '\r' => if rest.head? = some '\n' then basicLines .blanks rest else none
    | _, '"' =>
      match rest with
      | '"' :: '"' :: '"' :: '"' :: after => some (['"', '"'], after)
      | '"' :: '"' :: '"' :: after => some (['"'], after)
      | '"' :: '"' :: after => some ([], after)
      | after => prepend (some c) (basicLines .no after)
    | _, '\\' =>
      match rest with
      | 'x' :: a :: b :: after => prepend (hexChar? [a, b]) (basicLines .no after)
      | 'u' :: a :: b :: c :: d :: after => prepend (hexChar? [a, b, c, d]) (basicLines .no after)
      | 'U' :: a :: b :: c :: d :: e :: f :: g :: h :: after =>
        prepend (hexChar? [a, b, c, d, e, f, g, h]) (basicLines .no after)
      | e :: after =>
        if e = '\n' then basicLines .blanks after
        else if e = '\r' ∨ isSpace e then basicLines .line (e :: after)
        else prepend (escaped? e) (basicLines .no after)
      | [] => none
    | .blanks, _ =>
      if isSpace c then basicLines .blanks rest
      else if isControl c then none
      else prepend (some c) (basicLines .no rest)
    | .no, '\n' => prepend (some c) (basicLines .no rest)
    | .no, '\r' => if rest.head? = some '\n' then prepend (some c) (basicLines .no rest) else none
    | .no, _ => if isControl c then none else prepend (some c) (basicLines .no rest)

/-- A string over several lines in three single quotes, after the first three. -/
def literalLines : List Char → Option (List Char × List Char)
  | [] => none
  | '\'' :: '\'' :: '\'' :: '\'' :: '\'' :: rest => some (['\'', '\''], rest)
  | '\'' :: '\'' :: '\'' :: '\'' :: rest => some (['\''], rest)
  | '\'' :: '\'' :: '\'' :: rest => some ([], rest)
  | '\r' :: '\n' :: rest => prepend (some '\r') (prepend (some '\n') (literalLines rest))
  | c :: rest =>
    if isControl c && c != '\n' then none else prepend (some c) (literalLines rest)

/-- The text without the line end it starts with. -/
def dropLineEnd : List Char → List Char
  | '\n' :: rest => rest
  | '\r' :: '\n' :: rest => rest
  | cs => cs

/-- **A string in quotes**, and what follows it. -/
def readString : List Char → Option (List Char × List Char)
  | '"' :: '"' :: '"' :: rest => basicLines .no (dropLineEnd rest)
  | '\'' :: '\'' :: '\'' :: rest => literalLines (dropLineEnd rest)
  | '"' :: rest => basic rest
  | '\'' :: rest => literal rest
  | _ => none

/-- Whether a character may stand in a key without quotes. -/
def isKeyChar (c : Char) : Bool :=
  c.isAlphanum || c == '_' || c == '-'

/-- A key, and what follows it. Keys in quotes stay on one line. -/
def readKey : List Char → Option (List Char × List Char)
  | '"' :: rest => basic rest
  | '\'' :: rest => literal rest
  | cs =>
    if (cs.takeWhile isKeyChar).isEmpty then none
    else some (cs.takeWhile isKeyChar, cs.dropWhile isKeyChar)

/-- A value, and what follows it. -/
def readValue (cs : List Char) : Option (Value × List Char) :=
  match List.isPrefixOf? ['t', 'r', 'u', 'e'] cs, List.isPrefixOf? ['f', 'a', 'l', 's', 'e'] cs with
  | some rest, _ => some (.flag true, rest)
  | _, some rest => some (.flag false, rest)
  | none, none => (readString cs).map fun (text, rest) => (.text (String.ofList text), rest)

/-- What follows the end of the line, which may have a comment before it. -/
def endLine (cs : List Char) : Option (List Char) :=
  match skipSpaces cs with
  | [] => some []
  | '\n' :: rest => some rest
  | '\r' :: '\n' :: rest => some rest
  | '#' :: rest =>
    let comment := rest.takeWhile (· ≠ '\n')
    match rest.dropWhile (· ≠ '\n') with
    | [] => if comment.any isControl then none else some []
    | _ :: after => if (dropReturn comment).any isControl then none else some after
  | _ => none

/-- The pair that a line starts with, and what follows the line. -/
def readPair (cs : List Char) : Option ((String × Value) × List Char) :=
  (readKey (skipSpaces cs)).bind fun (key, rest) =>
    match skipSpaces rest with
    | '=' :: rest =>
      (readValue (skipSpaces rest)).bind fun (value, rest) =>
        (endLine rest).map fun rest => ((String.ofList key, value), rest)
    | _ => none

/-- The pairs of at most `bound` lines, which have to be all. -/
def readLines (bound : Nat) (cs : List Char) : Option (List (String × Value)) :=
  match bound, cs with
  | _, [] => some []
  | 0, _ :: _ => none
  | n + 1, cs =>
    match endLine cs with
    | some rest => readLines n rest
    | none => (readPair cs).bind fun (pair, rest) => (readLines n rest).map (pair :: ·)

/-- **The pairs of a settings file.** No line is empty before its end, so there are no more of them
than characters. -/
def readPairs (text : String) : Option (List (String × Value)) :=
  let cs :=
    match text.toList with
    | '\ufeff' :: rest => rest
    | cs => cs
  readLines cs.length cs

end ValueClass.SettingsFile
