import ValueClass.Text.CombiningMark
import ValueClass.Text.Ignorable
import ValueClass.Text.Unprintable

/-!
# Quoted text

Messages show the text they speak of between double quotes, so that blanks at its ends, line ends
and invisible characters can be seen.
-/

namespace ValueClass.Text

/-- A backslash, the letter `u` and the code point in hexadecimal between braces. -/
def codePointEscape (c : Char) : List Char :=
  '\\' :: 'u' :: '\x7b' :: Nat.toDigits 16 c.toNat ++ ['\x7d']

/-- How a character stands in quoted text. Quotes and backslashes get a backslash, characters
that cannot be seen or that join the character before them are written by their code point, and
all others stand for themselves. -/
def escape (c : Char) : List Char :=
  match c with
  | '\x00' => ['\\', '0']
  | '\t' => ['\\', 't']
  | '\r' => ['\\', 'r']
  | '\n' => ['\\', 'n']
  | '"' => ['\\', '"']
  | '\\' => ['\\', '\\']
  | _ =>
    if isCombiningMark c || isIgnorable c || isUnprintable c then codePointEscape c else [c]

/-- The text between double quotes. -/
def quote (text : String) : String :=
  String.ofList ('"' :: text.toList.flatMap escape ++ ['"'])

end ValueClass.Text
