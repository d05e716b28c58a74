/-!
# Cutting sequences at a separator

Texts are cut at dots, colons and line ends, paths at slashes. `List.splitOn` cuts at every
separator; the functions here cut once or give lines. They work on lists of any kind of symbol.

* `cut` and `cutLast` cut once, at the first and at the last separator.
* `lines` gives the lines of a text, whether they end in `\n` or in `\r\n`.
-/

namespace ValueClass.Text

variable {α : Type} [DecidableEq α]

/-- What stands before and after the first separator. -/
def cut (sep : α) : List α → Option (List α × List α)
  | [] => none
  | a :: rest =>
    if a = sep then some ([], rest)
    else (cut sep rest).map fun (before, after) => (a :: before, after)

/-- What stands before and after the last separator. -/
def cutLast (sep : α) (as : List α) : Option (List α × List α) :=
  (cut sep as.reverse).map fun (after, before) => (before.reverse, after.reverse)

/-- A line without the carriage return it ends with. -/
def dropReturn (line : List Char) : List Char :=
  (List.isSuffixOf? ['\r'] line).getD line

/-- The lines among the pieces between line feeds: every piece but the last was ended by a line
feed, and the last one counts only if it holds something. -/
def linesOfPieces : List (List Char) → List (List Char)
  | [] => []
  | [last] => if last.isEmpty then [] else [last]
  | piece :: next :: pieces => dropReturn piece :: linesOfPieces (next :: pieces)

/-- The lines of a text. A line feed ends a line, together with a carriage return directly before
it. -/
def lines (cs : List Char) : List (List Char) :=
  linesOfPieces (List.splitOn '\n' cs)

end ValueClass.Text
