/-!
# Lines

Two ways to cut a text into lines are in use, and they differ at the end of the text.

* Comparing two texts must lose nothing, so there a line ends at each line feed and what follows
  the last line feed is a line too, even when it is empty (`pieces`).
* Reading a file line by line treats the line feed as the end of its line: a final one opens no
  further line, and a carriage return before it belongs to the line's end (`lines`).
-/

set_option autoImplicit false

namespace ChangeContext

namespace Text

/-- The stretches between line feeds; a text without one is a single stretch. -/
def pieces (s : String) : List String :=
  (s.toList.splitOn '\n').map String.ofList

/-- A line without the carriage return that its line feed may follow. -/
def dropReturn (cs : List Char) : List Char :=
  if cs.getLast? = some '\r' then cs.dropLast else cs

/-- Lines as a reader meets them, given the stretches between line feeds: the last stretch is no
line when it is empty, and only a line that a line feed ends sheds a carriage return. -/
def closeLines : List (List Char) → List (List Char)
  | [] => []
  | [last] => if last.isEmpty then [] else [last]
  | line :: rest => dropReturn line :: closeLines rest

/-- The lines of a text. -/
def lines (cs : List Char) : List (List Char) :=
  closeLines (cs.splitOn '\n')

end Text

end ChangeContext
