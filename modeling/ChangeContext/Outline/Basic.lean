import ChangeContext.NameMap
import ChangeContext.Text.Blank

/-!
# Outlines

The outline of a source file is what other files can see of it, as far as names go: its functions
with the text of their parameter lists, the modules it imports, and the names it exports.  Whoever
outlines a file reports its findings in the order of the text; of several functions with one name
the first is kept.
-/

set_option autoImplicit false

namespace ChangeContext

/-- What a source file defines, needs and offers. -/
structure Outline where
  /-- The parameter text of each function, without its parentheses. -/
  functions : NameMap String
  imports : NameSet
  exports : NameSet
deriving DecidableEq, Inhabited

namespace Outline

/-- Nothing found. -/
def empty : Outline where
  functions := ∅
  imports := ∅
  exports := ∅

/-- The text inside one pair of parentheses, if the text starts and ends with such a pair. -/
def insideParens? : List Char → Option (List Char)
  | '(' :: rest => if rest.getLast? = some ')' then some rest.dropLast else none
  | _ => none

/-- A parameter list without its parentheses and without blanks at its ends. -/
def stripParens (params : List Char) : List Char :=
  let trimmed := Text.trim params
  Text.trim ((insideParens? trimmed).getD trimmed)

/-- Report a function; a name that was reported before keeps its first parameters. -/
def addFunction (o : Outline) (name : String) (params : List Char) : Outline :=
  { o with functions := o.functions.insertIfNew name (String.ofList (stripParens params)) }

/-- Report an imported module. -/
def addImport (o : Outline) (module : String) : Outline :=
  { o with imports := o.imports.add module }

/-- Report an exported name. -/
def addExport (o : Outline) (name : String) : Outline :=
  { o with exports := o.exports.add name }

end Outline

end ChangeContext
