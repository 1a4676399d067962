import ChangeContext.Outline.Heuristic

/-!
# Common statements of scripts

The statements that both ways of outlining a script are made for: imports and calls of `require`,
functions, variables that hold an arrow function, exported classes and lists of exports.  They are
given by what varies in them, identifiers and modules and sums, and `Statement.chars` says how they
are written.  A source has one of them on each line.

What a statement declares, imports and exports is said of the statement itself and not of its text.
It is what an outline of the text should say.
-/

set_option autoImplicit false

namespace ChangeContext

namespace Outline

/-! ## Identifiers, modules and sums -/

/-- The words that are not identifiers. -/
def reservedWords : List String :=
  ["await", "break", "case", "catch", "class", "const", "continue", "debugger", "default", "delete",
    "do", "else", "enum", "export", "extends", "false", "finally", "for", "function", "if", "import",
    "in", "instanceof", "new", "null", "return", "super", "switch", "this", "throw", "true", "try",
    "typeof", "var", "void", "while", "with", "yield"]

/-- A character of an identifier. -/
def isIdentifierChar (c : Char) : Bool :=
  Rules.isNameStart c || c.isDigit

/-- An identifier of ASCII characters. -/
structure Identifier where
  chars : List Char
  head : chars.head?.any Rules.isNameStart = true := by decide
  all : chars.all isIdentifierChar = true := by decide
  unreserved : String.ofList chars ∉ reservedWords := by decide

/-- The identifier as a text. -/
def Identifier.text (x : Identifier) : String :=
  String.ofList x.chars

/-- A character of the name of a module. -/
def isModuleChar (c : Char) : Bool :=
  Rules.isLetter c || c == '/' || c == '.' || c == '-'

/-- The name of a module: letters, slashes, dots and hyphens. -/
structure Module where
  chars : List Char
  ne_nil : chars ≠ [] := by decide
  all : chars.all isModuleChar = true := by decide

/-- The name of the module as a text. -/
def Module.text (m : Module) : String :=
  String.ofList m.chars

/-- A number in decimal digits; without digits for a fraction it has no dot either. -/
structure Numeral where
  whole : List Char
  fraction : List Char
  ne_nil : whole ≠ [] := by decide
  all : (whole ++ fraction).all Char.isDigit = true := by decide

/-- The digits of the number with its dot. -/
def Numeral.chars (n : Numeral) : List Char :=
  n.whole ++ if n.fraction = [] then [] else '.' :: n.fraction

/-- What is added up. -/
inductive Summand where
  | name (x : Identifier)
  | numeral (n : Numeral)

/-- How a summand is written. -/
def Summand.chars : Summand → List Char
  | name x => x.chars
  | numeral n => n.chars

/-- A sum of identifiers and numbers. -/
structure Sum where
  first : Summand
  more : List Summand

/-- The summands with plus signs between them. -/
def Sum.chars (e : Sum) : List Char :=
  e.first.chars ++ e.more.flatMap fun s ↦ " + ".toList ++ s.chars

/-- A list of identifiers with commas between them. -/
def listChars : List Identifier → List Char
  | [] => []
  | x :: more => x.chars ++ more.flatMap fun y ↦ ", ".toList ++ y.chars

/-! ## Statements -/

/-- What an import binds: the default of the module, or one name in braces. -/
inductive ImportClause where
  | default (x : Identifier)
  | named (x : Identifier)

/-- How an import clause is written. -/
def ImportClause.chars : ImportClause → List Char
  | .default x => x.chars
  | .named x => "\x7b ".toList ++ (x.chars ++ " \x7d".toList)

/-- The quotation mark around the module of an import with such a clause. -/
def ImportClause.quote : ImportClause → Char
  | .default _ => '\''
  | .named _ => '"'

/-- The parameters of an arrow function: a list in parentheses, or one identifier alone. -/
inductive ArrowParameters where
  | list (xs : List Identifier)
  | single (x : Identifier)

/-- The parameters without parentheses. -/
def ArrowParameters.inner : ArrowParameters → List Char
  | list xs => listChars xs
  | single x => x.chars

/-- How the parameters are written. -/
def ArrowParameters.chars : ArrowParameters → List Char
  | list xs => "(".toList ++ (listChars xs ++ ")".toList)
  | single x => x.chars

/-- The common statements. -/
inductive Statement where
  /-- An import statement with a clause. -/
  | importFrom (clause : ImportClause) (module : Module)
  /-- A variable that holds a required module. -/
  | require (name : Identifier) (module : Module)
  /-- A function declaration whose body returns nothing or is empty. -/
  | function (exported : Bool) (name : Identifier) (parameters : List Identifier) (returns : Bool)
  /-- A variable that holds an arrow function with a sum as its value. -/
  | arrow (exported : Bool) (name : Identifier) (parameters : ArrowParameters) (value : Sum)
  /-- An exported class without members. -/
  | class (name : Identifier)
  /-- A list of two exports, the first under a new name. -/
  | exportList (first newName second : Identifier)

namespace Statement

/-- The word before an exported declaration. -/
def exportChars (exported : Bool) : List Char :=
  if exported then "export ".toList else []

/-- The body of a function declaration. -/
def bodyChars (returns : Bool) : List Char :=
  if returns then " \x7b return null; \x7d".toList else " \x7b\x7d".toList

/-- How a statement is written. -/
def chars : Statement → List Char
  | importFrom clause m =>
    "import ".toList ++ (clause.chars ++ (" from ".toList ++ (clause.quote :: (m.chars ++
      (clause.quote :: ";".toList)))))
  | require x m => "const ".toList ++ (x.chars ++ (" = require('".toList ++ (m.chars ++
      "');".toList)))
  | function exported f xs returns =>
    exportChars exported ++ ("function ".toList ++ (f.chars ++ ("(".toList ++ (listChars xs ++
      (")".toList ++ bodyChars returns)))))
  | arrow exported f xs e =>
    exportChars exported ++ ("const ".toList ++ (f.chars ++ (" = ".toList ++ (xs.chars ++
      (" => ".toList ++ (e.chars ++ ";".toList))))))
  | .class x => "export class ".toList ++ (x.chars ++ " \x7b\x7d".toList)
  | exportList a b c =>
    "export \x7b ".toList ++ (a.chars ++ (" as ".toList ++ (b.chars ++ (", ".toList ++ (c.chars ++
      " \x7d;".toList)))))

theorem chars_importFrom (clause : ImportClause) (m : Module) :
    (importFrom clause m).chars =
      "import ".toList ++ (clause.chars ++ (" from ".toList ++ (clause.quote :: (m.chars ++
        (clause.quote :: ";".toList))))) := rfl

theorem chars_require (x : Identifier) (m : Module) :
    (require x m).chars =
      "const ".toList ++ (x.chars ++ (" = require('".toList ++ (m.chars ++ "');".toList))) := rfl

theorem chars_function (exported : Bool) (f : Identifier) (xs : List Identifier) (returns : Bool) :
    (function exported f xs returns).chars =
      exportChars exported ++ ("function ".toList ++ (f.chars ++ ("(".toList ++ (listChars xs ++
        (")".toList ++ bodyChars returns))))) := rfl

theorem chars_arrow (exported : Bool) (f : Identifier) (xs : ArrowParameters) (e : Sum) :
    (arrow exported f xs e).chars =
      exportChars exported ++ ("const ".toList ++ (f.chars ++ (" = ".toList ++ (xs.chars ++
        (" => ".toList ++ (e.chars ++ ";".toList)))))) := rfl

theorem chars_class (x : Identifier) :
    (Statement.class x).chars = "export class ".toList ++ (x.chars ++ " \x7b\x7d".toList) := rfl

theorem chars_exportList (a b c : Identifier) :
    (exportList a b c).chars =
      "export \x7b ".toList ++ (a.chars ++ (" as ".toList ++ (b.chars ++ (", ".toList ++ (c.chars ++
        " \x7d;".toList))))) := rfl

/-- The function that a function declaration declares, with its parameters. -/
def function? : Statement → Option (String × List Char)
  | function _ f xs _ => some (f.text, listChars xs)
  | _ => none

/-- The variable that holds a function, with the parameters of the function. -/
def held? : Statement → Option (String × List Char)
  | arrow _ f xs _ => some (f.text, xs.inner)
  | _ => none

/-- The function or variable that a statement declares, with its parameters. -/
def declared? (s : Statement) : Option (String × List Char) :=
  s.function? <|> s.held?

/-- The modules that a statement imports. -/
def modules : Statement → List String
  | importFrom _ m | require _ m => [m.text]
  | _ => []

/-- The name of the declaration that a statement exports. -/
def exported? : Statement → Option String
  | function true f _ _ | arrow true f _ _ => some f.text
  | .class x => some x.text
  | _ => none

/-- The names under which a statement exports what is declared elsewhere. -/
def listed : Statement → List String
  | exportList _ b c => [b.text, c.text]
  | _ => []

/-- The names that a statement exports. -/
def exports (s : Statement) : List String :=
  s.exported?.toList ++ s.listed

end Statement

/-- The statements, one on each line. -/
def sourceChars (statements : List Statement) : List Char :=
  statements.flatMap fun s ↦ s.chars ++ ['\n']

/-- The source that is made of these statements. -/
def source (statements : List Statement) : String :=
  String.ofList (sourceChars statements)

end Outline

end ChangeContext
