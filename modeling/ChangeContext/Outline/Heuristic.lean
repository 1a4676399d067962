import ChangeContext.Outline.Basic
import ChangeContext.Pattern.Search

/-!
# Outlines by pattern

Any text can be outlined by looking for what declarations look like, without understanding the
text around them.  Each family of languages has its own patterns for functions, imports and
exports; whatever is not known to belong to another family is treated as a script.

The patterns see strings and comments as they see code, and a parameter list ends for them at the
first closing parenthesis.  What they gain is that they always have an answer.
-/

set_option autoImplicit false

namespace ChangeContext

namespace Outline

/-- The patterns of one family of languages.  In a function pattern, 1 marks the name and 2, 3 and 4
the places where parameters may stand; in an import pattern 1 marks the module; in an export pattern
1 or 2 marks the name, in an export list 1 marks what is between the braces. -/
structure Rules where
  functions : List Pattern
  imports : List Pattern
  exports : List Pattern
  exportLists : Option Pattern
  defaultExport : Option Pattern

namespace Rules

open Pattern

/-! ## The parts of declarations -/

/-- A letter of ASCII. -/
def isLetter (c : Char) : Bool :=
  ('a' ≤ c && c ≤ 'z') || ('A' ≤ c && c ≤ 'Z')

/-- A character that an identifier of a script may begin with. -/
def isNameStart (c : Char) : Bool :=
  isLetter c || c == '_' || c == '$'

/-- A character that an identifier of a script may go on with. -/
def isNameRest (c : Char) : Bool :=
  Text.isWordChar c || c == '$'

/-- A quotation mark around a module. -/
def isQuote (c : Char) : Bool :=
  c == '\'' || c == '"'

/-- An identifier of a script. -/
def name : Pattern :=
  both (one isNameStart) (run isNameRest)

/-- An identifier that begins with a letter or an underscore and goes on with word characters. -/
def plainName : Pattern :=
  both (one fun c ↦ isLetter c || c == '_') (run Text.isWordChar)

/-- An identifier that begins with a letter and goes on with word characters. -/
def publicName : Pattern :=
  both (one isLetter) (run Text.isWordChar)

/-- Parentheses; what is between them is marked. -/
def parens (group : Nat) : Pattern :=
  seq [char '(', mark group (run (· ≠ ')')), char ')']

/-- Type parameters, if there are any. -/
def typeParams : Pattern :=
  optional (seq [char '<', run (· ≠ '>'), char '>'])

/-- A type annotation, if there is one. -/
def annotation : Pattern :=
  optional (both (char ':') (run1 (· ≠ '=')))

/-- A word and the blanks behind it, if the word is there. -/
def maybeWord (s : String) : Pattern :=
  optional (both (word s) blanks1)

/-- A quoted module, marked 1. -/
def quotedModule : Pattern :=
  seq [one isQuote, mark 1 (run1 fun c ↦ !isQuote c), one isQuote]

/-! ## Scripts -/

/-- A function declaration. -/
def functionDeclaration : Pattern :=
  seq [wordEdge, word "function", blanks, optional (char '*'), blanks, mark 1 name, blanks,
    typeParams, blanks, parens 2]

/-- A variable that holds a function, an arrow with parentheses, or an arrow with one parameter. -/
def functionVariable : Pattern :=
  seq [wordEdge, oneOf [word "const", word "let", word "var"], blanks1, mark 1 name, blanks,
    annotation, char '=', blanks, maybeWord "async",
    oneOf
      [seq [word "function", blanks, optional (char '*'), blanks, optional name, blanks, parens 2],
       seq [parens 3, blanks, annotation, word "=>"],
       seq [mark 4 name, blanks, word "=>"]]]

/-- A character of what an import names before it names the module. -/
def isImportClauseChar (c : Char) : Bool :=
  isNameRest c || c == '*' || c == '\x7b' || c == '\x7d' || c == ',' || Text.isBlank c

/-- An import of a module. -/
def importStatement : Pattern :=
  seq [wordEdge, word "import", blanks1, maybeWord "type",
    optional (seq [fewest1 isImportClauseChar, blanks1, word "from", blanks1]), quotedModule]

/-- A module that is required. -/
def requireCall : Pattern :=
  seq [wordEdge, word "require(", blanks, quotedModule, blanks, char ')']

/-- An exported declaration with a name. -/
def exportDeclaration : Pattern :=
  seq [wordEdge, word "export", blanks1, maybeWord "default", maybeWord "declare",
    maybeWord "abstract", maybeWord "async",
    oneOf [seq [word "function", blanks, optional (char '*')], word "class", word "const",
      word "let", word "var", word "interface", word "type", word "enum"],
    blanks1, mark 1 name]

/-- A list of exported names in braces; what is between them is marked 1. -/
def exportList : Pattern :=
  seq [wordEdge, word "export", blanks, optional (both (word "type") blanks), char '\x7b',
    mark 1 (run (· ≠ '\x7d')), char '\x7d']

/-- A default export of any kind. -/
def defaultExportWords : Pattern :=
  seq [wordEdge, word "export", blanks1, word "default", wordEdge]

/-- The patterns of scripts. -/
def script : Rules where
  functions := [functionDeclaration, functionVariable]
  imports := [importStatement, requireCall]
  exports := [exportDeclaration]
  exportLists := some exportList
  defaultExport := some defaultExportWords

/-! ## Languages of indentation -/

/-- The patterns of a language whose functions begin with `def`; what starts a line is exported
unless its name begins with an underscore. -/
def indented : Rules where
  functions :=
    [seq [lineStart, blanks, maybeWord "async", word "def", blanks1, mark 1 plainName, blanks,
      parens 2]]
  imports :=
    [seq [lineStart, blanks, word "from", blanks1,
      mark 1 (run1 fun c ↦ Text.isWordChar c || c == '.'), blanks1, word "import", wordEdge],
     seq [lineStart, blanks, word "import", blanks1,
      mark 1 (run1 fun c ↦ Text.isWordChar c || c == '.')]]
  exports :=
    [either
      (seq [lineStart, maybeWord "async", word "def", blanks1, mark 1 publicName])
      (seq [lineStart, word "class", blanks1, mark 2 publicName])]
  exportLists := none
  defaultExport := none

/-! ## Languages of visible items -/

/-- The patterns of a language whose functions begin with `fn`; what is marked `pub` is exported. -/
def items : Rules where
  functions :=
    [seq [wordEdge, word "fn", blanks1, mark 1 plainName, blanks, typeParams, blanks, parens 2]]
  imports :=
    [seq [lineStart, blanks, maybeWord "pub", word "use", blanks1,
      mark 1 (run1 fun c ↦ Text.isWordChar c || c == ':')]]
  exports :=
    [seq [wordEdge, word "pub", blanks1, maybeWord "async", maybeWord "unsafe",
      oneOf [word "fn", word "struct", word "enum", word "trait", word "const", word "static",
        word "type", word "mod"],
      blanks1, mark 1 plainName]]
  exportLists := none
  defaultExport := none

/-- The patterns for a language. -/
def ofLanguage (language : String) : Rules :=
  if language = "python" then indented else if language = "rust" then items else script

/-! ## Applying the patterns -/

/-- The functions that a pattern finds, as a name and the text of the parameters. -/
def functionsBy (source : List Char) (p : Pattern) : List (String × List Char) :=
  (p.findAll source).filterMap fun m ↦
    (m.group? 1).map fun name ↦ (name.text, ((m.firstGroup? [2, 3, 4]).map Span.chars).getD [])

/-- The modules that a pattern finds; a path separator at the end is dropped. -/
def importsBy (source : List Char) (p : Pattern) : List String :=
  (p.findAll source).filterMap fun m ↦
    (m.group? 1).map fun module ↦ String.ofList (Text.trimEndWhile (· == ':') module.chars)

/-- The exports that a pattern finds: where each begins, and its name. -/
def exportsBy (source : List Char) (p : Pattern) : List (Nat × Option String) :=
  (p.findAll source).map fun m ↦ (m.whole.start, (m.firstGroup? [1, 2]).map Span.text)

/-- Drop the word `type` and the blank behind it, as often as they stand there. -/
def dropTypeWords : List Char → List Char
  | 't' :: 'y' :: 'p' :: 'e' :: ' ' :: rest => dropTypeWords rest
  | cs => cs

/-- What follows the last place where `separator` stands. -/
def afterLast? (separator : List Char) : List Char → Option (List Char)
  | [] => none
  | c :: rest =>
    match afterLast? separator rest with
    | some after => some after
    | none => separator.isPrefixOf? (c :: rest)

/-- The name under which an item of an export list is exported. -/
def exportedAs (item : List Char) : List Char :=
  let item := Text.trim (dropTypeWords (Text.trim item))
  Text.trim ((afterLast? " as ".toList item).getD item)

/-- The names of an export list, given what is between the braces. -/
def listedExports (inside : List Char) : List String :=
  ((inside.splitOn ',').map exportedAs).filterMap fun name ↦
    if name.isEmpty then none else some (String.ofList name)

/-- Some default export begins where no named export does. -/
def hasAnonymousDefault (source : List Char) (named : List Nat) (p : Pattern) : Bool :=
  (p.findAll source).any fun m ↦ !named.contains m.whole.start

/-- Outline a text by these patterns. -/
def outline (rules : Rules) (source : String) : Outline :=
  let text := source.toList
  let exported := rules.exports.flatMap (exportsBy text)
  let listed := rules.exportLists.toList.flatMap fun p ↦
    (p.findAll text).flatMap fun m ↦ ((m.group? 1).map (listedExports ·.chars)).getD []
  let default := rules.defaultExport.any (hasAnonymousDefault text (exported.map (·.1)))
  let o := (rules.functions.flatMap (functionsBy text)).foldl
    (fun o f ↦ o.addFunction f.1 f.2) empty
  let o := (rules.imports.flatMap (importsBy text)).foldl addImport o
  let o := (exported.filterMap (·.2) ++ listed).foldl addExport o
  if default then o.addExport "default" else o

end Rules

/-- The outline of a text by the patterns for its language. -/
def heuristic (source language : String) : Outline :=
  (Rules.ofLanguage language).outline source

end Outline

end ChangeContext
