import ChangeContext.Outline.Basic
import ChangeContext.Script.Grammar

/-!
# Outlines from the syntax tree

Where the syntax tree of a script is at hand, the outline is read off its nodes, so that strings,
comments and nested parentheses cannot mislead it.  Every node is asked what it contributes, in the
order of the text: a node before what it contains.

Functions come from declarations with a name and from variables whose value is a function itself;
imports from import statements and from calls of `require` with a literal text as first argument;
exports from export statements.
-/

set_option autoImplicit false

namespace ChangeContext

namespace Outline

open Script

/-- A quotation mark of any kind. -/
def isQuotationMark (c : Char) : Bool :=
  c == '\'' || c == '"' || c == '\x60'

/-- The wording of a literal text without its quotation marks. -/
def unquoted (t : Tree) : String :=
  String.ofList (Text.trimWhile isQuotationMark t.text.toList)

/-- The module that a call requires. -/
def requiredModule? (call : Tree) : Option String := do
  let callee ← call.child? .callee
  if callee.kind == .identifier && callee.text == "require" then
    let arguments ← call.child? .arguments
    let first ← arguments.children.head?
    if first.kind == .string then some (unquoted first) else none
  else none

/-- The name of a declaration whose name is an identifier. -/
def identifierName? (t : Tree) : Option String :=
  ((t.child? .name).filter (·.kind == .identifier)).map (·.text)

/-- The names that an exported declaration introduces. -/
def declaredNames (declaration : Tree) : List String :=
  match declaration.kind with
  | .lexicalDeclaration | .variableDeclaration => declaration.children.filterMap identifierName?
  | _ => ((declaration.child? .name).map (·.text)).toList

/-- The names under which the items of an export list are exported. -/
def listedNames (list : Tree) : List String :=
  list.children.filterMap fun item ↦
    (((item.child? .newName).orElse fun _ ↦ item.child? .name)).map unquoted

/-- The names that an export statement exports. -/
def exportedNames (t : Tree) : List String :=
  match t.child? .declaration with
  | some declaration => declaredNames declaration
  | none =>
    if (t.child? .value).isSome then ["default"]
    else (t.children.filter (·.kind == .exportClause)).flatMap listedNames

/-- The node is a function that a variable can hold. -/
def isFunctionValue (t : Tree) : Bool :=
  [.arrowFunction, .functionExpression, .generatorFunction].contains t.kind

/-- The function that a variable holds, with the text of its parameters. -/
def heldFunction? (declarator : Tree) : Option (String × String) := do
  let name ← identifierName? declarator
  let value ← (declarator.child? .value).filter isFunctionValue
  let params := (value.child? .parameters).orElse fun _ ↦ value.child? .parameter
  return (name, (params.map (·.text)).getD "")

/-- The function that a declaration introduces, with the text of its parameters. -/
def declaredFunction? (t : Tree) : Option (String × String) := do
  return ((← t.child? .name).text, (← t.child? .parameters).text)

/-- The function that a node contributes. -/
def functionOf? (t : Tree) : Option (String × String) :=
  match t.kind with
  | .functionDeclaration | .generatorFunctionDeclaration => declaredFunction? t
  | .variableDeclarator => heldFunction? t
  | _ => none

/-- The import that a node contributes. -/
def importOf? (t : Tree) : Option String :=
  match t.kind with
  | .importStatement => (t.child? .source).map unquoted
  | .callExpression => requiredModule? t
  | _ => none

/-- The exports that a node contributes. -/
def exportsOf (t : Tree) : List String :=
  match t.kind with
  | .exportStatement => exportedNames t
  | _ => []

/-- Take in what a node contributes. -/
def takeIn (o : Outline) (t : Tree) : Outline :=
  let o := ((functionOf? t).map fun f ↦ o.addFunction f.1 f.2.toList).getD o
  let o := ((importOf? t).map o.addImport).getD o
  (exportsOf t).foldl addExport o

/-- Take in the nodes of the trees that are waiting, a node before its children and these before
whatever waits behind it. -/
def walk : List Tree → Outline → Outline
  | [], o => o
  | t :: waiting, o => walk (t.children ++ waiting) (o.takeIn t)
termination_by waiting => Tree.sizes waiting
decreasing_by
  rw [Tree.sizes_append, Tree.sizes, Tree.size_eq]
  omega

/-- The outline of a tree. -/
def ofTree (t : Tree) : Outline :=
  walk [t] empty

/-- The outline of a script by its syntax tree, if it has one.

The grammar has no recovery from errors, so a script with a syntax error has no tree here, where a
parser that recovers would make one with the damage marked in it. -/
def structural? (source : String) : Option Outline :=
  (parse? source).map ofTree

end Outline

end ChangeContext
