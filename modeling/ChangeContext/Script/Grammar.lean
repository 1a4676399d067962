import ChangeContext.Script.Lexeme

/-!
# The grammar of scripts

The grammar is written as one layer: what each construct is made of, given a way to read the
constructs inside it.  `read` ties the layers together, one layer to a unit of its bound.  Every
construct costs a few layers and at least one character, so a small multiple of the length of the
text is bound enough for any text.

Operators are read without regard to precedence, as a row of operands: an outline asks what an
expression contains and whether it *is* a function, and for neither does the grouping of operators
matter.  For the same reason the patterns on the left of an assignment, the parameters of a function
and the contents of parentheses are all read as the items of a list, which also lets an arrow decide
afterwards that the parentheses before it held parameters.

A script that does not follow the grammar has no tree.
-/

set_option autoImplicit false

namespace ChangeContext

namespace Script

/-- The constructs of the grammar. -/
inductive Rule where
  /-- Statements up to a closing brace or the end, or in a switch up to the next case. -/
  | statements (inSwitch : Bool)
  | statement
  /-- Assignments with commas between them. -/
  | expression
  | assignment
  /-- Operators and operands behind the first operands, the latest first. -/
  | operands (latest : List Tree)
  | operand
  /-- An operand without what may be attached to it. -/
  | primary
  /-- What is attached to an operand: members, indices, templates and, if allowed, calls. -/
  | attached (base : Tree) (calls : Bool)
  /-- The items of a list up to its closing mark. -/
  | items (close : String)
  | properties
  | members
  | declarators
  | template
  | element
  | attributes
  | elementChildren
  | cases

/-- The nodes of a construct, and where it ends. -/
abbrev Read := Option (List Tree × Cursor)

/-- How to read the constructs inside a construct. -/
abbrev Reader := Rule → Cursor → Read

section Layer

variable (inner : Reader)

/-! ## Blocks and functions -/

/-- A block in braces. -/
def block (c : Cursor) : Read := do
  let c ← c.mark? "\x7b"
  let (body, c) ← inner (.statements false) c
  let c ← c.mark? "\x7d"
  return ([Tree.group body], c)

/-- A parameter list in parentheses. -/
def parameters (c : Cursor) : Read := do
  let start := c.trimmed
  let c ← start.mark? "("
  let (ps, c) ← inner (.items ")") c
  return ([.node .formalParameters (some .parameters) (start.upTo c) ps], c)

/-- Parameters and body. -/
def callable (c : Cursor) : Read := do
  let (ps, c) ← parameters inner c
  let (body, c) ← block inner c
  return (ps ++ body, c)

/-- A name in the role of a name. -/
def nameLeaf (s : String) : Tree :=
  (Tree.leaf .identifier s).as .name

/-- A function behind its keyword; it is a declaration when it has a name and `declared` holds. -/
def function (declared : Bool) (c : Cursor) : Read := do
  let (star, c) := match c.mark? "*" with
    | some c => (true, c)
    | none => (false, c)
  let (name, c) := match c.name? with
    | some (s, c) => ([nameLeaf s], c)
    | none => ([], c)
  let (rest, c) ← callable inner c
  let kind : Kind := match declared && !name.isEmpty, star with
    | true, false => .functionDeclaration
    | true, true => .generatorFunctionDeclaration
    | false, false => .functionExpression
    | false, true => .generatorFunction
  return ([.node kind none "" (name ++ rest)], c)

/-- The body of an arrow function, behind the arrow. -/
def arrowBody (c : Cursor) : Read :=
  if (c.mark? "\x7b").isSome then block inner c else inner .assignment c

/-- An arrow function, behind its parameters. -/
def arrow (params : Tree) (c : Cursor) : Read := do
  let c ← c.mark? "=>"
  let (body, c) ← arrowBody inner c
  return ([.node .arrowFunction none "" (params :: body)], c)

/-- A class behind its keyword. -/
def classBody (c : Cursor) : Read := do
  let (name, c) := match c.name? with
    | some (s, rest) => if s = "extends" then ([], c) else ([nameLeaf s], rest)
    | none => ([], c)
  let (heritage, c) ← match c.keyword? "extends" with
    | some c => inner .operand c
    | none => some ([], c)
  let c ← c.mark? "\x7b"
  let (members, c) ← inner .members c
  let c ← c.mark? "\x7d"
  return ([.node .classDeclaration none "" (name ++ heritage ++ members)], c)

/-- The target of a declaration: a name or a pattern. -/
def target (c : Cursor) : Read :=
  if (c.mark? "\x7b").isSome || (c.mark? "[").isSome then inner .primary c
  else do
    let (s, c) ← c.name?
    return ([Tree.leaf .identifier s], c)

/-- A declared variable behind its target. -/
def declarator (target : List Tree) (c : Cursor) : Read :=
  let name := target.map (·.as .name)
  match c.mark? "=" with
  | some c => do
    let (value, c) ← inner .assignment c
    return ([.node .variableDeclarator none "" (name ++ value.map (·.as .value))], c)
  | none => some ([.node .variableDeclarator none "" name], c)

/-- The variables that follow a first one. -/
def moreDeclarators (first : List Tree) (c : Cursor) : Read :=
  match c.mark? "," with
  | some c => do
    let (rest, c) ← inner .declarators c
    return (first ++ rest, c)
  | none => some (first, c)

/-- The kind of a declaration with this keyword. -/
def declarationKind (keyword : String) : Kind :=
  if keyword = "var" then .variableDeclaration else .lexicalDeclaration

/-- The end of a statement: a semicolon, or nothing where one may be left out. -/
def endStatement (c : Cursor) : Cursor :=
  (c.mark? ";").getD c

/-- A declaration of variables behind its keyword. -/
def declaration (keyword : String) (c : Cursor) : Read := do
  let (ds, c) ← inner .declarators c
  return ([Tree.branch (declarationKind keyword) ds], endStatement c)

/-! ## Statements -/

/-- An expression in parentheses. -/
def condition (c : Cursor) : Read := do
  let c ← c.mark? "("
  let (e, c) ← inner .expression c
  let c ← c.mark? ")"
  return (e, c)

/-- An expression up to a mark, or the mark alone. -/
def upToMark (mark : String) (c : Cursor) : Read :=
  match c.mark? mark with
  | some c => some ([], c)
  | none => do
    let (e, c) ← inner .expression c
    return (e, ← c.mark? mark)

/-- The head of a counting loop behind its first part. -/
def loopTail (first : List Tree) (c : Cursor) : Read := do
  let c ← c.mark? ";"
  let (test, c) ← upToMark inner ";" c
  let (step, c) ← upToMark inner ")" c
  return (first ++ test ++ step, c)

/-- The head of a loop over a collection behind its variable. -/
def collectionTail (first : List Tree) (c : Cursor) : Read := do
  let (e, c) ← inner .expression c
  return (first ++ e, ← c.mark? ")")

/-- A word of a loop over a collection. -/
def loopWord? (c : Cursor) : Option Cursor :=
  match c.keyword? "of" with
  | some c => some c
  | none => c.keyword? "in"

/-- The keyword of a declaration of variables, if such a declaration stands here. -/
def declarationKeyword? (c : Cursor) : Option (String × Cursor) :=
  match c.name? with
  | some (word, rest) =>
    if ["var", "let", "const"].contains word
        && (rest.trimmed.seesChar fun x ↦ x == '[' || x == '\x7b' || x == '\\' || isNameStart x)
        && (rest.keyword? "in").isNone && (rest.keyword? "instanceof").isNone then
      some (word, rest)
    else none
  | none => none

/-- The head of a loop behind its opening parenthesis. -/
def loopHead (c : Cursor) : Read :=
  match declarationKeyword? c with
  | some (keyword, c) => do
    let (t, c) ← target inner c
    match loopWord? c with
    | some c => collectionTail inner t c
    | none =>
      let (d, c) ← declarator inner t c
      let (ds, c) ← moreDeclarators inner d c
      let started := [Tree.group (ds.flatMap Tree.children)]
      match loopWord? c with
      | some c => collectionTail inner started c
      | none =>
        match c.mark? ")" with
        | some c => return (started, c)
        | none => loopTail inner [Tree.branch (declarationKind keyword) ds] c
  | none =>
    if (c.mark? ";").isSome then loopTail inner [] c
    else do
      let (e, c) ← inner .expression c
      match c.keyword? "of" with
      | some c => collectionTail inner e c
      | none =>
        match c.mark? ")" with
        | some c => some (e, c)
        | none => loopTail inner e c

/-- A loop behind its keyword. -/
def forLoop (c : Cursor) : Read := do
  let c := (c.keyword? "await").getD c
  let c ← c.mark? "("
  let (head, c) ← loopHead inner c
  let (body, c) ← inner .statement c
  return ([Tree.group (head ++ body)], c)

/-- A condition and a statement. -/
def guarded (c : Cursor) : Read := do
  let (e, c) ← condition inner c
  let (body, c) ← inner .statement c
  return ([Tree.group (e ++ body)], c)

/-- A choice behind its keyword. -/
def choice (c : Cursor) : Read := do
  let (yes, c) ← guarded inner c
  match c.keyword? "else" with
  | some c =>
    let (no, c) ← inner .statement c
    return ([Tree.group (yes ++ no)], c)
  | none => return (yes, c)

/-- A loop that tests at its end, behind its keyword. -/
def doLoop (c : Cursor) : Read := do
  let (body, c) ← inner .statement c
  let c ← c.keyword? "while"
  let (e, c) ← condition inner c
  return ([Tree.group (body ++ e)], endStatement c)

/-- A choice among cases behind its keyword. -/
def switch (c : Cursor) : Read := do
  let (e, c) ← condition inner c
  let c ← c.mark? "\x7b"
  let (cases, c) ← inner .cases c
  return ([Tree.group (e ++ cases)], c)

/-- The cases of a choice up to its closing brace. -/
def switchCases (c : Cursor) : Read :=
  match c.mark? "\x7d" with
  | some c => some ([], c)
  | none => do
    let (test, c) ← match c.keyword? "case" with
      | some c => inner .expression c
      | none => (c.keyword? "default").map fun c ↦ ([], c)
    let c ← c.mark? ":"
    let (body, c) ← inner (.statements true) c
    let (rest, c) ← inner .cases c
    return (test ++ body ++ rest, c)

/-- The handler of a guarded block, if there is one. -/
def handler (c : Cursor) : Read :=
  match c.keyword? "catch" with
  | none => some ([], c)
  | some c => do
    let (param, c) ← match c.mark? "(" with
      | some c => do
        let (t, c) ← target inner c
        pure (t, ← c.mark? ")")
      | none => some ([], c)
    let (body, c) ← block inner c
    return (param ++ body, c)

/-- A guarded block behind its keyword. -/
def guardedBlock (c : Cursor) : Read := do
  let (body, c) ← block inner c
  let (caught, c) ← handler inner c
  let (last, c) ← match c.keyword? "finally" with
    | some c => block inner c
    | none => some ([], c)
  return ([Tree.group (body ++ caught ++ last)], c)

/-- Nothing more belongs to a statement that may end at the end of its line. -/
def endsHere (c : Cursor) : Bool :=
  let g := c.gap
  g.lineBreak || g.next.ahead.isEmpty || g.next.seesChar fun x ↦ x == ';' || x == '\x7d'

/-- A statement that leaves, with what it takes along. -/
def leaving (c : Cursor) : Read :=
  if endsHere c then some ([], endStatement c)
  else do
    let (e, c) ← inner .expression c
    return ([Tree.group e], endStatement c)

/-- An expression as a statement. -/
def expressionStatement (c : Cursor) : Read := do
  let (e, c) ← inner .expression c
  return ([Tree.group e], endStatement c)

/-! ## Imports and exports -/

/-- What follows the module of an import or export. -/
def moduleTail (c : Cursor) : Read :=
  match c.name? with
  | some (word, rest) =>
    if (word = "with" || word = "assert") && (rest.mark? "\x7b").isSome then do
      let (attributes, c) ← inner .primary rest
      return (attributes, endStatement c)
    else some ([], endStatement c)
  | none => some ([], endStatement c)

/-- Past names, marks and texts up to a closing brace, which is passed too. -/
def skipBraces : (bound : Nat) → Cursor → Option Cursor
  | 0, _ => none
  | bound + 1, c =>
    let c := c.trimmed
    match c.mark? "\x7d" with
    | some c => some c
    | none =>
      match c.string? with
      | some (_, c) => skipBraces bound c
      | none =>
        match c.name? with
        | some (_, c) => skipBraces bound c
        | none => if c.ahead.isEmpty then none else skipBraces bound (c.skip 1)

/-- The module of an import: the first text that is not in braces. -/
def importedModule : (bound : Nat) → Cursor → Read
  | 0, _ => none
  | bound + 1, c =>
    match c.string? with
    | some (s, c) => some ([s.as .source], c)
    | none =>
      match c.mark? "\x7b" with
      | some c => (skipBraces c.ahead.length c).bind (importedModule bound)
      | none =>
        match c.name? with
        | some (_, c) => importedModule bound c
        | none =>
          let c := c.trimmed
          if c.sees "*" || c.sees "," then importedModule bound (c.skip 1) else none

/-- An import behind its keyword. -/
def importStatement (c : Cursor) : Read := do
  let (source, c) ← importedModule (c.ahead.length + 1) c
  let (attributes, c) ← moduleTail inner c
  return ([Tree.branch .importStatement (source ++ attributes)], c)

/-- A name by which a module knows what it exports. -/
def exportName? (c : Cursor) : Option (Tree × Cursor) :=
  match c.string? with
  | some r => some r
  | none => c.name?.map fun r ↦ (Tree.leaf .identifier r.1, r.2)

/-- The items of an export list up to its closing brace. -/
def specifiers : (bound : Nat) → Cursor → Read
  | 0, _ => none
  | bound + 1, c =>
    match c.mark? "\x7d" with
    | some c => some ([], c)
    | none =>
      match c.mark? "," with
      | some c => specifiers bound c
      | none => do
        let (name, c) ← exportName? c
        let (newName, c) ← match c.keyword? "as" with
          | some c => do
            let (a, c) ← exportName? c
            pure ([a.as .newName], c)
          | none => some ([], c)
        let (rest, c) ← specifiers bound c
        return (Tree.branch .exportSpecifier (name.as .name :: newName) :: rest, c)

/-- The module that a list of exports is taken from, if there is one. -/
def fromModule (c : Cursor) : Read :=
  match c.keyword? "from" with
  | some c => do
    let (s, c) ← c.string?
    let (attributes, c) ← moduleTail inner c
    return (s :: attributes, c)
  | none => some ([], endStatement c)

/-- Everything a module exports, under one name or each under its own, behind the star. -/
def exportAll (c : Cursor) : Read := do
  let c ← match c.keyword? "as" with
    | some c => (exportName? c).map (·.2)
    | none => some c
  let (rest, c) ← fromModule inner c
  return ([Tree.branch .exportStatement rest], c)

/-- A function or class with a name stands here, behind words that introduce it. -/
def seesDeclared (c : Cursor) : Bool :=
  match c.name? with
  | some ("class", c) => c.name?.any fun r ↦ r.1 ≠ "extends"
  | some ("function", c) => (((c.mark? "*").getD c).name?).isSome
  | some ("async", c) =>
    match c.keyword? "function" with
    | some c => (((c.mark? "*").getD c).name?).isSome
    | none => false
  | _ => false

/-- The last node in the role of a declaration. -/
def asDeclaration : List Tree → List Tree
  | [] => []
  | [t] => [t.as .declaration]
  | t :: rest => t :: asDeclaration rest

/-- A default export behind its keywords. -/
def exportDefault (c : Cursor) : Read :=
  if seesDeclared c then do
    let (d, c) ← inner .statement c
    return ([Tree.branch .exportStatement (asDeclaration d)], c)
  else do
    let (e, c) ← inner .assignment c
    return ([Tree.branch .exportStatement (e.map (·.as .value))], endStatement c)

/-- An export behind its keyword. -/
def exportStatement (c : Cursor) : Read :=
  match c.mark? "*" with
  | some c => exportAll inner c
  | none =>
    match c.mark? "\x7b" with
    | some c => do
      let (list, c) ← specifiers (c.ahead.length + 1) c
      let (rest, c) ← fromModule inner c
      return ([Tree.branch .exportStatement (Tree.branch .exportClause list :: rest)], c)
    | none =>
      match c.keyword? "default" with
      | some c => exportDefault inner c
      | none => do
        let (d, c) ← inner .statement c
        return ([Tree.branch .exportStatement (asDeclaration d)], c)

/-- A decorator behind its mark, and what is decorated. -/
def decorated (next : Rule) (c : Cursor) : Read := do
  let (d, c) ← inner .operand c
  let (rest, c) ← inner next c
  return (d ++ rest, c)

/-- A statement that begins with a name; `rest` is behind it. -/
def namedStatement (word : String) (rest c : Cursor) : Read :=
  match word with
  | "if" => choice inner rest
  | "for" => forLoop inner rest
  | "while" | "with" => guarded inner rest
  | "do" => doLoop inner rest
  | "switch" => switch inner rest
  | "try" => guardedBlock inner rest
  | "return" | "throw" => leaving inner rest
  | "break" | "continue" => leaving inner rest
  | "debugger" => some ([], endStatement rest)
  | "function" => function inner true rest
  | "class" => classBody inner rest
  | "import" =>
    if (rest.mark? "(").isSome || (rest.mark? ".").isSome then expressionStatement inner c
    else importStatement inner rest
  | "export" => exportStatement inner rest
  | _ =>
    match declarationKeyword? c with
    | some (keyword, rest) => declaration inner keyword rest
    | none =>
      match (if word = "async" && !rest.gap.lineBreak then rest.keyword? "function" else none) with
      | some rest => function inner true rest
      | none =>
        match rest.mark? ":" with
        | some rest => inner .statement rest
        | none => expressionStatement inner c

/-- One statement. -/
def statement (c : Cursor) : Read :=
  let c := c.trimmed
  match c.ahead with
  | ';' :: _ => some ([], c.skip 1)
  | '\x7b' :: _ => block inner c
  | '@' :: _ => decorated inner .statement (c.skip 1)
  | _ =>
    match c.name? with
    | some (word, rest) => namedStatement inner word rest c
    | none => expressionStatement inner c

/-- Past a comment that is marked as in markup, if one stands here. -/
def skipMarkupComment (c : Cursor) : Cursor :=
  if c.sees "<!--" || c.sees "-->" then (c.skipWhile fun x ↦ !isLineBreak x).trimmed else c

/-- Statements one after the other. -/
def statements (inSwitch : Bool) (c : Cursor) : Read :=
  let c := skipMarkupComment c.trimmed
  if c.ahead.isEmpty || c.sees "\x7d" then some ([], c)
  else if inSwitch && ((c.keyword? "case").isSome
      || (c.keyword? "default").any fun c ↦ (c.mark? ":").isSome) then some ([], c)
  else do
    let (first, c) ← inner .statement c
    let (rest, c) ← inner (.statements inSwitch) c
    return (first ++ rest, c)

/-! ## Expressions -/

/-- Assignments with commas between them. -/
def expression (c : Cursor) : Read := do
  let (first, c) ← inner .assignment c
  match c.mark? "," with
  | some c =>
    let (rest, c) ← inner .expression c
    return ([Tree.group (first ++ rest)], c)
  | none => return (first, c)

/-- A question mark that asks for two alternatives stands here. -/
def seesQuestion (c : Cursor) : Bool :=
  match c.ahead with
  | '?' :: '.' :: d :: _ => d.isDigit
  | '?' :: '?' :: _ => false
  | '?' :: _ => true
  | _ => false

/-- Operators and operands behind the first operands. -/
def operands (latest : List Tree) (c : Cursor) : Read :=
  let d := c.trimmed
  if seesQuestion d then do
    let (yes, d) ← inner .assignment (d.skip 1)
    let d ← d.mark? ":"
    let (no, d) ← inner .assignment d
    return ([Tree.group (latest.reverse ++ yes ++ no)], d)
  else
    match c.joiner? with
    | some d => do
      let (next, d) ← inner .operand d
      inner (.operands (next.reverse ++ latest)) d
    | none =>
      match latest with
      | [t] => some ([t], c)
      | _ => some ([Tree.group latest.reverse], c)

/-- An assignment: operands with operators between them. -/
def assignment (c : Cursor) : Read := do
  let (first, c) ← inner .operand c
  inner (.operands first) c

/-- Call arguments behind their opening parenthesis. -/
def arguments (c : Cursor) : Read := do
  let (args, c) ← inner (.items ")") c
  return ([.node .arguments (some .arguments) "" args], c)

/-- A call of `base`, behind the opening parenthesis of its arguments. -/
def call (base : Tree) (c : Cursor) : Read := do
  let (args, c) ← arguments inner c
  return ([Tree.branch .callExpression (base.as .callee :: args)], c)

/-- Past the name of a member. -/
def memberName? (c : Cursor) : Option Cursor :=
  (((c.mark? "#").getD c).name?).map (·.2)

/-- One attachment of `base`: the tree with it, or nothing when there is none. -/
def attachment (base : Tree) (calls : Bool) (c : Cursor) : Option Read :=
  let d := c.trimmed
  match d.ahead with
  | '(' :: _ => if calls then some (call inner base (d.skip 1)) else none
  | '[' :: _ => some do
    let (e, d) ← inner .expression (d.skip 1)
    let d ← d.mark? "]"
    return ([Tree.group (base :: e)], d)
  | '\x60' :: _ => some do
    let (t, d) ← inner .template (d.skip 1)
    let t := Tree.node .templateString (some .arguments) "" t
    return ([Tree.branch .callExpression [base.as .callee, t]], d)
  | '.' :: _ => some ((memberName? (d.skip 1)).map fun d ↦ ([Tree.group [base]], d))
  | '?' :: '.' :: next :: _ =>
    if next.isDigit then none
    else
      let d := d.skip 2
      match d.mark? "(" with
      | some d => some (call inner base d)
      | none =>
        match d.mark? "[" with
        | some d => some do
          let (e, d) ← inner .expression d
          let d ← d.mark? "]"
          return ([Tree.group (base :: e)], d)
        | none => some ((memberName? d).map fun d ↦ ([Tree.group [base]], d))
  | _ => none

/-- What is attached to an operand. -/
def attached (base : Tree) (calls : Bool) (c : Cursor) : Read :=
  match attachment inner base calls c with
  | none => some ([base], c)
  | some r => do
    let (t, c) ← r
    inner (.attached (t.head?.getD base) calls) c

/-- A step up or down behind an operand, on the same line. -/
def stepped (base : List Tree) (c : Cursor) : Read :=
  let g := c.gap
  if !g.lineBreak && (g.next.sees "++" || g.next.sees "--") then
    some ([Tree.group base], g.next.skip 2)
  else some (base, c)

/-- A sign before an operand stands here. -/
def signLength (c : Cursor) : Nat :=
  if c.sees "++" || c.sees "--" then 2
  else if c.seesChar fun x ↦ x == '!' || x == '~' || x == '+' || x == '-' then 1
  else 0

/-- An operand may begin here. -/
def seesOperand (c : Cursor) : Bool :=
  let g := c.gap
  !g.lineBreak && g.next.seesChar fun x ↦
    isNameStart x || x.isDigit || "([\x7b\x60\"'/<!~+-#@\\".toList.contains x

/-- A word before an operand stands here; the cursor behind it. -/
def prefixWord? (c : Cursor) : Option Cursor :=
  match c.name? with
  | some (word, rest) =>
    if ["typeof", "void", "delete", "await"].contains word then some rest else none
  | none => none

/-- A pause of a generator stands here; the cursor behind its keyword. -/
def yielded (c : Cursor) : Read :=
  match c.mark? "*" with
  | some c => inner .assignment c
  | none => if seesOperand c then inner .assignment c else some ([], c)

/-- One operand with everything before and behind it. -/
def operand (c : Cursor) : Read :=
  let c := c.trimmed
  let n := signLength c
  if n ≠ 0 then do
    let (t, c) ← inner .operand (c.skip n)
    return ([Tree.group t], c)
  else
    match prefixWord? c with
    | some c => do
      let (t, c) ← inner .operand c
      return ([Tree.group t], c)
    | none =>
      match c.keyword? "yield" with
      | some c => do
        let (t, c) ← yielded inner c
        return ([Tree.group t], c)
      | none => do
        let (base, c) ← inner .primary c
        match base with
        | [t] =>
          let (t, c) ← inner (.attached t true) c
          stepped t c
        | _ => return (base, c)

/-- A new object behind its keyword. -/
def newObject (c : Cursor) : Read :=
  match c.mark? "." with
  | some c => (memberName? c).map fun c ↦ ([Tree.leaf .other ""], c)
  | none => do
    let (maker, c) ← inner .primary c
    let (maker, c) ← inner (.attached (Tree.group maker) false) c
    match c.mark? "(" with
    | some c =>
      let (args, c) ← arguments inner c
      return ([Tree.group (maker ++ args)], c)
    | none => return ([Tree.group maker], c)

/-- An operand that begins with `async`, which `c` is behind. -/
def asyncOperand (c : Cursor) : Read :=
  let plain : Read :=
    if c.atArrow then arrow inner ((Tree.leaf .identifier "async").as .parameter) c
    else some ([Tree.leaf .identifier "async"], c)
  if c.gap.lineBreak then plain
  else
    match c.keyword? "function" with
    | some c => function inner false c
    | none =>
      match c.mark? "(" with
      | some d => do
        let (items, d) ← inner (.items ")") d
        if d.atArrow then
          arrow inner (.node .formalParameters (some .parameters) (c.trimmed.upTo d) items) d
        else
          let args := Tree.node .arguments (some .arguments) "" items
          let callee := (Tree.leaf .identifier "async").as .callee
          return ([Tree.branch .callExpression [callee, args]], d)
      | none =>
        match c.name? with
        | some (s, d) =>
          if d.atArrow then arrow inner ((Tree.leaf .identifier s).as .parameter) d else plain
        | none => plain

/-- Words that stand for a value of their own. -/
def valueWords : List String :=
  ["this", "super", "null", "true", "false", "import"]

/-- An operand that begins with a name; `rest` is behind it. -/
def namedPrimary (word : String) (rest : Cursor) : Read :=
  match word with
  | "function" => function inner false rest
  | "class" => classBody inner rest
  | "new" => newObject inner rest
  | "async" => asyncOperand inner rest
  | _ =>
    if valueWords.contains word then some ([Tree.leaf .other ""], rest)
    else if rest.atArrow then arrow inner ((Tree.leaf .identifier word).as .parameter) rest
    else some ([Tree.leaf .identifier word], rest)

/-- Parentheses: an expression, or the parameters of an arrow function. -/
def parenthesized (c : Cursor) : Read := do
  let (items, d) ← inner (.items ")") (c.skip 1)
  if d.atArrow then arrow inner (.node .formalParameters (some .parameters) (c.upTo d) items) d
  else return ([Tree.group items], d)

/-- An operand without what may be attached to it. -/
def primary (c : Cursor) : Read :=
  let c := c.trimmed
  match c.ahead with
  | '(' :: _ => parenthesized inner c
  | '[' :: _ => (inner (.items "]") (c.skip 1)).map fun r ↦ ([Tree.group r.1], r.2)
  | '\x7b' :: _ => do
    let (ps, c) ← inner .properties (c.skip 1)
    return ([Tree.group ps], ← c.mark? "\x7d")
  | '\x60' :: _ => do
    let (t, c) ← inner .template (c.skip 1)
    return ([Tree.branch .templateString t], c)
  | '/' :: _ => c.regex?.map fun c ↦ ([Tree.leaf .other ""], c)
  | '<' :: _ => inner .element c
  | '@' :: _ => decorated inner .primary (c.skip 1)
  | '#' :: _ => (memberName? c).map fun c ↦ ([Tree.leaf .other ""], c)
  | x :: _ =>
    if x.isDigit || x == '.' then some ([Tree.leaf .other ""], c.skipNumber)
    else
      match c.string? with
      | some (s, c) => some ([s], c)
      | none =>
        match c.name? with
        | some (word, rest) => namedPrimary inner word rest
        | none => none
  | [] => none

/-- The items of a list up to its closing mark; comments are items too. -/
def items (close : String) (c : Cursor) : Read :=
  let g := c.gap
  match g.next.mark? close with
  | some c => some (g.comments, c)
  | none =>
    match g.next.mark? "," with
    | some c => do
      let (rest, c) ← inner (.items close) c
      return (g.comments ++ rest, c)
    | none => do
      let (item, c) ← match g.next.mark? "..." with
        | some c => (inner .assignment c).map fun r ↦ ([Tree.group r.1], r.2)
        | none => inner .assignment g.next
      let (rest, c) ← inner (.items close) c
      return (g.comments ++ item ++ rest, c)

/-! ## Objects and classes -/

/-- The name of a property or member begins here. -/
def seesKey (c : Cursor) : Bool :=
  c.trimmed.seesChar fun x ↦ isNameStart x || x.isDigit || "[\"'#\\*".toList.contains x

/-- The name of a property or member: a name, a text, a number, or an expression in brackets. -/
def key (c : Cursor) : Read :=
  let c := c.trimmed
  match c.mark? "[" with
  | some c => do
    let (e, c) ← inner .assignment c
    return (e, ← c.mark? "]")
  | none =>
    match c.string? with
    | some (s, c) => some ([s], c)
    | none =>
      if c.seesChar fun x ↦ x.isDigit || x == '.' then some ([], c.skipNumber)
      else (memberName? c).map fun c ↦ ([], c)

/-- Words before the name of a property or member. -/
def modifiers : List String :=
  ["static", "async", "get", "set", "accessor"]

/-- Past a word before the name of a property or member, if one stands here. -/
def modifier? (c : Cursor) : Option Cursor :=
  match c.mark? "*" with
  | some c => some c
  | none =>
    match c.name? with
    | some (word, rest) => if modifiers.contains word && seesKey rest then some rest else none
    | none => none

/-- A property behind its name. -/
def propertyTail (name : List Tree) (shorthand : List Tree) (c : Cursor) : Read :=
  if (c.mark? "(").isSome then (callable inner c).map fun r ↦ ([Tree.group (name ++ r.1)], r.2)
  else
    match c.mark? ":" with
    | some c => (inner .assignment c).map fun r ↦ (name ++ r.1, r.2)
    | none =>
      match c.mark? "=" with
      | some c => (inner .assignment c).map fun r ↦ (shorthand ++ r.1, r.2)
      | none => some (shorthand, c)

/-- One property of an object. -/
def property (c : Cursor) : Read :=
  match c.mark? "..." with
  | some c => (inner .assignment c).map fun r ↦ ([Tree.group r.1], r.2)
  | none => do
    let (name, d) ← key inner c
    let shorthand := match c.name? with
      | some (s, _) => [Tree.leaf .identifier s]
      | none => []
    propertyTail inner name shorthand d

/-- The properties of an object up to its closing brace, which is left. -/
def properties (c : Cursor) : Read :=
  let c := c.trimmed
  if c.sees "\x7d" then some ([], c)
  else
    match c.mark? "," with
    | some c => inner .properties c
    | none =>
      match modifier? c with
      | some c => inner .properties c
      | none => do
        let (p, c) ← property inner c
        let (rest, c) ← inner .properties c
        return (p ++ rest, c)

/-- One member of a class. -/
def classMember (c : Cursor) : Read := do
  let (name, c) ← key inner c
  if (c.mark? "(").isSome then
    let (f, c) ← callable inner c
    return ([Tree.group (name ++ f)], c)
  else
    match c.mark? "=" with
    | some c =>
      let (value, c) ← inner .assignment c
      return ([Tree.group (name ++ value)], endStatement c)
    | none => return ([Tree.group name], endStatement c)

/-- The members of a class up to its closing brace, which is left. -/
def classMembers (c : Cursor) : Read :=
  let c := c.trimmed
  match c.ahead with
  | '\x7d' :: _ => some ([], c)
  | ';' :: _ => inner .members (c.skip 1)
  | '@' :: _ => decorated inner .members (c.skip 1)
  | _ =>
    match (c.keyword? "static").filter fun c ↦ (c.mark? "\x7b").isSome with
    | some c => do
      let (body, c) ← block inner c
      let (rest, c) ← inner .members c
      return (body ++ rest, c)
    | none =>
      match modifier? c with
      | some c => inner .members c
      | none => do
        let (m, c) ← classMember inner c
        let (rest, c) ← inner .members c
        return (m ++ rest, c)

/-- The variables of a declaration. -/
def declarators (c : Cursor) : Read := do
  let (t, c) ← target inner c
  let (d, c) ← declarator inner t c
  moreDeclarators inner d c

/-! ## Templates and elements -/

/-- The length of the plain part of a template. -/
def templateTextLength : List Char → Nat
  | [] => 0
  | '\\' :: _ :: rest => 2 + templateTextLength rest
  | '\x60' :: _ => 0
  | '$' :: '\x7b' :: _ => 0
  | _ :: rest => 1 + templateTextLength rest

/-- A template behind its opening mark: the expressions it holds. -/
def template (c : Cursor) : Read :=
  let c := c.skip (templateTextLength c.ahead)
  match c.ahead with
  | '\x60' :: _ => some ([], c.skip 1)
  | '$' :: _ => do
    let (e, c) ← inner .expression (c.skip 2)
    let c ← c.mark? "\x7d"
    let (rest, c) ← inner .template c
    return (Tree.group e :: rest, c)
  | _ => none

/-- A character of the name of an element or attribute. -/
def isElementName (c : Char) : Bool :=
  isNameRest c || c == '-' || c == ':' || c == '.'

/-- An expression in braces inside an element, behind the opening brace. -/
def embedded (c : Cursor) : Read :=
  match c.mark? "\x7d" with
  | some c => some ([], c)
  | none => do
    let c := (c.mark? "...").getD c
    let (e, c) ← inner .expression c
    return (e, ← c.mark? "\x7d")

/-- The value of an attribute. -/
def attributeValue (c : Cursor) : Read :=
  let c := c.trimmed
  match c.ahead with
  | '\x7b' :: _ => embedded inner (c.skip 1)
  | '<' :: _ => inner .element c
  | quote :: rest =>
    if quote = '"' || quote = '\'' then
      some ([Tree.leaf .string ""], c.skip (2 + (rest.takeWhile (· ≠ quote)).length))
    else none
  | [] => none

/-- The attributes of an element up to the end of its opening tag, which is left. -/
def attributes (c : Cursor) : Read :=
  let c := c.trimmed
  match c.ahead with
  | '>' :: _ | '/' :: _ => some ([], c)
  | '\x7b' :: _ => do
    let (e, c) ← embedded inner (c.skip 1)
    let (rest, c) ← inner .attributes c
    return (e ++ rest, c)
  | x :: _ =>
    if isElementName x then
      let c := c.skipWhile isElementName
      match c.mark? "=" with
      | some c => do
        let (value, c) ← attributeValue inner c
        let (rest, c) ← inner .attributes c
        return (value ++ rest, c)
      | none => inner .attributes c
    else none
  | [] => none

/-- What stands inside an element, up to a closing tag, which is left. -/
def elementChildren (c : Cursor) : Read :=
  let c := c.skipWhile fun x ↦ x ≠ '<' && x ≠ '\x7b'
  match c.ahead with
  | '\x7b' :: _ => do
    let (e, c) ← embedded inner (c.skip 1)
    let (rest, c) ← inner .elementChildren c
    return (e ++ rest, c)
  | '<' :: _ =>
    if (c.mark? "</").isSome || ((c.skip 1).mark? "/").isSome then some ([], c)
    else do
      let (t, c) ← inner .element c
      let (rest, c) ← inner .elementChildren c
      return (t ++ rest, c)
  | _ => none

/-- An element. -/
def element (c : Cursor) : Read := do
  let c ← c.mark? "<"
  let (atts, c) ← inner .attributes (c.trimmed.skipWhile isElementName)
  match c.mark? "/" with
  | some c => return ([Tree.group atts], ← c.mark? ">")
  | none =>
    let c ← c.mark? ">"
    let (inside, c) ← inner .elementChildren c
    let c ← c.mark? "<"
    let c ← c.mark? "/"
    let c ← (c.trimmed.skipWhile isElementName).mark? ">"
    return ([Tree.group (atts ++ inside)], c)

/-- What a construct is made of. -/
def layer : Reader
  | .statements inSwitch => statements inner inSwitch
  | .statement => statement inner
  | .expression => expression inner
  | .assignment => assignment inner
  | .operands latest => operands inner latest
  | .operand => operand inner
  | .primary => primary inner
  | .attached base calls => attached inner base calls
  | .items close => items inner close
  | .properties => properties inner
  | .members => classMembers inner
  | .declarators => declarators inner
  | .template => template inner
  | .element => element inner
  | .attributes => attributes inner
  | .elementChildren => elementChildren inner
  | .cases => switchCases inner

end Layer

/-- Read a construct of at most `bound` layers. -/
def read : (bound : Nat) → Reader
  | 0 => fun _ _ ↦ none
  | bound + 1 => layer (read bound)

/-- Past the line that names an interpreter, if the text begins with one. -/
def skipInterpreterLine (c : Cursor) : Cursor :=
  let d := c.skipWhile (· == '\uFEFF')
  if d.sees "#!" then d.skipWhile (· ≠ '\n') else c

/-- The tree of a script, if the script follows the grammar. -/
def parse? (source : String) : Option Tree :=
  let c := skipInterpreterLine (Cursor.start source)
  match read (8 * source.length + 64) (.statements false) c with
  | some (trees, c) => if c.ahead.isEmpty then some (Tree.group trees) else none
  | none => none

end Script

end ChangeContext
