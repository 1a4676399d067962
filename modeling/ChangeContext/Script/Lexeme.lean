import ChangeContext.Script.Tree
import ChangeContext.Text.Blank

/-!
# Lexemes of scripts

A script has no fixed division into lexemes: whether a slash divides or opens a regular expression,
and whether an angle bracket compares or opens an element, depends on what may come next.  So the
grammar asks for lexemes one at a time, and this file holds what it can ask for.  Everything is
read from a `Cursor`, the rest of the text with its distance from the start.

The gap before a lexeme is made of blanks and comments.  Comments are nodes of the tree, and a
line break in the gap may end a statement, so the gap reports both.
-/

set_option autoImplicit false

namespace ChangeContext

namespace Script

/-- What is left of the text, and how much of it has been read. -/
structure Cursor where
  ahead : List Char
  offset : Nat
deriving Inhabited

namespace Cursor

/-- The start of a text. -/
def start (source : String) : Cursor :=
  ⟨source.toList, 0⟩

/-- Past `n` characters. -/
def skip (c : Cursor) (n : Nat) : Cursor :=
  ⟨c.ahead.drop n, c.offset + n⟩

/-- The text between two cursors. -/
def upTo (c d : Cursor) : String :=
  String.ofList (c.ahead.take (d.offset - c.offset))

/-- Past the characters for which `accepts` holds. -/
def skipWhile (c : Cursor) (accepts : Char → Bool) : Cursor :=
  c.skip (c.ahead.takeWhile accepts).length

/-- The text goes on with `s`. -/
def sees (c : Cursor) (s : String) : Bool :=
  s.toList.isPrefixOf c.ahead

/-- The next character satisfies `p`. -/
def seesChar (c : Cursor) (p : Char → Bool) : Bool :=
  c.ahead.head?.any p

end Cursor

/-! ## Gaps -/

/-- A blank between lexemes. -/
def isBlank (c : Char) : Bool :=
  Text.isBlank c || c == '\uFEFF' || c == '\u2060' || c == '\u200B'

/-- A character that ends a line. -/
def isLineBreak (c : Char) : Bool :=
  c == '\n' || c == '\u2028' || c == '\u2029'

/-- Where in a gap the reading stands. -/
inductive GapState where
  | blanks
  | lineComment
  /-- Before the second mark that opens a block comment. -/
  | blockOpen
  | blockComment
  /-- Before the second mark that closes a block comment. -/
  | blockClose

/-- What lies before a lexeme. -/
structure Gap where
  /-- Behind the gap. -/
  next : Cursor
  /-- The gap holds a line break. -/
  lineBreak : Bool
  /-- A node for each comment. -/
  comments : List Tree

/-- A comment opens at `c`, which `next` follows. -/
def opens (c : Char) (next : Option Char) (mark : Char) : Bool :=
  c == '/' && next == some mark

/-- Read a gap, having seen a line break and comments already. -/
def Gap.from (state : GapState) (lineBreak : Bool) (comments : List Tree) (offset : Nat) :
    List Char → Gap
  | [] => ⟨⟨[], offset⟩, lineBreak, comments⟩
  | c :: rest =>
    let broken := lineBreak || isLineBreak c
    match state with
    | .lineComment =>
      Gap.from (if isLineBreak c then .blanks else .lineComment) broken comments (offset + 1) rest
    | .blockOpen => Gap.from .blockComment broken comments (offset + 1) rest
    | .blockComment =>
      Gap.from (if c == '*' && rest.head? == some '/' then .blockClose else .blockComment) broken
        comments (offset + 1) rest
    | .blockClose => Gap.from .blanks broken comments (offset + 1) rest
    | .blanks =>
      if isBlank c then Gap.from .blanks broken comments (offset + 1) rest
      else if opens c rest.head? '/' then
        Gap.from .lineComment lineBreak (comments ++ [Tree.leaf .comment ""]) (offset + 1) rest
      else if opens c rest.head? '*' then
        Gap.from .blockOpen lineBreak (comments ++ [Tree.leaf .comment ""]) (offset + 1) rest
      else ⟨⟨c :: rest, offset⟩, lineBreak, comments⟩

/-- The gap at a cursor. -/
def Cursor.gap (c : Cursor) : Gap :=
  Gap.from .blanks false [] c.offset c.ahead

/-- Behind the gap at a cursor. -/
def Cursor.trimmed (c : Cursor) : Cursor :=
  c.gap.next

/-! ## Names -/

/-- A character that a name may begin with. -/
def isNameStart (c : Char) : Bool :=
  0x20 < c.toNat && !c.isDigit && !isBlank c && !isLineBreak c
    && !":;\x60\"'@#.,|^&<=>+-*/\\%?!~()[]\x7b\x7d".toList.contains c

/-- A character that a name may go on with. -/
def isNameRest (c : Char) : Bool :=
  isNameStart c || c.isDigit

/-- The length of the escape of a character in a name, which begins with a backslash. -/
def escapeLength (cs : List Char) : Nat :=
  match cs with
  | '\\' :: 'u' :: '\x7b' :: rest => 4 + (rest.takeWhile (· ≠ '\x7d')).length
  | '\\' :: 'u' :: _ => 6
  | _ => 0

/-- The length of the name that a text begins with. -/
def nameLength : (bound : Nat) → List Char → Nat
  | 0, _ => 0
  | bound + 1, cs =>
    match cs with
    | [] => 0
    | c :: rest =>
      if isNameRest c then 1 + nameLength bound rest
      else
        let n := escapeLength cs
        if n = 0 then 0 else n + nameLength bound (cs.drop n)

/-- Read a name behind the gap. -/
def Cursor.name? (c : Cursor) : Option (String × Cursor) :=
  let c := c.trimmed
  if c.seesChar Char.isDigit then none
  else
    let n := nameLength c.ahead.length c.ahead
    if n = 0 then none else some (c.upTo (c.skip n), c.skip n)

/-- Read this very name behind the gap. -/
def Cursor.keyword? (c : Cursor) (word : String) : Option Cursor :=
  match c.name? with
  | some (name, rest) => if name = word then some rest else none
  | none => none

/-- Read this mark behind the gap. -/
def Cursor.mark? (c : Cursor) (s : String) : Option Cursor :=
  let c := c.trimmed
  if c.sees s then some (c.skip s.length) else none

/-- The arrow stands behind the gap. -/
def Cursor.atArrow (c : Cursor) : Bool :=
  c.trimmed.sees "=>"

/-! ## Literals -/

/-- The length of a quoted text up to its closing mark, which is counted. -/
def quotedLength (quote : Char) : List Char → Option Nat
  | [] => none
  | '\\' :: _ :: rest => (quotedLength quote rest).map (· + 2)
  | c :: rest => if c = quote then some 1 else (quotedLength quote rest).map (· + 1)

/-- Read a quoted text with its marks. -/
def Cursor.string? (c : Cursor) : Option (Tree × Cursor) :=
  let c := c.trimmed
  match c.ahead with
  | quote :: rest =>
    if quote = '"' || quote = '\'' then
      (quotedLength quote rest).map fun n ↦
        (Tree.leaf .string (c.upTo (c.skip (n + 1))), c.skip (n + 1))
    else none
  | [] => none

/-- The length of a regular expression up to its closing slash, which is counted; a slash inside
brackets does not close it. -/
def regexLength (inClass : Bool) : List Char → Option Nat
  | [] => none
  | '\\' :: _ :: rest => (regexLength inClass rest).map (· + 2)
  | c :: rest =>
    if isLineBreak c then none
    else if c = '/' && !inClass then some 1
    else
      (regexLength (if c = '[' then true else if c = ']' then false else inClass) rest).map (· + 1)

/-- Read a regular expression and its flags. -/
def Cursor.regex? (c : Cursor) : Option Cursor :=
  match c.ahead with
  | '/' :: rest => (regexLength false rest).map fun n ↦ (c.skip (n + 1)).skipWhile isNameRest
  | _ => none

/-- A digit of a number, or the mark that parts groups of digits. -/
def isDigitOrGap (c : Char) : Bool :=
  c.isDigit || c == '_'

/-- Past the sign of an exponent. -/
def skipSign (c : Cursor) : Cursor :=
  if c.seesChar (fun x ↦ x == '+' || x == '-') then c.skip 1 else c

/-- Past the fraction, the exponent and the suffix of a number. -/
def skipNumberTail (c : Cursor) : Cursor :=
  let c := if c.sees "." then (c.skip 1).skipWhile isDigitOrGap else c
  let c := if c.seesChar (fun x ↦ x == 'e' || x == 'E') then
    (skipSign (c.skip 1)).skipWhile isDigitOrGap else c
  if c.sees "n" then c.skip 1 else c

/-- A number in another base begins here. -/
def hasBase (c : Cursor) : Bool :=
  ["0x", "0X", "0o", "0O", "0b", "0B"].any c.sees

/-- Past a number. -/
def Cursor.skipNumber (c : Cursor) : Cursor :=
  if hasBase c then c.skipWhile fun x ↦ x.isAlphanum || x == '_'
  else skipNumberTail (c.skipWhile isDigitOrGap)

/-! ## Operators -/

/-- The marks that join two operands, longer ones before their beginnings. -/
def joiners : List String :=
  [">>>=", "===", "!==", "**=", "<<=", ">>=", ">>>", "&&=", "||=", "??=", "==", "!=", "<=", ">=",
    "&&", "||", "??", "+=", "-=", "*=", "/=", "%=", "&=", "|=", "^=", "<<", ">>", "**", "=", "+",
    "-", "*", "/", "%", "<", ">", "&", "|", "^"]

/-- Read a mark or a word that joins two operands. -/
def Cursor.joiner? (c : Cursor) : Option Cursor :=
  let c := c.trimmed
  if c.sees "=>" || c.sees "++" || c.sees "--" then none
  else
    match joiners.find? c.sees with
    | some s => some (c.skip s.length)
    | none =>
      match c.keyword? "instanceof" with
      | some rest => some rest
      | none => c.keyword? "in"

end Script

end ChangeContext
