import ChangeContext.Proofs.Outline.Layout
import ChangeContext.Script.Lexeme

/-!
# Functions and classes without a name

A script may export a function or a class that has no name as its default.  The forms of such values
are given here in any layout: functions and generators, asynchronous or not, with any list of
parameters, and classes with or without a superclass, all of them with an empty body.  The names in
them are those of the language, which are not confined to ASCII.

Line breaks may stand wherever blanks may, with one exception: behind `async` a line break would end
the statement.
-/

set_option autoImplicit false

namespace ChangeContext

namespace Outline

/-- A name that a script can bind, written out. -/
structure BoundName where
  chars : List Char
  head : chars.head?.any Script.isNameStart = true := by decide
  all : chars.all Script.isNameRest = true := by decide
  unreserved : String.ofList chars ∉ reservedWords := by decide

/-- A gap without a line break. -/
structure LineGap extends Gap where
  unbroken : chars.any Script.isLineBreak = false := by decide

/-- What stands between the parentheses of a function: names with commas between them, and perhaps one
behind the last of them. -/
inductive ParameterList where
  | done (blanks : Blanks)
  | last (front : Blanks) (name : BoundName) (back : Blanks)
  | cons (front : Blanks) (name : BoundName) (back : Blanks) (more : ParameterList)

/-- How the parameters are written. -/
def ParameterList.chars : ParameterList → List Char
  | done blanks => blanks.chars
  | last front name back => front.chars ++ (name.chars ++ back.chars)
  | cons front name back more =>
    front.chars ++ (name.chars ++ (back.chars ++ ',' :: more.chars))

/-- An empty body with the blanks before it. -/
structure EmptyBody where
  before : Blanks
  inside : Blanks

/-- How the body is written. -/
def EmptyBody.chars (b : EmptyBody) : List Char :=
  b.before.chars ++ '\x7b' :: (b.inside.chars ++ ['\x7d'])

/-- What stands behind the keyword of a function without a name. -/
structure AnonymousFunction where
  front : Blanks
  /-- The blanks behind the mark of a generator, if the function is one. -/
  star : Option Blanks
  parameters : ParameterList
  body : EmptyBody

namespace AnonymousFunction

/-- What stands before the parameters. -/
def lead (f : AnonymousFunction) : List Char :=
  f.front.chars ++ (f.star.map fun b ↦ '*' :: b.chars).getD []

/-- How the function is written behind its keyword. -/
def chars (f : AnonymousFunction) : List Char :=
  f.lead ++ '(' :: (f.parameters.chars ++ ')' :: f.body.chars)

end AnonymousFunction

/-- The superclass of a class. -/
structure Heritage where
  before : Gap
  behind : Gap
  name : BoundName

/-- How the superclass is written behind the keyword of the class. -/
def Heritage.chars (h : Heritage) : List Char :=
  h.before.chars ++ ("extends".toList ++ (h.behind.chars ++ h.name.chars))

/-- A value without a name. -/
inductive AnonymousValue where
  | function (f : AnonymousFunction)
  | asyncFunction (gap : LineGap) (f : AnonymousFunction)
  | class (heritage : Option Heritage) (body : EmptyBody)

namespace AnonymousValue

/-- The word that the value begins with. -/
def word : AnonymousValue → String
  | function _ => "function"
  | asyncFunction _ _ => "async"
  | .class _ _ => "class"

/-- The value behind its first word. -/
def tail : AnonymousValue → List Char
  | function f => f.chars
  | asyncFunction gap f => gap.chars ++ ("function".toList ++ f.chars)
  | .class heritage body => (heritage.map Heritage.chars).getD [] ++ body.chars

/-- How the value is written. -/
def chars (v : AnonymousValue) : List Char :=
  v.word.toList ++ v.tail

/-- The superclass of the value. -/
def heritage? : AnonymousValue → Option Heritage
  | .class heritage _ => heritage
  | _ => none

end AnonymousValue

/-- A source that exports a value without a name as its default, and nothing else. -/
structure DefaultExport where
  front : Blanks
  /-- The blanks between the keywords of the export. -/
  gap : Gap
  /-- The blanks before the value. -/
  behind : Gap
  value : AnonymousValue
  ending : Ending

namespace DefaultExport

/-- The value and what stands behind it. -/
def rest (d : DefaultExport) : List Char :=
  d.behind.chars ++ (d.value.chars ++ d.ending.chars)

/-- How the export is written. -/
def chars (d : DefaultExport) : List Char :=
  d.front.chars ++ ("export".toList ++ (d.gap.chars ++ ("default".toList ++ d.rest)))

/-- The export as the text of a source. -/
def source (d : DefaultExport) : String :=
  String.ofList d.chars

end DefaultExport

end Outline

end ChangeContext
