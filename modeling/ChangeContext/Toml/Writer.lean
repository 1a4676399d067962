import ChangeContext.Toml.Basic

/-!
# Writing TOML

A document is written table by table, a blank line before each header but the first.  A list of
more than one item takes a line for each.

A text is written in the plainest way that holds it.  Between quotation marks it stands as it is,
when it has no quotation mark, no backslash and no line end.  Otherwise apostrophes are tried, which
need it to have no apostrophe and no line end; then three quotation marks, then three apostrophes,
which a run of two marks does not end.  A control character has to be escaped, and a text that has
one is written between quotation marks, on several lines if it has line ends.
-/

set_option autoImplicit false

namespace ChangeContext

namespace Toml

/-- What matters about a text for the way it is written. -/
structure Traits where
  /-- A control character other than a tab or a line feed. -/
  control : Bool
  backslash : Bool
  lineFeed : Bool
  /-- The longest run of quotation marks. -/
  quotes : Nat
  /-- The longest run of apostrophes. -/
  apostrophes : Nat

/-- The length of the longest run of a mark, where a run of `current` is going on. -/
def longestRun (mark : Char) (current : Nat) : List Char → Nat
  | [] => current
  | c :: rest =>
    if c = mark then longestRun mark (current + 1) rest
    else max current (longestRun mark 0 rest)

/-- A control character that has to be escaped. -/
def isControl (c : Char) : Bool :=
  (c.toNat < 0x20 && c != '\t' && c != '\n') || c.toNat == 0x7F

/-- The traits of a text. -/
def Traits.of (cs : List Char) : Traits where
  control := cs.any isControl
  backslash := cs.contains '\\'
  lineFeed := cs.contains '\n'
  quotes := longestRun '"' 0 cs
  apostrophes := longestRun '\'' 0 cs

/-- The ways to write a text. -/
inductive Style where
  | basic
  | literal
  | basicLines
  | literalLines
deriving DecidableEq

/-- The way in which a text with these traits is written. -/
def Style.for (t : Traits) : Style :=
  if !t.control && !t.backslash && t.quotes = 0 && !t.lineFeed then .basic
  else if !t.control && t.apostrophes = 0 && !t.lineFeed then .literal
  else if !t.control && !t.backslash && t.quotes ≤ 2 then .basicLines
  else if !t.control && t.apostrophes ≤ 2 then .literalLines
  else if t.lineFeed then .basicLines
  else .basic

/-- A hexadecimal digit. -/
def hexDigit (n : Nat) : Char :=
  if n < 10 then Char.ofNat (48 + n) else Char.ofNat (55 + n)

/-- A character other than a quotation mark or line feed, escaped where it has to be. -/
def escapeChar (c : Char) : List Char :=
  if c = '\x08' then ['\\', 'b']
  else if c = '\t' then ['\\', 't']
  else if c = '\x0c' then ['\\', 'f']
  else if c = '\r' then ['\\', 'r']
  else if c = '\\' then ['\\', '\\']
  else if isControl c then ['\\', 'u', '0', '0', hexDigit (c.toNat / 16), hexDigit (c.toNat % 16)]
  else [c]

/-- Characters with escapes; quotation marks stand as they are up to `allowed` in a row, of which
`run` have just been written, and line feeds when `lines` holds. -/
def escaped (allowed : Nat) (lines : Bool) (run : Nat) : List Char → List Char
  | [] => []
  | '"' :: rest =>
    if run < allowed then '"' :: escaped allowed lines (run + 1) rest
    else '\\' :: '"' :: escaped allowed lines 0 rest
  | '\n' :: rest =>
    (if lines then ['\n'] else ['\\', 'n']) ++ escaped allowed lines 0 rest
  | c :: rest => escapeChar c ++ escaped allowed lines 0 rest

/-- A text with its marks.  What is written on several lines begins on a line of its own. -/
def stringChars (s : String) : List Char :=
  let cs := s.toList
  let traits := Traits.of cs
  let first := if traits.lineFeed then ['\n'] else []
  match Style.for traits with
  | .basic => '"' :: escaped 0 false 0 cs ++ ['"']
  | .literal => '\'' :: cs ++ ['\'']
  | .basicLines => "\"\"\"".toList ++ first ++ escaped 2 true 0 cs ++ "\"\"\"".toList
  | .literalLines => "'''".toList ++ first ++ cs ++ "'''".toList

/-- An integer. -/
def integerChars : Int → List Char
  | .ofNat n => Nat.toDigits 10 n
  | .negSucc n => '-' :: Nat.toDigits 10 (n + 1)

/-- A list of texts: on one line when it has at most one, else a line for each. -/
def stringsChars : List String → List Char
  | [] => ['[', ']']
  | [s] => '[' :: stringChars s ++ [']']
  | ss => '[' :: ss.flatMap (fun s ↦ "\n    ".toList ++ stringChars s ++ [',']) ++ ['\n', ']']

/-- A value that stands behind a key. -/
inductive Field where
  | string (text : String)
  | strings (items : List String)
  | natural (value : Nat)
  | boolean (value : Bool)

/-- The text of a field's value. -/
def Field.chars : Field → List Char
  | string s => stringChars s
  | strings ss => stringsChars ss
  | natural n => integerChars n
  | boolean true => "true".toList
  | boolean false => "false".toList

/-- A field can be written when it is within the integers of a document. -/
def Field.writable : Field → Bool
  | natural n => integerInRange n
  | _ => true

/-- A table with its header. -/
def tableChars (name : String) (fields : List (String × Field)) : List Char :=
  '[' :: name.toList ++ [']', '\n']
    ++ fields.flatMap fun f ↦ f.1.toList ++ " = ".toList ++ f.2.chars ++ ['\n']

/-- A document of tables, if all their fields can be written. -/
def write? (tables : List (String × List (String × Field))) : Option String :=
  if tables.all fun t ↦ t.2.all fun f ↦ f.2.writable then
    some (String.ofList (['\n'].intercalate (tables.map fun t ↦ tableChars t.1 t.2)))
  else none

end Toml

end ChangeContext
