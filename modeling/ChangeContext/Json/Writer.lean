import ChangeContext.Json.Basic

/-!
# Writing JSON

There are two layouts.  The compact one has no blanks at all; its length is the measure of a value's
size.  The indented one puts every item on a line of its own, two blanks deeper than its container,
with one blank after a colon, and writes an empty container without a line.  Both escape what JSON
requires and nothing else: the quotation mark, the backslash and the control characters, by their
short forms where there is one.
-/

set_option autoImplicit false

namespace ChangeContext

namespace Json

/-- A hexadecimal digit. -/
def hexDigit (n : Nat) : Char :=
  if n < 10 then Char.ofNat (48 + n) else Char.ofNat (87 + n)

/-- A character inside quotation marks. -/
def escapeChar (c : Char) : List Char :=
  if c = '"' then ['\\', '"']
  else if c = '\\' then ['\\', '\\']
  else if c = '\x08' then ['\\', 'b']
  else if c = '\x0c' then ['\\', 'f']
  else if c = '\n' then ['\\', 'n']
  else if c = '\r' then ['\\', 'r']
  else if c = '\t' then ['\\', 't']
  else if c.toNat < 0x20 then
    ['\\', 'u', '0', '0', hexDigit (c.toNat / 16), hexDigit (c.toNat % 16)]
  else [c]

/-- A text in quotation marks. -/
def quote (s : String) : List Char :=
  '"' :: s.toList.flatMap escapeChar ++ ['"']

/-- A text that names no characters is written as an unpaired surrogate. -/
def quoteText : Option String → List Char
  | some s => quote s
  | none => "\"\\ud800\"".toList

/-- A natural number in digits. -/
def natChars (n : Nat) : List Char :=
  Nat.toDigits 10 n

/-- An integer in digits. -/
def intChars : Int → List Char
  | .ofNat n => natChars n
  | .negSucc n => '-' :: natChars (n + 1)

/-- A decimal numeral with its exponent. -/
def decimalChars (d : Decimal) : List Char :=
  (if d.negative then ['-'] else []) ++ natChars d.digits ++ 'e' :: intChars d.exponent

mutual

/-- The compact layout. -/
def compactChars : Json → List Char
  | null => "null".toList
  | bool true => "true".toList
  | bool false => "false".toList
  | integer n => intChars n
  | decimal d => decimalChars d
  | string s => quoteText s
  | array items => '[' :: compactItems items ++ [']']
  | object members => '\x7b' :: compactMembers members ++ ['\x7d']

/-- Items with commas between them. -/
def compactItems : List Json → List Char
  | [] => []
  | [v] => v.compactChars
  | v :: rest => v.compactChars ++ ',' :: compactItems rest

/-- Members with commas between them. -/
def compactMembers : List (Option String × Json) → List Char
  | [] => []
  | [(k, v)] => quoteText k ++ ':' :: v.compactChars
  | (k, v) :: rest => quoteText k ++ ':' :: v.compactChars ++ ',' :: compactMembers rest

end

/-- A new line, indented by `depth` levels. -/
def newline (depth : Nat) : List Char :=
  '\n' :: List.replicate (2 * depth) ' '

mutual

/-- The indented layout of a value that stands `depth` levels deep. -/
def indentedChars (depth : Nat) : Json → List Char
  | null => "null".toList
  | bool true => "true".toList
  | bool false => "false".toList
  | integer n => intChars n
  | decimal d => decimalChars d
  | string s => quoteText s
  | array [] => ['[', ']']
  | array (v :: rest) =>
    '[' :: newline (depth + 1) ++ v.indentedChars (depth + 1) ++ indentedItems depth rest
      ++ newline depth ++ [']']
  | object [] => ['\x7b', '\x7d']
  | object ((k, v) :: rest) =>
    '\x7b' :: newline (depth + 1) ++ quoteText k ++ ':' :: ' ' :: v.indentedChars (depth + 1)
      ++ indentedMembers depth rest ++ newline depth ++ ['\x7d']

/-- The items after the first, each behind a comma and on its own line. -/
def indentedItems (depth : Nat) : List Json → List Char
  | [] => []
  | v :: rest =>
    ',' :: newline (depth + 1) ++ v.indentedChars (depth + 1) ++ indentedItems depth rest

/-- The members after the first, each behind a comma and on its own line. -/
def indentedMembers (depth : Nat) : List (Option String × Json) → List Char
  | [] => []
  | (k, v) :: rest =>
    ',' :: newline (depth + 1) ++ quoteText k ++ ':' :: ' ' :: v.indentedChars (depth + 1)
      ++ indentedMembers depth rest

end

/-- A value in the compact layout. -/
def compact (v : Json) : String :=
  String.ofList v.compactChars

/-- A value in the indented layout. -/
def indented (v : Json) : String :=
  String.ofList (v.indentedChars 0)

end Json

end ChangeContext
