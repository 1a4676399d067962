import ChangeContext.Toml.Draft

/-!
# Reading TOML

A document is read line by line: headers open tables, and `key = value` lines fill the table that
was opened last.  The reader accepts the language of the standard, version 1.0, and a document with
any fault has no value at all.

Where a value begins like a date, it has to be one; where a numeral goes on with a point or an
exponent, it has to be a float.  Arrays and inline tables may be nested less than eighty deep, and
a key may have fewer than eighty parts.
-/

set_option autoImplicit false

namespace ChangeContext

namespace Toml

/-! ## Blanks, line ends and comments -/

/-- A blank within a line. -/
def isBlank (c : Char) : Bool :=
  c == ' ' || c == '\t'

/-- Skip blanks within a line. -/
def skipBlanks (cs : List Char) : List Char :=
  cs.dropWhile isBlank

/-- Read a line end. -/
def lineEnd? : List Char → Option (List Char)
  | '\n' :: rest => some rest
  | '\r' :: '\n' :: rest => some rest
  | _ => none

/-- A character that may stand in a comment. -/
def isCommentChar (c : Char) : Bool :=
  c == '\t' || (0x20 ≤ c.toNat && c.toNat != 0x7F)

/-- Skip a comment, if one stands here. -/
def skipComment : List Char → List Char
  | '#' :: rest => rest.dropWhile isCommentChar
  | cs => cs

/-- Read the rest of a line: blanks, perhaps a comment, and the end of the line or document. -/
def restOfLine? (cs : List Char) : Option (List Char) :=
  match skipComment (skipBlanks cs) with
  | [] => some []
  | cs => lineEnd? cs

/-- Skip blanks, line ends and comments; a comment has to be ended by a line end. -/
def skipSpace? : (bound : Nat) → List Char → Option (List Char)
  | 0, _ => none
  | bound + 1, cs =>
    match skipBlanks cs with
    | '#' :: rest => (lineEnd? (rest.dropWhile isCommentChar)).bind (skipSpace? bound)
    | '\n' :: rest => skipSpace? bound rest
    | '\r' :: rest => (lineEnd? ('\r' :: rest)).bind (skipSpace? bound)
    | cs => some cs

/-! ## Texts -/

/-- A character that may stand in a text on one line, marks aside. -/
def isTextChar (c : Char) : Bool :=
  c == '\t' || (0x20 ≤ c.toNat && c.toNat != 0x7F)

/-- The value of a hexadecimal digit. -/
def hexValue? (c : Char) : Option Nat :=
  if c.isDigit then some (c.toNat - 48)
  else if 'a' ≤ c && c ≤ 'f' then some (c.toNat - 87)
  else if 'A' ≤ c && c ≤ 'F' then some (c.toNat - 55)
  else none

/-- The character of a code point. -/
def charOf? (n : Nat) : Option Char :=
  if n < 0xD800 || (0xE000 ≤ n && n < 0x110000) then some (Char.ofNat n) else none

/-- Read a character given by `digits` hexadecimal digits. -/
def readHexChar (digits : Nat) (cs : List Char) : Option (Char × List Char) := do
  let ds := cs.take digits
  if ds.length < digits then none
  else
    let values ← ds.mapM hexValue?
    return (← charOf? (values.foldl (fun n d ↦ n * 16 + d) 0), cs.drop digits)

/-- Read what follows a backslash. -/
def readEscape : List Char → Option (Char × List Char)
  | 'b' :: rest => some ('\x08', rest)
  | 't' :: rest => some ('\t', rest)
  | 'n' :: rest => some ('\n', rest)
  | 'f' :: rest => some ('\x0c', rest)
  | 'r' :: rest => some ('\r', rest)
  | '"' :: rest => some ('"', rest)
  | '\\' :: rest => some ('\\', rest)
  | 'u' :: rest => readHexChar 4 rest
  | 'U' :: rest => readHexChar 8 rest
  | _ => none

/-- Read a text with escapes, behind its opening mark; `text` holds what has been read, the latest
first. -/
def readBasic : (bound : Nat) → (text : List Char) → List Char → Option (String × List Char)
  | 0, _, _ => none
  | bound + 1, text, cs =>
    match cs with
    | [] => none
    | '"' :: rest => some (String.ofList text.reverse, rest)
    | '\\' :: rest =>
      match readEscape rest with
      | some (c, rest) => readBasic bound (c :: text) rest
      | none => none
    | c :: rest => if isTextChar c then readBasic bound (c :: text) rest else none

/-- Read a text without escapes, behind its opening mark. -/
def readLiteral (cs : List Char) : Option (String × List Char) :=
  let text := cs.takeWhile fun c ↦ c ≠ '\'' && isTextChar c
  match cs.drop text.length with
  | '\'' :: rest => some (String.ofList text, rest)
  | _ => none

/-- The number of marks a text goes on with, up to five. -/
def markRun (mark : Char) (cs : List Char) : Nat :=
  ((cs.take 5).takeWhile (· == mark)).length

/-- Skip the line end that may follow the opening marks of a text of several lines. -/
def skipFirstLineEnd (cs : List Char) : List Char :=
  (lineEnd? cs).getD cs

/-- Skip blanks and line ends. -/
def skipLineEnds : (bound : Nat) → List Char → List Char
  | 0, cs => cs
  | bound + 1, cs =>
    match lineEnd? (skipBlanks cs) with
    | some rest => skipLineEnds bound rest
    | none => skipBlanks cs

/-- Read a text of several lines, behind its opening marks.  Up to two marks may stand right before
the three that close it.  With escapes, a backslash at the end of a line swallows all blanks and
line ends up to the next character. -/
def readLines (mark : Char) (escapes : Bool) : (bound : Nat) → (text : List Char) → List Char →
    Option (String × List Char)
  | 0, _, _ => none
  | bound + 1, text, cs =>
    let n := markRun mark cs
    if 3 ≤ n then
      some (String.ofList (List.replicate (n - 3) mark ++ text).reverse, cs.drop n)
    else
      match lineEnd? cs with
      | some rest => readLines mark escapes bound ('\n' :: text) rest
      | none =>
        match cs with
        | [] => none
        | c :: rest =>
          if c = '\\' && escapes then
            match lineEnd? (skipBlanks rest) with
            | some rest => readLines mark escapes bound text (skipLineEnds bound rest)
            | none =>
              match readEscape rest with
              | some (c, rest) => readLines mark escapes bound (c :: text) rest
              | none => none
          else if isTextChar c then readLines mark escapes bound (c :: text) rest
          else none

/-- Read a text of any kind. -/
def readString (bound : Nat) : List Char → Option (String × List Char)
  | '"' :: '"' :: '"' :: rest => readLines '"' true bound [] (skipFirstLineEnd rest)
  | '\'' :: '\'' :: '\'' :: rest => readLines '\'' false bound [] (skipFirstLineEnd rest)
  | '"' :: rest => readBasic bound [] rest
  | '\'' :: rest => readLiteral rest
  | _ => none

/-! ## Keys -/

/-- A character of a key without marks. -/
def isBareKeyChar (c : Char) : Bool :=
  c.isAlphanum || c == '_' || c == '-'

/-- Read one part of a key. -/
def readKeyPart (bound : Nat) : List Char → Option (String × List Char)
  | '"' :: rest => readBasic bound [] rest
  | '\'' :: rest => readLiteral rest
  | cs =>
    let name := cs.takeWhile isBareKeyChar
    if name.isEmpty then none else some (String.ofList name, cs.drop name.length)

/-- Read the parts of a key with the blanks around them. -/
def readKeyParts : (bound : Nat) → List Char → Option (List String × List Char)
  | 0, _ => none
  | bound + 1, cs => do
    let (part, cs) ← readKeyPart (bound + 1) (skipBlanks cs)
    match skipBlanks cs with
    | '.' :: rest =>
      let (parts, cs) ← readKeyParts bound rest
      return (part :: parts, cs)
    | cs => return ([part], cs)

/-- The nesting limit of keys and values. -/
def nestingLimit : Nat := 80

/-- Read a key: what leads to it, and its last part. -/
def readKey (bound : Nat) (cs : List Char) : Option ((List String × String) × List Char) := do
  let (parts, cs) ← readKeyParts bound cs
  if nestingLimit ≤ parts.length then none
  else return ((parts.dropLast, ← parts.getLast?), cs)

/-! ## Numerals and dates -/

/-- The number that digits spell. -/
def digitsValue (cs : List Char) : Nat :=
  cs.foldl (fun n c ↦ n * 10 + (c.toNat - 48)) 0

/-- Read digits that may be grouped by underscores, each between two digits. -/
def readGrouped (isDigit : Char → Bool) : List Char → Option (List Char × List Char)
  | [] => none
  | c :: rest =>
    if isDigit c then
      match rest with
      | '_' :: d :: more =>
        if isDigit d then (readGrouped isDigit (d :: more)).map fun r ↦ (c :: r.1, r.2) else none
      | '_' :: [] => none
      | [] => some ([c], [])
      | d :: more =>
        if isDigit d then (readGrouped isDigit (d :: more)).map fun r ↦ (c :: r.1, r.2)
        else some ([c], d :: more)
    else none

/-- Read the sign of a numeral. -/
def readSign : List Char → Bool × List Char
  | '-' :: rest => (true, rest)
  | '+' :: rest => (false, rest)
  | cs => (false, cs)

/-- Read the digits of a numeral before its point: a zero stands alone. -/
def readWhole : List Char → Option (List Char × List Char)
  | '0' :: rest => some (['0'], rest)
  | cs => readGrouped Char.isDigit cs

/-- Read a fraction, if one stands here. -/
def readFraction : List Char → Option (List Char × List Char)
  | '.' :: rest => readGrouped Char.isDigit rest
  | cs => some ([], cs)

/-- Read an exponent, if one stands here. -/
def readExponent : List Char → Option (Int × List Char)
  | 'e' :: rest | 'E' :: rest =>
    let (negative, rest) := readSign rest
    (readGrouped Char.isDigit rest).map fun r ↦
      let n : Int := digitsValue r.1
      (if negative then -n else n, r.2)
  | cs => some (0, cs)

/-- Read an integer in a base other than ten, behind the letters that name the base. -/
def readBased (base : Nat) (isDigit : Char → Bool) (cs : List Char) :
    Option (Toml × List Char) := do
  let (digits, cs) ← readGrouped isDigit cs
  let values ← digits.mapM hexValue?
  let n := values.foldl (fun n d ↦ n * base + d) 0
  if integerInRange n then return (integer n, cs) else none

/-- Read a numeral in base ten. -/
def readNumeral (cs : List Char) : Option (Toml × List Char) := do
  let (negative, cs) := readSign cs
  let (whole, cs) ← readWhole cs
  let (fraction, afterFraction) ← readFraction cs
  let (exponent, afterExponent) ← readExponent afterFraction
  if afterExponent.length = cs.length then
    let n : Int := digitsValue whole
    let n := if negative then -n else n
    if integerInRange n then return (integer n, cs) else none
  else
    let d : Decimal := ⟨negative, digitsValue (whole ++ fraction), exponent - fraction.length⟩
    if d.overflows && !negative then none else return (float, afterExponent)

/-- Read two digits of a number up to `most`. -/
def readTwo (most : Nat) : List Char → Option (Nat × List Char)
  | a :: b :: rest =>
    if a.isDigit && b.isDigit then
      let n := (a.toNat - 48) * 10 + (b.toNat - 48)
      if n ≤ most then some (n, rest) else none
    else none
  | _ => none

/-- Read this character. -/
def readMark (mark : Char) : List Char → Option (List Char)
  | c :: rest => if c = mark then some rest else none
  | [] => none

/-- Read minutes and seconds, behind the hour. -/
def readTimeTail (cs : List Char) : Option (List Char) := do
  let (_, cs) ← readTwo 59 (← readMark ':' cs)
  let (_, cs) ← readTwo 60 (← readMark ':' cs)
  match cs with
  | '.' :: rest =>
    let digits := rest.takeWhile Char.isDigit
    if digits.isEmpty then none else return rest.drop digits.length
  | cs => return cs

/-- Read the offset of a time, if one stands here. -/
def readOffset : List Char → Option (List Char)
  | 'Z' :: rest | 'z' :: rest => some rest
  | '+' :: rest | '-' :: rest => do
    let (_, cs) ← readTwo 23 rest
    let (_, cs) ← readTwo 59 (← readMark ':' cs)
    return cs
  | cs => some cs

/-- Read the time that may follow a date.  A letter or a blank leads to it; a blank that no hour
follows is the end of the value. -/
def readTimeAfterDate (cs : List Char) : Option (List Char) :=
  match cs with
  | c :: rest =>
    if c = 'T' || c = 't' || c = ' ' then
      match (readTwo 23 rest).filter fun r ↦ r.2.head? == some ':' with
      | some (_, rest) => (readTimeTail rest).bind readOffset
      | none => some cs
    else some cs
  | [] => some []

/-- The year has a twenty-ninth of February. -/
def isLeap (year : Nat) : Bool :=
  year % 4 == 0 && (year % 100 != 0 || year % 400 == 0)

/-- The number of days of a month. -/
def daysIn (year month : Nat) : Nat :=
  if month = 2 then if isLeap year then 29 else 28
  else if month = 4 || month = 6 || month = 9 || month = 11 then 30
  else 31

/-- Read a date behind its year and the hyphen, and the time that may follow it. -/
def readDateTail (year : Nat) (cs : List Char) : Option (List Char) := do
  let (month, cs) ← readTwo 12 cs
  let (day, cs) ← readTwo 31 (← readMark '-' cs)
  if 1 ≤ month && 1 ≤ day && day ≤ daysIn year month then readTimeAfterDate cs else none

/-- Read a date or time or both, where one begins. -/
def readDateTime? (cs : List Char) : Option (Option (List Char)) :=
  if ((cs.take 4).all Char.isDigit && cs[4]? = some '-' : Bool) then
    some (readDateTail (digitsValue (cs.take 4)) (cs.drop 5))
  else
    match (readTwo 23 cs).filter fun r ↦ r.2.head? == some ':' with
    | some (_, rest) => some (readTimeTail rest)
    | none => none

/-- Read this word. -/
def readWord (word : String) (v : Toml) (cs : List Char) : Option (Toml × List Char) :=
  (word.toList.isPrefixOf? cs).map fun rest ↦ (v, rest)

/-- Read a value that begins with a sign or a digit. -/
def readNumber (cs : List Char) : Option (Toml × List Char) :=
  match readDateTime? cs with
  | some r => r.map fun rest ↦ (dateTime, rest)
  | none =>
    match cs with
    | '0' :: 'x' :: rest => readBased 16 (fun c ↦ (hexValue? c).isSome) rest
    | '0' :: 'o' :: rest => readBased 8 (fun c ↦ '0' ≤ c && c ≤ '7') rest
    | '0' :: 'b' :: rest => readBased 2 (fun c ↦ c == '0' || c == '1') rest
    | '+' :: 'i' :: _ | '-' :: 'i' :: _ => readWord "inf" float (cs.drop 1)
    | '+' :: 'n' :: _ | '-' :: 'n' :: _ => readWord "nan" float (cs.drop 1)
    | cs => readNumeral cs

/-! ## Values -/

mutual

/-- Read a value; containers may be nested `depth` deep. -/
def readValue : (bound depth : Nat) → List Char → Option (Toml × List Char)
  | 0, _, _ => none
  | bound + 1, depth, cs =>
    match cs with
    | '"' :: _ | '\'' :: _ => (readString (bound + 1) cs).map fun r ↦ (string r.1, r.2)
    | '[' :: rest =>
      if depth = 0 then none
      else (readItems bound (depth - 1) rest).map fun r ↦ (array r.1, r.2)
    | '\x7b' :: rest =>
      if depth = 0 then none
      else
        match skipBlanks rest with
        | '\x7d' :: rest => some (table [], rest)
        | _ => (readPairs bound (depth - 1) [] rest).map fun r ↦ (table (finishEntries r.1), r.2)
    | 't' :: _ => readWord "true" (boolean true) cs
    | 'f' :: _ => readWord "false" (boolean false) cs
    | 'i' :: _ => readWord "inf" float cs
    | 'n' :: _ => readWord "nan" float cs
    | c :: _ => if c.isDigit || c == '+' || c == '-' then readNumber cs else none
    | [] => none

/-- Read the items of an array up to its closing bracket. -/
def readItems : (bound depth : Nat) → List Char → Option (List Toml × List Char)
  | 0, _, _ => none
  | bound + 1, depth, cs =>
    match skipSpace? (cs.length + 1) cs with
    | none => none
    | some (']' :: rest) => some ([], rest)
    | some cs =>
      match readValue bound depth cs with
      | none => none
      | some (v, rest) =>
        match skipSpace? (rest.length + 1) rest with
        | some (',' :: rest) => (readItems bound depth rest).map fun r ↦ (v :: r.1, r.2)
        | some (']' :: rest) => some ([v], rest)
        | _ => none

/-- Read the pairs of an inline table up to its closing brace, behind those already read. -/
def readPairs : (bound depth : Nat) → Entries → List Char → Option (Entries × List Char)
  | 0, _, _, _ => none
  | bound + 1, depth, es, cs =>
    match readKey (bound + 1) cs with
    | some ((path, key), '=' :: rest) =>
      match readValue bound depth (skipBlanks rest) with
      | none => none
      | some (v, rest) =>
        match es.assign? key v path with
        | none => none
        | some es =>
          match skipBlanks rest with
          | ',' :: rest => readPairs bound depth es rest
          | '\x7d' :: rest => some (es, rest)
          | _ => none
    | _ => none

end

/-! ## Documents -/

/-- A document while it is being read: its entries, and the header that was opened last. -/
structure State where
  entries : Entries
  header : List String

/-- Read a header behind its opening brackets, given how it changes the document. -/
def readHeader (close : String) (open? : String → Entries → Option Entries) (s : State)
    (cs : List Char) : Option (State × List Char) := do
  let ((path, key), cs) ← readKey cs.length cs
  let cs ← close.toList.isPrefixOf? cs
  let es ← s.entries.under? (open? key) path
  return (⟨es, path ++ [key]⟩, ← restOfLine? cs)

/-- Read a line that gives a key its value. -/
def readPair (s : State) (cs : List Char) : Option (State × List Char) := do
  let ((path, key), cs) ← readKey cs.length cs
  let cs ← readMark '=' cs
  let (v, cs) ← readValue (cs.length + 1) (nestingLimit - 1) (skipBlanks cs)
  let es ← s.entries.under? (Entries.assign? key v path) s.header
  return ({ s with entries := es }, ← restOfLine? cs)

/-- Read one line that is not blank. -/
def readLine (s : State) (cs : List Char) : Option (State × List Char) :=
  match cs with
  | '#' :: _ => (restOfLine? cs).map fun rest ↦ (s, rest)
  | '\n' :: rest => some (s, rest)
  | '\r' :: _ => (lineEnd? cs).map fun rest ↦ (s, rest)
  | '[' :: '[' :: rest => readHeader "]]" Entries.extend? s rest
  | '[' :: rest => readHeader "]" Entries.define? s rest
  | _ => readPair s cs

/-- Read the lines of a document. -/
def readDocument : (bound : Nat) → State → List Char → Option Entries
  | 0, _, _ => none
  | bound + 1, s, cs =>
    match skipBlanks cs with
    | [] => some s.entries
    | cs => (readLine s cs).bind fun r ↦ readDocument bound r.1 r.2

/-- Read a document; a mark of byte order before it is passed over. -/
def read? (text : String) : Option Toml :=
  let cs := text.toList
  let cs := if cs.head? = some '\uFEFF' then cs.drop 1 else cs
  (readDocument (cs.length + 1) ⟨[], []⟩ cs).map fun es ↦ table (finishEntries es)

end Toml

end ChangeContext
