import ChangeContext.Json.Basic

/-!
# Reading JSON

The reader follows the grammar and nothing beside it: blanks are the four of the standard, a numeral
has no superfluous zero and no bare point, a text holds no control character, nothing may follow the
value.

Two restrictions of use, not of grammar, are checked afterwards and only where a value is actually
wanted (`Json.plain`): nesting is limited, numerals must not exceed double precision, and every text
must name characters.
-/

set_option autoImplicit false

namespace ChangeContext

namespace Json

/-- White space between tokens. -/
def isBlank (c : Char) : Bool :=
  c == ' ' || c == '\n' || c == '\t' || c == '\r'

/-- Skip white space. -/
def skipBlanks (cs : List Char) : List Char :=
  cs.dropWhile isBlank

/-- The value of a hexadecimal digit. -/
def hexValue? (c : Char) : Option Nat :=
  if c.isDigit then some (c.toNat - 48)
  else if 'a' ≤ c && c ≤ 'f' then some (c.toNat - 87)
  else if 'A' ≤ c && c ≤ 'F' then some (c.toNat - 55)
  else none

/-- The value of four hexadecimal digits. -/
def hexValue4? (a b c d : Char) : Option Nat := do
  return (((← hexValue? a) * 16 + (← hexValue? b)) * 16 + (← hexValue? c)) * 16 + (← hexValue? d)

/-- What the letter after a backslash stands for. -/
def shortEscape? (c : Char) : Option Char :=
  [('"', '"'), ('\\', '\\'), ('/', '/'), ('b', '\x08'), ('f', '\x0c'), ('n', '\n'), ('r', '\r'),
    ('t', '\t')].lookup c

/-- Read a text up to its closing quotation mark, as code points in which an escaped surrogate
stands for itself. -/
def readUnits : List Char → List Nat → Option (List Nat × List Char)
  | '"' :: rest, units => some (units.reverse, rest)
  | '\\' :: 'u' :: a :: b :: c :: d :: rest, units =>
    match hexValue4? a b c d with
    | some n => readUnits rest (n :: units)
    | none => none
  | '\\' :: e :: rest, units =>
    match shortEscape? e with
    | some c => readUnits rest (c.toNat :: units)
    | none => none
  | c :: rest, units => if c.toNat < 0x20 then none else readUnits rest (c.toNat :: units)
  | [], _ => none

/-- Put surrogate pairs together; there is no answer when one stands alone. -/
def joinUnits? : List Nat → Option (List Char)
  | [] => some []
  | n :: rest =>
    if 0xD800 ≤ n && n < 0xDC00 then
      match rest with
      | m :: rest =>
        if 0xDC00 ≤ m && m < 0xE000 then
          (joinUnits? rest).map
            (Char.ofNat (0x10000 + (n - 0xD800) * 0x400 + (m - 0xDC00)) :: ·)
        else none
      | [] => none
    else if 0xDC00 ≤ n && n < 0xE000 then none
    else (joinUnits? rest).map (Char.ofNat n :: ·)

/-- Read a text whose opening quotation mark has been read. -/
def readText (cs : List Char) : Option (Option String × List Char) :=
  (readUnits cs []).map fun r ↦ ((joinUnits? r.1).map String.ofList, r.2)

/-- The number that digits spell. -/
def digitsValue (cs : List Char) : Nat :=
  cs.foldl (fun n c ↦ n * 10 + (c.toNat - 48)) 0

/-- Read at least one digit. -/
def readDigits (cs : List Char) : Option (List Char × List Char) :=
  let digits := cs.takeWhile Char.isDigit
  if digits.isEmpty then none else some (digits, cs.dropWhile Char.isDigit)

/-- Read the fraction of a numeral, if there is one. -/
def readFraction : List Char → Option (List Char × List Char)
  | '.' :: rest => readDigits rest
  | cs => some ([], cs)

/-- Read the digits of an exponent behind its sign. -/
def readSignedDigits : List Char → Option (Int × List Char)
  | '-' :: rest => (readDigits rest).map fun r ↦ (-(digitsValue r.1 : Int), r.2)
  | '+' :: rest => (readDigits rest).map fun r ↦ ((digitsValue r.1 : Int), r.2)
  | cs => (readDigits cs).map fun r ↦ ((digitsValue r.1 : Int), r.2)

/-- Read the exponent of a numeral, if there is one. -/
def readExponent : List Char → Option (Option Int × List Char)
  | 'e' :: rest => (readSignedDigits rest).map fun r ↦ (some r.1, r.2)
  | 'E' :: rest => (readSignedDigits rest).map fun r ↦ (some r.1, r.2)
  | cs => some (none, cs)

/-- Read a numeral behind its sign. -/
def readUnsigned (negative : Bool) (cs : List Char) : Option (Json × List Char) := do
  let (whole, cs) ← readDigits cs
  if whole.length > 1 && whole.head? == some '0' then none
  else
    let (fraction, cs) ← readFraction cs
    let (exponent, cs) ← readExponent cs
    let n := digitsValue whole
    if fraction.isEmpty && exponent.isNone && !(negative && n == 0) then
      return (integer (if negative then -(n : Int) else n), cs)
    else
      return (decimal ⟨negative, digitsValue (whole ++ fraction),
        exponent.getD 0 - fraction.length⟩, cs)

/-- Read a numeral. -/
def readNumeral : List Char → Option (Json × List Char)
  | '-' :: rest => readUnsigned true rest
  | cs => readUnsigned false cs

mutual

/-- Read a value; the bound is on its depth and length together. -/
def readValue : (bound : Nat) → List Char → Option (Json × List Char)
  | 0, _ => none
  | bound + 1, cs =>
    match skipBlanks cs with
    | 'n' :: 'u' :: 'l' :: 'l' :: rest => some (null, rest)
    | 't' :: 'r' :: 'u' :: 'e' :: rest => some (bool true, rest)
    | 'f' :: 'a' :: 'l' :: 's' :: 'e' :: rest => some (bool false, rest)
    | '"' :: rest => (readText rest).map fun r ↦ (string r.1, r.2)
    | '[' :: rest =>
      match skipBlanks rest with
      | ']' :: rest => some (array [], rest)
      | _ => (readItems bound rest).map fun r ↦ (array r.1, r.2)
    | '\x7b' :: rest =>
      match skipBlanks rest with
      | '\x7d' :: rest => some (object [], rest)
      | _ => (readMembers bound rest).map fun r ↦ (object r.1, r.2)
    | cs => readNumeral cs

/-- Read items up to the closing bracket. -/
def readItems : (bound : Nat) → List Char → Option (List Json × List Char)
  | 0, _ => none
  | bound + 1, cs =>
    match readValue bound cs with
    | none => none
    | some (v, rest) =>
      match skipBlanks rest with
      | ',' :: rest => (readItems bound rest).map fun r ↦ (v :: r.1, r.2)
      | ']' :: rest => some ([v], rest)
      | _ => none

/-- Read members up to the closing brace. -/
def readMembers : (bound : Nat) → List Char → Option (List (Option String × Json) × List Char)
  | 0, _ => none
  | bound + 1, cs =>
    match skipBlanks cs with
    | '"' :: rest =>
      match readText rest with
      | none => none
      | some (k, rest) =>
        match skipBlanks rest with
        | ':' :: rest =>
          match readValue bound rest with
          | none => none
          | some (v, rest) =>
            match skipBlanks rest with
            | ',' :: rest => (readMembers bound rest).map fun r ↦ ((k, v) :: r.1, r.2)
            | '\x7d' :: rest => some ([(k, v)], rest)
            | _ => none
        | _ => none
    | _ => none

end

/-- Read a text that is one value. -/
def read? (s : String) : Option Json :=
  let cs := s.toList
  match readValue (cs.length + 1) cs with
  | some (v, rest) => if (skipBlanks rest).isEmpty then some v else none
  | none => none

/-! ## Restrictions of use -/

/-- The numeral is within double precision. -/
def numeralInRange : Json → Bool
  | integer n => !(Decimal.overflows ⟨n < 0, n.natAbs, 0⟩)
  | decimal d => !d.overflows
  | _ => true

mutual

/-- Every text names characters, every numeral is within double precision, and containers are nested
less than `depth` deep. -/
def plain (depth : Nat) : Json → Bool
  | null => true
  | bool _ => true
  | integer n => numeralInRange (integer n)
  | decimal d => numeralInRange (decimal d)
  | string s => s.isSome
  | array items => depth > 1 && plainItems (depth - 1) items
  | object members => depth > 1 && plainMembers (depth - 1) members

/-- All items are plain. -/
def plainItems (depth : Nat) : List Json → Bool
  | [] => true
  | v :: rest => v.plain depth && plainItems depth rest

/-- All members are plain. -/
def plainMembers (depth : Nat) : List (Option String × Json) → Bool
  | [] => true
  | (k, v) :: rest => k.isSome && v.plain depth && plainMembers depth rest

end

/-- The nesting limit of documents. -/
def depthLimit : Nat := 128

/-- Read a text that is one value and fit for use in every part. -/
def readPlain? (s : String) : Option Json :=
  (read? s).filter fun v ↦ v.plain depthLimit

/-- The member of this name; of several the last. -/
def member? (name : String) : Json → Option Json
  | object members => (members.reverse.find? fun m ↦ m.1 == some name).map (·.2)
  | _ => none

end Json

end ChangeContext
