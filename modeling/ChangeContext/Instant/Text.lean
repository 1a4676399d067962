import ChangeContext.Instant.Basic
import ChangeContext.Instant.Calendar
import ChangeContext.Text.Blank

/-!
# Instants as text

An instant is written as date and time of day in universal time, `2020-01-02T03:04:05Z`, with three,
six or nine digits of a fraction when the second is not whole: the fewest that lose nothing.  Years
outside the four-digit ones carry their sign.

Reading is more forgiving than writing.  Any offset from universal time may be given, numbers may
lack their leading zeros, blanks may stand where nothing can be mistaken, and the date may be parted
from the time by a blank or a small `t`.  A sixtieth second is a leap second.  The calendar has an
end on both sides, and an instant must lie in it where it is written down as well as in universal
time.
-/

set_option autoImplicit false

namespace ChangeContext

namespace Instant

/-! ## Writing -/

/-- A number with at least `width` digits. -/
def padded (width n : Nat) : List Char :=
  let digits := Nat.toDigits 10 n
  List.replicate (width - digits.length) '0' ++ digits

/-- A year: four digits, or a sign and at least four digits. -/
def yearChars (year : Int) : List Char :=
  if 0 ≤ year && year ≤ 9999 then padded 4 year.toNat
  else (if year < 0 then '-' else '+') :: padded 4 year.natAbs

/-- The fraction of a second, in the fewest groups of three digits. -/
def fractionChars (nanos : Nat) : List Char :=
  if nanos = 0 then []
  else if nanos % 1000000 = 0 then '.' :: padded 3 (nanos / 1000000)
  else if nanos % 1000 = 0 then '.' :: padded 6 (nanos / 1000)
  else '.' :: padded 9 nanos

/-- The text of an instant. -/
def toText (t : Instant) : String :=
  let days := Int.fdiv t.seconds 86400
  let second := (t.seconds - days * 86400).toNat
  let date := Date.ofDays days
  let leap := t.nanos / 1000000000
  String.ofList (yearChars date.year ++ '-' :: padded 2 date.month ++ '-' :: padded 2 date.day
    ++ 'T' :: padded 2 (second / 3600) ++ ':' :: padded 2 (second / 60 % 60)
    ++ ':' :: padded 2 (second % 60 + leap) ++ fractionChars (t.nanos % 1000000000) ++ ['Z'])

/-! ## Reading -/

/-- Skip blanks. -/
def skipBlanks (cs : List Char) : List Char :=
  cs.dropWhile Text.isBlank

/-- Read between one and `most` digits. -/
def readNumber (most : Nat) (cs : List Char) : Option (Nat × List Char) :=
  let digits := (cs.take most).takeWhile Char.isDigit
  if digits.isEmpty then none
  else some (digits.foldl (fun n c ↦ n * 10 + (c.toNat - 48)) 0, cs.drop digits.length)

/-- Read a number behind blanks. -/
def readField (cs : List Char) : Option (Nat × List Char) :=
  readNumber 2 (skipBlanks cs)

/-- Read a year: four digits at most, or a sign and any number of digits. -/
def readYear (cs : List Char) : Option (Int × List Char) :=
  match skipBlanks cs with
  | '-' :: rest => (readNumber rest.length rest).map fun r ↦ (-(r.1 : Int), r.2)
  | '+' :: rest => (readNumber rest.length rest).map fun r ↦ ((r.1 : Int), r.2)
  | cs => (readNumber 4 cs).map fun r ↦ ((r.1 : Int), r.2)

/-- Read a separator behind blanks. -/
def readMark (mark : Char) (cs : List Char) : Option (List Char) :=
  match skipBlanks cs with
  | c :: rest => if c = mark then some rest else none
  | [] => none

/-- Read the fraction of a second in nanoseconds; digits after the ninth are dropped. -/
def readNanos : List Char → Option (Nat × List Char)
  | '.' :: rest =>
    let digits := (rest.take 9).takeWhile Char.isDigit
    if digits.isEmpty then none
    else
      let n := digits.foldl (fun n c ↦ n * 10 + (c.toNat - 48)) 0
      some (n * Nat.pow 10 (9 - digits.length), rest.dropWhile Char.isDigit)
  | cs => some (0, cs)

/-- Read two digits. -/
def readTwo : List Char → Option (Nat × List Char)
  | a :: b :: rest =>
    if a.isDigit && b.isDigit then some ((a.toNat - 48) * 10 + (b.toNat - 48), rest) else none
  | _ => none

/-- Read hours and minutes of an offset, in seconds. -/
def readClock (cs : List Char) : Option (Nat × List Char) := do
  let (hours, cs) ← readTwo cs
  let (minutes, cs) ← readTwo (cs.dropWhile fun c ↦ c == ':' || Text.isBlank c)
  if minutes < 60 then return (hours * 3600 + minutes * 60, cs) else none

/-- Read the offset from universal time, in seconds. -/
def readOffset : List Char → Option (Int × List Char)
  | 'Z' :: rest | 'z' :: rest => some (0, rest)
  | '+' :: rest => (readClock rest).map fun r ↦ ((r.1 : Int), r.2)
  | '-' :: rest | '−' :: rest => (readClock rest).map fun r ↦ (-(r.1 : Int), r.2)
  | cs =>
    if (cs.take 3).map Char.toLower = ['u', 't', 'c'] then some (0, cs.drop 3) else none

/-- The years that have a place in the calendar. -/
def yearInRange (year : Int) : Bool :=
  -262143 ≤ year && year ≤ 262142

/-- The second lies in one of these years of universal time. -/
def inCalendar (seconds : Int) : Bool :=
  yearInRange (Date.ofDays (Int.fdiv seconds 86400)).year

/-- The instant at this time of this day, written with this offset from universal time, if it has a
place in the calendar. -/
def ofParts? (date : Date) (hour minute second nanos : Nat) (offset : Int) : Option Instant :=
  if yearInRange date.year && date.isValid && hour < 24 && minute < 60 && second ≤ 60
      && offset.natAbs < 86400 then
    let leap := if second = 60 then 1 else 0
    let timeOfDay : Nat := hour * 3600 + minute * 60 + (second - leap)
    let seconds := date.toDays * 86400 + timeOfDay - offset
    if inCalendar seconds then some ⟨seconds, nanos + leap * 1000000000⟩ else none
  else none

/-- Read a date. -/
def readDate (cs : List Char) : Option (Date × List Char) := do
  let (year, cs) ← readYear cs
  let (month, cs) ← readField (← readMark '-' cs)
  let (day, cs) ← readField (← readMark '-' cs)
  return (⟨year, month, day⟩, cs)

/-- Read what parts the date from the time. -/
def readDivider : List Char → Option (List Char)
  | c :: rest => if c = 't' || c = 'T' || c = ' ' then some rest else none
  | [] => none

/-- Read an instant. -/
def read? (s : String) : Option Instant := do
  let (date, cs) ← readDate s.toList
  let (hour, cs) ← readField (← readDivider cs)
  let (minute, cs) ← readField (← readMark ':' cs)
  let (second, cs) ← readField (← readMark ':' cs)
  let (nanos, cs) ← readNanos cs
  let (offset, cs) ← readOffset (skipBlanks cs)
  if (skipBlanks cs).isEmpty then ofParts? date hour minute second nanos offset else none

end Instant

end ChangeContext
