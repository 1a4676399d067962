import ChangeContext.Pattern.Search

/-!
# Candidates

A sentence mentions files in several shapes: a path of another system with its drive letter, a path
from the root, anything between quotation marks, a path with a directory in it, and the bare name of
a file.  Every shape has a pattern, and the patterns overlap, so the shapes take turns.  What stands
between quotation marks and looks like a path is set aside first; then each shape in its turn takes
those of its matches that touch nothing taken or set aside before.

Paths with a drive letter and paths from the root end where a sentence may end, so the punctuation
at their end is not taken.  The others end in an extension and need no such care.
-/

set_option autoImplicit false

namespace ChangeContext

namespace Mention

/-- The shapes of a mention, in the order in which they take turns. -/
inductive Shape where
  | drive
  | rooted
  | quoted
  | relative
  | bare
deriving DecidableEq, Inhabited

/-- A piece of text that mentions a file. -/
structure Candidate where
  shape : Shape
  start : Nat
  stop : Nat
  text : String
deriving DecidableEq, Inhabited

/-! ## Patterns -/

/-- A Latin letter. -/
def isLetter (c : Char) : Bool :=
  c.isAlpha

/-- A Latin letter or a digit. -/
def isLetterOrDigit (c : Char) : Bool :=
  c.isAlphanum

/-- A character of a name without dots. -/
def isStemChar (c : Char) : Bool :=
  Text.isWordChar c || c == '-'

/-- A character of a name. -/
def isNameChar (c : Char) : Bool :=
  isStemChar c || c == '.'

/-- A character of a name in a path with a drive letter. -/
def isDriveNameChar (c : Char) : Bool :=
  !("\\/:*?\"<>|\x60'".toList.contains c || Text.isBlank c)

/-- A drive letter, and names with backslashes between them. -/
def drivePath : Pattern :=
  .seq [.one isLetter, .word ":\\",
    .many (.both (.run1 isDriveNameChar) (.char '\\')), .run1 isDriveNameChar]

/-- Where a path from the root may begin, and the path, which is marked. -/
def rootedPath : Pattern :=
  .both (.either .textStart (.one fun c ↦ Text.isBlank c || c == '(' || c == '['))
    (.mark 1 (.seq [.char '/', .many (.both (.run1 isNameChar) (.char '/')), .run1 isNameChar]))

/-- Something without blanks between two of these quotation marks, marked under this number. -/
def between (quote : Char) (group : Nat) : Pattern :=
  .seq [.char quote, .mark group (.run1 fun c ↦ c != quote && !Text.isBlank c), .char quote]

/-- Something between quotation marks. -/
def quotation : Pattern :=
  .oneOf [between '\x60' 1, between '"' 2, between '\'' 3]

/-- A dot and an extension: a letter and up to nine more letters and digits, and then no character
that would continue the word. -/
def extensionPattern : Pattern :=
  .seq [.char '.', .one isLetter, .upTo 9 (.one isLetterOrDigit), .wordEdge]

/-- A name with an extension. -/
def namePattern : Pattern :=
  .seq [.run1 isStemChar, .many (.both (.char '.') (.run1 isStemChar)), extensionPattern]

/-- At least one directory, and a name with an extension. -/
def relativePath : Pattern :=
  .seq [.optional (.seq [.char '.', .optional (.char '.'), .char '/']),
    .many1 (.both (.run1 isNameChar) (.char '/')), namePattern]

/-- A name with an extension that begins a word. -/
def bareName : Pattern :=
  .both .wordEdge namePattern

/-! ## Taking turns -/

/-- A text that could be a path: it has a slash of either kind, or a stem and an extension. -/
def looksLikePath (s : String) : Bool :=
  let cs := s.toList
  if cs.contains '/' || cs.contains '\\' then true
  else
    let extension := (cs.reverse.takeWhile (· ≠ '.')).reverse
    match cs.reverse.dropWhile (· ≠ '.') with
    | '.' :: _ :: _ => extension.head?.any isLetter && extension.all isLetterOrDigit
    | _ => false

/-- Punctuation that ends a sentence or a clause. -/
def isPunctuation (c : Char) : Bool :=
  c == '.' || c == ',' || c == ';' || c == ':'

/-- The quotations in a text that look like paths; their stretch includes the quotation marks. -/
def quotations (cs : List Char) : List Candidate :=
  (quotation.findAll cs).filterMap fun m ↦
    (m.firstGroup? [1, 2, 3]).bind fun inner ↦
      if looksLikePath inner.text then some ⟨.quoted, m.whole.start, m.whole.stop, inner.text⟩
      else none

/-- The candidate that covers a stretch. -/
def covering (shape : Shape) (s : Span) : Candidate :=
  ⟨shape, s.start, s.stop, s.text⟩

/-- The candidate that covers a stretch up to the punctuation at its end. -/
def coveringTrimmed (shape : Shape) (s : Span) : Candidate :=
  let kept := Text.trimEndWhile isPunctuation s.chars
  ⟨shape, s.start, s.start + kept.length, String.ofList kept⟩

/-- The stretches of two candidates have a character in common. -/
def Candidate.overlaps (a b : Candidate) : Bool :=
  a.start < b.stop && b.start < a.stop

/-- Take those candidates that touch nothing of what is taken, one after the other. -/
def takeTurn (taken : List Candidate) : List Candidate → List Candidate
  | [] => []
  | c :: rest =>
    if taken.any c.overlaps then takeTurn taken rest else c :: takeTurn (c :: taken) rest

/-- The candidates in a text: by their shapes, and from left to right within a shape. -/
def candidates (text : String) : List Candidate :=
  let cs := text.toList
  let quoted := quotations cs
  let drive := takeTurn quoted ((drivePath.findAll cs).map fun m ↦ coveringTrimmed .drive m.whole)
  let rooted := takeTurn (drive ++ quoted)
    ((rootedPath.findAll cs).filterMap fun m ↦ (m.group? 1).map (coveringTrimmed .rooted))
  let relative := takeTurn (rooted ++ drive ++ quoted)
    ((relativePath.findAll cs).map fun m ↦ covering .relative m.whole)
  let bare := takeTurn (relative ++ rooted ++ drive ++ quoted)
    ((bareName.findAll cs).map fun m ↦ covering .bare m.whole)
  (drive ++ rooted ++ quoted ++ relative ++ bare).filter (·.text ≠ "")

end Mention

end ChangeContext
