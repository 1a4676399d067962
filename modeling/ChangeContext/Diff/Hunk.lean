import ChangeContext.Text.Lines

/-!
# Hunks of a line difference

Two texts are compared line by line at equal positions.  Lines that agree pass by; where they
differ, the old line is removed and the new one added, and past the end of the shorter text the
rest of the longer one is removed or added.  Nothing is searched for, so a line put in early shows
every later line as changed.

A hunk collects a stretch of changes with the unchanged lines between them.  It opens at a changed
position and closes after an unchanged line, once it holds more than five lines of which the last
three are unchanged.  As both texts are read in step, a hunk begins at the same position in both.
-/

set_option autoImplicit false

namespace ChangeContext

namespace Diff

/-- What happens to a line. -/
inductive LineKind where
  | add
  | remove
  | unchanged
deriving DecidableEq, Inhabited

/-- A line of a hunk, with its numbers in the old and the new text. -/
structure Line where
  kind : LineKind
  content : String
  old? : Option Nat
  new? : Option Nat
deriving DecidableEq, Inhabited

namespace Line

/-- A line that stands at position `n` of both texts. -/
def unchanged (content : String) (n : Nat) : Line :=
  ⟨.unchanged, content, some n, some n⟩

/-- A line that only the old text has. -/
def removed (content : String) (n : Nat) : Line :=
  ⟨.remove, content, some n, none⟩

/-- A line that only the new text has. -/
def added (content : String) (n : Nat) : Line :=
  ⟨.add, content, none, some n⟩

end Line

/-- A stretch of changes. -/
structure Hunk where
  oldStart : Nat
  oldLines : Nat
  newStart : Nat
  newLines : Nat
  lines : List Line
deriving DecidableEq, Inhabited

namespace Hunk

/-- The hunk of these lines; both its counts are those of the lines that carry a number. -/
def ofLines (start : Nat) (lines : List Line) : Hunk where
  oldStart := start
  oldLines := lines.countP (·.old?.isSome)
  newStart := start
  newLines := lines.countP (·.new?.isSome)
  lines := lines

/-- An open hunk: where it began, and its lines, the latest first. -/
structure Draft where
  start : Nat
  latest : List Line

/-- Begin a hunk, unless one is open. -/
def Draft.orOpen (draft : Option Draft) (n : Nat) : Draft :=
  draft.getD ⟨n, []⟩

/-- Put a line into an open hunk. -/
def Draft.push (d : Draft) (l : Line) : Draft :=
  { d with latest := l :: d.latest }

/-- The finished hunk. -/
def Draft.close (d : Draft) : Hunk :=
  ofLines d.start d.latest.reverse

/-- Unchanged lines at the end that close a hunk. -/
def closingContext : Nat := 3

/-- A hunk closes only when it holds more lines than this. -/
def leastLines : Nat := 5

/-- The hunk is long enough, and its last lines are unchanged. -/
def Draft.isComplete (d : Draft) : Bool :=
  (d.latest.take closingContext).all (·.kind == .unchanged) && leastLines < d.latest.length

/-- The hunks of two lists of lines from line number `n` on, where `draft` is open. -/
def between (n : Nat) (draft : Option Draft) : List String → List String → List Hunk
  | [], [] => draft.toList.map Draft.close
  | [], b :: bs => between (n + 1) (some ((Draft.orOpen draft n).push (.added b n))) [] bs
  | a :: as, [] => between (n + 1) (some ((Draft.orOpen draft n).push (.removed a n))) as []
  | a :: as, b :: bs =>
    if a = b then
      match draft with
      | none => between (n + 1) none as bs
      | some d =>
        let d := d.push (.unchanged a n)
        if d.isComplete then d.close :: between (n + 1) none as bs
        else between (n + 1) (some d) as bs
    else
      between (n + 1)
        (some (((Draft.orOpen draft n).push (.removed a n)).push (.added b n))) as bs

end Hunk

/-- The hunks that lead from one text to the other. -/
def hunks (old new : String) : List Hunk :=
  Hunk.between 1 none (Text.pieces old) (Text.pieces new)

end Diff

end ChangeContext
