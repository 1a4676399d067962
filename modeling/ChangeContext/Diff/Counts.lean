import ChangeContext.Diff.Hunk

/-!
# Counting changes

A removal that is followed at once by an addition is one modification.  Other removals are
deletions, and other additions are additions.
-/

set_option autoImplicit false

namespace ChangeContext

namespace Diff

/-- How many lines were changed, and in which way. -/
structure Counts where
  additions : Nat
  deletions : Nat
  modifications : Nat
deriving DecidableEq, Inhabited

namespace Counts

/-- Nothing changed. -/
def none : Counts := ⟨0, 0, 0⟩

/-- No line was changed. -/
def isEmpty (c : Counts) : Bool :=
  c.additions == 0 && c.deletions == 0 && c.modifications == 0

/-- Count on from `c` over the kinds of the lines of a hunk. -/
def tally (c : Counts) : List LineKind → Counts
  | [] => c
  | .remove :: .add :: rest => tally { c with modifications := c.modifications + 1 } rest
  | .remove :: rest => tally { c with deletions := c.deletions + 1 } rest
  | .add :: rest => tally { c with additions := c.additions + 1 } rest
  | .unchanged :: rest => tally c rest

/-- The counts of a list of hunks. -/
def ofHunks (hunks : List Hunk) : Counts :=
  hunks.foldl (fun c h ↦ c.tally (h.lines.map (·.kind))) none

end Counts

end Diff

end ChangeContext
