import ChangeContext.Bundle.Basic

/-!
# Ranking names by their counts

Names are counted in a tally and the most frequent are listed: a higher count first, and among equal
counts the names in ascending order.
-/

set_option autoImplicit false

namespace ChangeContext

/-- How often names were counted. -/
abbrev Tally := NameMap Nat

namespace Tally

/-- Count a name `n` more times; counting it no times leaves it out. -/
def count (t : Tally) (name : String) (n : Nat) : Tally :=
  if n = 0 then t else t.alter name fun old ↦ some (old.getD 0 + n)

/-- The tally of names that were counted one after the other. -/
def ofCounts (counts : List (String × Nat)) : Tally :=
  counts.foldl (fun t c ↦ t.count c.1 c.2) ∅

/-- `a` is listed before `b` or is the same. -/
def precedes (a b : RankedItem) : Bool :=
  decide (b.count < a.count) || (a.count == b.count && decide (a.name ≤ b.name))

/-- The `k` most frequent names. -/
def top (t : Tally) (k : Nat) : List RankedItem :=
  ((t.toList.map fun e ↦ ⟨e.1, e.2⟩).mergeSort precedes).take k

end Tally

end ChangeContext
