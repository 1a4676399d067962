import ChangeContext.Style
import Mathlib.Algebra.BigOperators.Group.List.Basic
import Mathlib.Algebra.GroupWithZero.Nat

/-!
# Adding up votes

The votes of a code base are a sum over its files, so nothing about the files counts but which of
them are not empty and how often each of them is there (`detect_of_perm_sampled`).  An empty file is
left out of the sum, yet it could vote on semicolons only: every other total is the sum over all the
files (`IsTotal.sampledVotes`).
-/

set_option autoImplicit false

namespace ChangeContext

namespace Style

namespace Votes

theorem add_right_comm (u v w : Votes) : (u.add v).add w = (u.add w).add v := by
  simp only [add, Nat.add_right_comm]

/-- One of the totals, or a sum of some of them. -/
structure IsTotal (f : Votes → Nat) : Prop where
  none : f .none = 0
  add (v w : Votes) : f (v.add w) = f v + f w

end Votes

/-- The votes of all files that are not empty. -/
def sampledVotes (contents : List String) : Votes :=
  (contents.filter (· ≠ "")).foldl (fun v c ↦ v.add (.ofContent c.toList)) .none

/-- Where there is nothing to vote on, the votes decide on what is assumed anyway. -/
theorem detect_eq (contents : List String) : detect contents = ofVotes (sampledVotes contents) := by
  rw [detect, sampledVotes]
  split
  next hempty =>
    rw [List.isEmpty_iff.1 hempty]
    rfl
  next => rfl

/-- **Only the files that are not empty count**, in whatever order they come. -/
theorem detect_of_perm_sampled {contents contents' : List String}
    (h : (contents.filter (· ≠ "")).Perm (contents'.filter (· ≠ ""))) :
    detect contents = detect contents' := by
  rw [detect_eq, detect_eq, sampledVotes, sampledVotes,
    h.foldl_eq' fun x _ y _ z ↦ Votes.add_right_comm z _ _]

namespace Votes

variable {f : Votes → Nat}

theorem IsTotal.foldl (hf : IsTotal f) (contents : List String) (v : Votes) :
    f (contents.foldl (fun v c ↦ v.add (.ofContent c.toList)) v) =
      f v + (contents.map fun c ↦ f (.ofContent c.toList)).sum := by
  induction contents generalizing v with
  | nil => rfl
  | cons c contents ih =>
    rw [List.foldl_cons, ih, hf.add, List.map_cons, List.sum_cons, Nat.add_assoc]

/-- A total on which an empty file has no vote is the sum over all files. -/
theorem IsTotal.sampledVotes (hf : IsTotal f) (hempty : f (.ofContent []) = 0)
    (contents : List String) :
    f (sampledVotes contents) = (contents.map fun c ↦ f (.ofContent c.toList)).sum := by
  rw [Style.sampledVotes, hf.foldl, hf.none, Nat.zero_add]
  induction contents with
  | nil => rfl
  | cons c contents ih =>
    by_cases hc : c = ""
    · have hnone : f (.ofContent c.toList) = 0 := by rw [hc]; exact hempty
      rw [List.filter_cons_of_neg (by simpa using hc), ih, List.map_cons, List.sum_cons, hnone,
        Nat.zero_add]
    · rw [List.filter_cons_of_pos (by simpa using hc), List.map_cons, List.map_cons, List.sum_cons,
        List.sum_cons, ih]

end Votes

end Style

end ChangeContext
