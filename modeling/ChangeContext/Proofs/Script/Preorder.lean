import ChangeContext.Proofs.Enumeration
import ChangeContext.Script.Tree

/-!
# The nodes of a tree in the order of the text

A node stands at a place in its tree: the numbers of the children through which one comes down to
it.  Places are ordered like words, number by number, and this is the order of the text: a node
comes before what it contains, and what one child contains before the children behind it.

`Tree.preorder` lists the nodes with their places by recursion on the tree.  It has every node at
its place, and the places are in ascending order (`enumerates_preorder`), so it has no node twice.
-/

set_option autoImplicit false

namespace ChangeContext

namespace Script

namespace Tree

/-- The node at a place. -/
def at? : Tree → List Nat → Option Tree
  | t, [] => some t
  | t, i :: place => t.children[i]?.bind fun c ↦ c.at? place

mutual

/-- The nodes with their places, a node before what it contains. -/
def preorder : Tree → List (List Nat × Tree)
  | node k r s cs => ([], node k r s cs) :: preorderFrom 0 cs

/-- The nodes of the children from a number on. -/
def preorderFrom : Nat → List Tree → List (List Nat × Tree)
  | _, [] => []
  | i, t :: rest => t.preorder.map (fun e ↦ (i :: e.1, e.2)) ++ preorderFrom (i + 1) rest

end

/-- The nodes, a node before what it contains. -/
def nodes (t : Tree) : List Tree :=
  t.preorder.map (·.2)

theorem map_snd_preorderFrom (i : Nat) (cs : List Tree) :
    (preorderFrom i cs).map (·.2) = cs.flatMap nodes := by
  induction cs generalizing i with
  | nil => rfl
  | cons t rest ih =>
    rw [preorderFrom, List.map_append, ih, List.map_map, List.flatMap_cons, nodes]
    rfl

/-- **The nodes of a tree are its root and then those of its children.** -/
theorem nodes_eq (t : Tree) : t.nodes = t :: t.children.flatMap nodes := by
  obtain ⟨k, r, s, cs⟩ := t
  rw [nodes, preorder, List.map_cons, map_snd_preorderFrom]
  rfl

/-! ## Places -/

mutual

/-- Each node is listed with its place. -/
theorem mem_preorder_iff : (t : Tree) → (place : List Nat) → (n : Tree) →
    ((place, n) ∈ t.preorder ↔ t.at? place = some n)
  | node k r s cs, place, n => by
    rw [preorder, List.mem_cons, mem_preorderFrom_iff]
    cases place with
    | nil => simp [at?, eq_comm]
    | cons i place => simp [at?, children, Option.bind_eq_some_iff]

/-- Behind the number of a child stand the places below it. -/
theorem mem_preorderFrom_iff : (cs : List Tree) → (i : Nat) → (place : List Nat) → (n : Tree) →
    ((place, n) ∈ preorderFrom i cs ↔
      ∃ j c below, place = (i + j) :: below ∧ cs[j]? = some c ∧ c.at? below = some n)
  | [], i, place, n => by simp [preorderFrom]
  | t :: rest, i, place, n => by
    rw [preorderFrom, List.mem_append, List.mem_map, mem_preorderFrom_iff rest]
    constructor
    · rintro (⟨⟨below, m⟩, hmem, heq⟩ | ⟨j, c, below, rfl, hj, hc⟩)
      · obtain ⟨rfl, rfl⟩ := Prod.mk.inj heq
        exact ⟨0, t, below, rfl, rfl, (mem_preorder_iff t below m).1 hmem⟩
      · exact ⟨j + 1, c, below, by rw [Nat.add_right_comm, Nat.add_assoc], hj, hc⟩
    · rintro ⟨j, c, below, rfl, hj, hc⟩
      cases j with
      | zero =>
        obtain rfl := Option.some_inj.1 hj
        exact .inl ⟨(below, n), (mem_preorder_iff t below n).2 hc, rfl⟩
      | succ j => exact .inr ⟨j, c, below, by rw [Nat.add_right_comm, Nat.add_assoc], hj, hc⟩

end

mutual

/-- A node comes before what it contains. -/
theorem pairwise_preorder : (t : Tree) → (t.preorder.map (·.1)).Pairwise (· < ·)
  | node k r s cs => by
    rw [preorder, List.map_cons, List.pairwise_cons]
    refine ⟨fun place hplace ↦ ?_, pairwise_preorderFrom 0 cs⟩
    obtain ⟨⟨place, n⟩, hmem, rfl⟩ := List.mem_map.1 hplace
    obtain ⟨j, c, below, rfl, -, -⟩ := (mem_preorderFrom_iff cs 0 place n).1 hmem
    exact List.nil_lt_cons _ _

/-- What a child contains comes before the children behind it. -/
theorem pairwise_preorderFrom : (i : Nat) → (cs : List Tree) →
    ((preorderFrom i cs).map (·.1)).Pairwise (· < ·)
  | i, [] => List.Pairwise.nil
  | i, t :: rest => by
    rw [preorderFrom, List.map_append, List.map_map, List.pairwise_append]
    refine ⟨?_, pairwise_preorderFrom (i + 1) rest, fun place hplace place' hplace' ↦ ?_⟩
    · have hbelow := List.pairwise_map.1 (pairwise_preorder t)
      refine List.pairwise_map.2 (hbelow.imp fun hlt ↦ ?_)
      exact List.cons_lt_cons_iff.2 (.inr ⟨rfl, hlt⟩)
    · obtain ⟨⟨below, m⟩, -, rfl⟩ := List.mem_map.1 hplace
      obtain ⟨⟨place', n⟩, hmem, rfl⟩ := List.mem_map.1 hplace'
      obtain ⟨j, c, below', rfl, -, -⟩ := (mem_preorderFrom_iff rest (i + 1) place' n).1 hmem
      exact List.cons_lt_cons_iff.2 (.inl (by omega))

end

/-- **The list has each node once, by its place.** -/
theorem enumerates_preorder (t : Tree) :
    Enumerates t.preorder fun place n ↦ t.at? place = some n where
  mem_iff := mem_preorder_iff t
  ascending := pairwise_preorder t

/-- The first child of a node and what it contains come before the second child. -/
example : ((group [group [leaf .other "a"], leaf .other "b"]).preorder.map (·.1)) =
    [[], [0], [0, 0], [1]] := rfl

/-- The nodes are what stands at some place. -/
theorem exists_mem_nodes_iff {t : Tree} {P : Tree → Prop} :
    (∃ n ∈ t.nodes, P n) ↔ ∃ place n, t.at? place = some n ∧ P n := by
  constructor
  · rintro ⟨n, hn, h⟩
    obtain ⟨⟨place, n⟩, hmem, rfl⟩ := List.mem_map.1 hn
    exact ⟨place, n, (mem_preorder_iff t place n).1 hmem, h⟩
  · rintro ⟨place, n, hat, h⟩
    exact ⟨n, List.mem_map.2 ⟨(place, n), (mem_preorder_iff t place n).2 hat, rfl⟩, h⟩

end Tree

end Script

end ChangeContext
