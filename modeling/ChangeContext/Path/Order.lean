import ChangeContext.Path.Basic

/-!
# The order of paths

Paths are ordered component by component, so a directory comes with everything below it before any
sibling whose name merely continues its own: `a/c` precedes `a-b/c`, although the text does not.
The root precedes the current directory, that the parent, and that all names; names compare by
their characters.

A file set is put into canonical form by this order: sorted, and of several spellings of one path
only the first kept.
-/

set_option autoImplicit false

namespace ChangeContext

namespace Path

/-- The rank of the kinds of components. -/
def Component.rank : Component → Nat
  | root => 0
  | here => 1
  | up => 2
  | name _ => 3

/-- Components by kind, and names by their characters. -/
def Component.compare : Component → Component → Ordering
  | name a, name b => Ord.compare a b
  | a, b => Ord.compare a.rank b.rank

/-- Lists of components, compared at the first place where they differ. -/
def compareComponents : List Component → List Component → Ordering
  | [], [] => .eq
  | [], _ :: _ => .lt
  | _ :: _, [] => .gt
  | a :: as, b :: bs => (a.compare b).then (compareComponents as bs)

/-- The order of paths. -/
def compare (p q : Path) : Ordering :=
  compareComponents p.components q.components

/-- `p` stands before `q` or is the same path. -/
def le (p q : Path) : Bool :=
  (p.compare q).isLE

/-- Of neighbours that are the same path, keep the first. -/
def dedupAfter (p : Path) : List Path → List Path
  | [] => []
  | q :: rest => if p.Same q then dedupAfter p rest else q :: dedupAfter q rest

/-- Of neighbours that are the same path, keep the first. -/
def dedup : List Path → List Path
  | [] => []
  | p :: rest => p :: dedupAfter p rest

/-- A file set in its canonical form: ascending, each path once, in the spelling that came first. -/
def canonicalSet (files : List Path) : List Path :=
  dedup (files.mergeSort le)

/-- Some member of the list is the same path as `p`. -/
def memSame (p : Path) (l : List Path) : Bool :=
  l.any fun q ↦ decide (p.Same q)

end Path

end ChangeContext
