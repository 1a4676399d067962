import ChangeContext.Outline.Structural

/-!
# Walking over trees

The walk takes in the nodes of one tree after those of another (`walk_append`), so what a list of
trees contributes is what each of them contributes.  Most trees contribute nothing: they are
`Silent`.
-/

set_option autoImplicit false

namespace ChangeContext

namespace Outline

open Script

/-- A list of trees is walked over one part after the other. -/
theorem walk_append (ts us : List Tree) (o : Outline) :
    walk (ts ++ us) o = walk us (walk ts o) := by
  induction ts, o using walk.induct with
  | case1 o => rw [List.nil_append, walk]
  | case2 t ts o ih => rw [List.cons_append, walk, walk, ← List.append_assoc, ih]

theorem walk_cons (t : Tree) (ts : List Tree) (o : Outline) :
    walk (t :: ts) o = walk ts (walk [t] o) :=
  walk_append [t] ts o

theorem walk_singleton (t : Tree) (o : Outline) : walk [t] o = walk t.children (o.takeIn t) := by
  rw [walk, List.append_nil]

/-- The role of a tree makes no difference to what it contributes. -/
theorem walk_as (t : Tree) (r : Role) (o : Outline) : walk [t.as r] o = walk [t] o := by
  rw [walk_singleton, walk_singleton]
  rfl

/-! ## Trees without a contribution -/

/-- Nodes of this kind may contribute something. -/
def speaks : Kind → Bool
  | .functionDeclaration | .generatorFunctionDeclaration | .variableDeclarator | .importStatement
  | .callExpression | .exportStatement => true
  | _ => false

theorem takeIn_of_not_speaks {t : Tree} (h : speaks t.kind = false) (o : Outline) :
    o.takeIn t = o := by
  obtain ⟨k, r, s, cs⟩ := t
  cases k <;> first | rfl | simp [speaks, Tree.kind] at h

/-- The trees contribute nothing. -/
def Silent (ts : List Tree) : Prop :=
  ∀ o, walk ts o = o

section Silent

variable {t : Tree} {ts us : List Tree}

theorem silent_nil : Silent [] :=
  fun _ ↦ by rw [walk]

theorem Silent.append (h : Silent ts) (h' : Silent us) : Silent (ts ++ us) :=
  fun o ↦ by rw [walk_append, h, h']

theorem Silent.cons (h : Silent [t]) (h' : Silent ts) : Silent (t :: ts) :=
  h.append h'

theorem Silent.as (h : Silent [t]) (r : Role) : Silent [t.as r] :=
  fun o ↦ by rw [walk_as, h]

/-- A node is silent if its kind and its children are. -/
theorem silent_node (h : speaks t.kind = false) (hchildren : Silent t.children) : Silent [t] :=
  fun o ↦ by rw [walk_singleton, takeIn_of_not_speaks h, hchildren]

theorem silent_leaf {k : Kind} (h : speaks k = false) (s : String) : Silent [Tree.leaf k s] :=
  silent_node h silent_nil

theorem silent_group (h : Silent ts) : Silent [Tree.group ts] :=
  silent_node rfl h

theorem silent_reverse (h : ∀ t ∈ ts, Silent [t]) : Silent ts.reverse := by
  induction ts with
  | nil => exact silent_nil
  | cons t ts ih =>
    obtain ⟨ht, hts⟩ := List.forall_mem_cons.1 h
    rw [List.reverse_cons]
    exact (ih hts).append ht

end Silent

end Outline

end ChangeContext
