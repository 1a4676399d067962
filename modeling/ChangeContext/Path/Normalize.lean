import ChangeContext.Path.Basic

/-!
# Normal form of a path

Normalising works on the components alone, without looking at any directory.  The components met so
far are kept on a stack, the most recent on top: staying changes nothing, a name is pushed, and
going up takes the top off.  Where there is nothing to take off — on the empty stack, or on the bare
root — the step up is kept, and a later step up takes that one off again.
-/

set_option autoImplicit false

namespace ChangeContext

namespace Path

/-- Add a step to the steps settled so far, the most recent first. -/
def settle : List Component → Component → List Component
  | steps, .here => steps
  | [], .up => [.up]
  | [.root], .up => [.up, .root]
  | _ :: below, .up => below
  | steps, step => step :: steps

/-- The components of the normal form. -/
def settledComponents (p : Path) : List Component :=
  (p.components.foldl settle []).reverse

/-- The normal form of a path. -/
def normalize (p : Path) : Path :=
  ofComponents p.settledComponents

end Path

end ChangeContext
