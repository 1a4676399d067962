import Mathlib.Computability.StateTransition

/-!
# Loops

A loop is given by what one turn of it does: from what the loop holds it makes what it holds after the
turn, or nothing where the loop ends.  `StateTransition.eval` is what the loop comes to, if it ends at
all.  So that a loop comes to something is said in one equation, which is proved turn by turn: a turn
does not change what the loop comes to.
-/

set_option autoImplicit false

namespace ChangeContext

namespace Loop

open StateTransition

variable {σ : Type} {turn : σ → Option σ} {s s' : σ}

/-- A turn does not change what a loop comes to. -/
theorem eval_eq_of_turn (h : turn s = some s') : eval turn s = eval turn s' :=
  reaches_eval (.single h)

/-- Where a loop ends, it has come to what it holds. -/
theorem eval_eq_of_end (h : turn s = none) : eval turn s = Part.some s :=
  Part.eq_some_iff.2 (mem_eval.2 ⟨.refl, h⟩)

end Loop

end ChangeContext
