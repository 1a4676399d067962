import ChangeContext.Proofs.Text.Digits
import ChangeContext.Text.Blank
import Mathlib.Data.List.DropRight

/-!
# What is left after trimming

Trimming takes away what is dropped at both ends and nothing from inside.  So the rest is known as
soon as its first and its last character are known to stay.
-/

set_option autoImplicit false

namespace ChangeContext

namespace Text

variable {drops : Char → Bool} {front cs back : List Char}

theorem trimEndWhile_append (hback : ∀ c ∈ back, drops c = true)
    (hlast : ∀ c, cs.getLast? = some c → drops c = false) : trimEndWhile drops (cs ++ back) = cs := by
  have hstops : Stops drops cs.reverse := fun c hc ↦ hlast c (by rwa [List.head?_reverse] at hc)
  rw [trimEndWhile, List.reverse_append,
    dropWhile_append_of_stops (by simpa using hback) hstops, List.reverse_reverse]

/-- What is dropped at both ends leaves what is between. -/
theorem trimWhile_append (hfront : ∀ c ∈ front, drops c = true) (hback : ∀ c ∈ back, drops c = true)
    (hne : cs ≠ []) (hhead : Stops drops cs)
    (hlast : ∀ c, cs.getLast? = some c → drops c = false) :
    trimWhile drops (front ++ (cs ++ back)) = cs := by
  have hstops : Stops drops (cs ++ back) := by
    obtain ⟨c, cs, rfl⟩ := List.exists_cons_of_ne_nil hne
    exact stops_cons (hhead c rfl)
  rw [trimWhile, dropWhile_append_of_stops hfront hstops, trimEndWhile_append hback hlast]

/-- Where nothing is dropped at either end, all is left. -/
theorem trimWhile_of_stops (hhead : Stops drops cs)
    (hlast : ∀ c, cs.getLast? = some c → drops c = false) : trimWhile drops cs = cs := by
  have hdrop : cs.dropWhile drops = cs := by
    simpa using dropWhile_append_of_stops (List.forall_mem_nil _) hhead
  rw [trimWhile, hdrop]
  simpa using trimEndWhile_append (List.forall_mem_nil _) hlast

/-- Where nothing is dropped, all is left. -/
theorem trimWhile_of_forall (hcs : ∀ c ∈ cs, drops c = false) : trimWhile drops cs = cs :=
  trimWhile_of_stops (fun c hc ↦ hcs c (List.mem_of_mem_head? hc))
    fun c hc ↦ hcs c (List.mem_of_getLast? hc)

/-- Trimming takes away the front, and then the end of what is left. -/
theorem trimWhile_prefix_dropWhile (drops : Char → Bool) (cs : List Char) :
    trimWhile drops cs <+: cs.dropWhile drops :=
  List.rdropWhile_prefix drops _

theorem trimWhile_subset (drops : Char → Bool) (cs : List Char) : trimWhile drops cs ⊆ cs :=
  fun _ hc ↦ (List.dropWhile_sublist drops).subset ((trimWhile_prefix_dropWhile drops cs).subset hc)

/-- Nothing is left to be trimmed. -/
theorem trimWhile_trimWhile (drops : Char → Bool) (cs : List Char) :
    trimWhile drops (trimWhile drops cs) = trimWhile drops cs := by
  refine trimWhile_of_stops (fun c hc ↦ ?_) fun c hc ↦ ?_
  · -- what is left begins as it did before its end was taken away
    obtain ⟨back, hback⟩ := trimWhile_prefix_dropWhile drops cs
    have hhead : (cs.dropWhile drops).head? = some c := by
      rw [← hback, List.head?_append, hc, Option.some_or]
    have hstop := List.head?_dropWhile_not drops cs
    rw [hhead] at hstop
    simpa using hstop
  · have hstop := List.head?_dropWhile_not drops (cs.dropWhile drops).reverse
    rw [trimWhile, trimEndWhile, List.getLast?_reverse] at hc
    rw [hc] at hstop
    simpa using hstop

end Text

end ChangeContext
