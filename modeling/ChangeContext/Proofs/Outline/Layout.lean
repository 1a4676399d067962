import ChangeContext.Proofs.Outline.PatternParts
import ChangeContext.Proofs.Text.Trim

/-!
# Layout

Between the words and marks of a statement there may be blanks of any kind and number, line breaks
among them, and between two words there has to be one.  No blank is a word or a mark, or a part of
one.
-/

set_option autoImplicit false

namespace ChangeContext

namespace Outline

/-- Blanks, or none. -/
structure Blanks where
  chars : List Char
  all : ∀ c ∈ chars, Text.isBlank c = true := by decide

/-- Blanks, at least one. -/
structure Gap extends Blanks where
  ne_nil : chars ≠ [] := by decide

/-- What stands behind a statement: blanks, with a semicolon among them or none. -/
inductive Ending where
  | blanks (bs : Blanks)
  | semicolon (before behind : Blanks)

/-- How the ending is written. -/
def Ending.chars : Ending → List Char
  | .blanks bs => bs.chars
  | .semicolon before behind => before.chars ++ ';' :: behind.chars

/-- No blanks. -/
def Blanks.none : Blanks where
  chars := []

/-- The end of a line. -/
def Blanks.feed : Blanks where
  chars := ['\n']

/-- A single blank. -/
def Gap.single : Gap where
  chars := [' ']

theorem Blanks.ne {mark : Char} (b : Blanks) (h : Text.isBlank mark = false) :
    ∀ c ∈ b.chars, c ≠ mark := by
  rintro c hc rfl
  rw [b.all c hc] at h
  exact absurd h (by decide)

/-- No word stands before what blanks at the start of a text stand before. -/
theorem Blanks.not_word (b : Blanks) :
    (b.chars.reverse ++ []).head?.any Text.isWordChar = false := by
  rw [List.append_nil, List.head?_reverse]
  cases hlast : b.chars.getLast? with
  | none => rfl
  | some c => exact Rules.isWordChar_of_isBlank (b.all c (List.mem_of_getLast? hlast))

theorem Ending.ne {mark : Char} (e : Ending) (h : Text.isBlank mark = false) (hmark : ';' ≠ mark) :
    ∀ c ∈ e.chars, c ≠ mark := by
  cases e with
  | blanks bs => exact bs.ne h
  | semicolon before behind =>
    exact List.forall_mem_append.2 ⟨before.ne h, List.forall_mem_cons.2 ⟨hmark, behind.ne h⟩⟩

theorem Gap.exists_eq_cons (g : Gap) :
    ∃ c cs, g.chars = c :: cs ∧ Text.isBlank c = true ∧ ∀ c ∈ cs, Text.isBlank c = true := by
  obtain ⟨c, cs, heq⟩ := List.exists_cons_of_ne_nil g.ne_nil
  obtain ⟨hc, hcs⟩ := List.forall_mem_cons.1 (heq ▸ g.all)
  exact ⟨c, cs, heq, hc, hcs⟩

theorem Gap.exists_isBlank (g : Gap) (front back : List Char) :
    ∃ c ∈ front ++ (g.chars ++ back), Text.isBlank c = true := by
  obtain ⟨c, tail, heq, hc, -⟩ := g.exists_eq_cons
  exact ⟨c, by simp [heq], hc⟩

/-- A word ends where a gap begins. -/
theorem Gap.stops (g : Gap) (rest : List Char) :
    Text.Stops Rules.isNameRest (g.chars ++ rest) := by
  obtain ⟨c, cs, heq, hc, -⟩ := g.exists_eq_cons
  rw [heq]
  exact Text.stops_cons (Rules.isNameRest_of_isBlank hc)

end Outline

end ChangeContext
