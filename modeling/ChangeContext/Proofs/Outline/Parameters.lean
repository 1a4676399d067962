import ChangeContext.Proofs.Outline.PatternParts
import ChangeContext.Proofs.Text.Trim

/-!
# The text of parameters

Parameters are reported as they are written, with their parentheses where a tree has them and without
where a pattern has left them out.  Either way it is the list without its parentheses that an outline
keeps.
-/

set_option autoImplicit false

namespace ChangeContext

namespace Outline

open Rules

/-- A list of identifiers begins with none of the marks, and does not end with a blank. -/
theorem listChars_ends (xs : List Identifier) :
    (∀ c ∈ (listChars xs).head?, isIdentifierChar c = true) ∧
      ∀ c ∈ (listChars xs).getLast?, isIdentifierChar c = true := by
  have hmem (x : Identifier) : ∀ c ∈ x.chars, isIdentifierChar c = true := List.all_eq_true.1 x.all
  cases xs with
  | nil => simp [listChars]
  | cons x more =>
    refine ⟨fun c hc ↦ ?_, fun c hc ↦ ?_⟩
    · rw [listChars, List.head?_append_of_ne_nil _ x.ne_nil] at hc
      exact hmem x c (List.mem_of_mem_head? hc)
    · rcases List.eq_nil_or_concat' more with rfl | ⟨more, y, rfl⟩
      · rw [listChars, List.flatMap_nil, List.append_nil] at hc
        exact hmem x c (List.mem_of_getLast? hc)
      · rw [listChars, List.flatMap_append, List.flatMap_singleton, ← List.append_assoc,
          ← List.append_assoc, List.getLast?_append_of_ne_nil _ y.ne_nil] at hc
        exact hmem y c (List.mem_of_getLast? hc)

theorem trim_listChars (xs : List Identifier) : Text.trim (listChars xs) = listChars xs := by
  obtain ⟨hhead, hlast⟩ := listChars_ends xs
  exact Text.trimWhile_of_stops (fun c hc ↦ isBlank_of_isIdentifierChar c (hhead c hc))
    fun c hc ↦ isBlank_of_isIdentifierChar c (hlast c hc)

theorem insideParens?_of_ne {cs : List Char} (h : cs.head? ≠ some '(') : insideParens? cs = none := by
  unfold insideParens?
  split
  next => exact absurd rfl h
  next => rfl

/-- Without parentheses a list stays as it is. -/
theorem stripParens_listChars (xs : List Identifier) : stripParens (listChars xs) = listChars xs := by
  have hhead : (listChars xs).head? ≠ some '(' := fun h ↦
    absurd ((listChars_ends xs).1 '(' h) (by decide)
  rw [stripParens, trim_listChars, insideParens?_of_ne hhead]
  exact trim_listChars xs

/-- Parentheses around a list are dropped. -/
theorem stripParens_parens (xs : List Identifier) :
    stripParens ('(' :: (listChars xs ++ [')'])) = listChars xs := by
  have htrim : Text.trim ('(' :: (listChars xs ++ [')'])) = '(' :: (listChars xs ++ [')']) := by
    refine Text.trimWhile_of_stops (Text.stops_cons (by decide)) fun c hc ↦ ?_
    obtain rfl : ')' = c := by simpa [List.getLast?_cons] using hc
    decide
  rw [stripParens, htrim]
  simp only [insideParens?, List.getLast?_concat, List.dropLast_concat]
  exact trim_listChars xs

theorem stripParens_identifier (x : Identifier) : stripParens x.chars = x.chars := by
  have hsingle : listChars [x] = x.chars := by simp [listChars]
  rw [← hsingle, stripParens_listChars]

end Outline

end ChangeContext
