import ChangeContext.Text.Lines
import Mathlib.Data.List.Basic
import Mathlib.Data.List.TakeWhile

/-!
# Cutting a text into lines

A piece that a text is cut into does not hold the character at which it was cut.  So a text that is
written line by line, each line with a line feed behind it, is cut into these lines again
(`splitOn_flatMap_feed`).

Read from left to right, a text is its first line and, behind the first feed, the lines of the rest
(`laterLines_feed`).
-/

set_option autoImplicit false

namespace ChangeContext

namespace Text

theorem notMem_of_mem_splitOn {a : Char} {cs piece : List Char} (h : piece ∈ cs.splitOn a) :
    a ∉ piece := by
  induction cs generalizing piece with
  | nil =>
    obtain rfl := List.mem_singleton.1 h
    exact List.not_mem_nil
  | cons c cs ih =>
    rw [List.splitOn, List.splitOnP_cons_eq_if_modifyHead] at h
    by_cases hc : (c == a) = true
    · rw [if_pos hc] at h
      rcases List.mem_cons.1 h with rfl | h
      · exact List.not_mem_nil
      · exact ih h
    · rw [if_neg hc] at h
      cases hsplit : cs.splitOn a with
      | nil => exact absurd hsplit (List.splitOn_ne_nil _ _)
      | cons first rest =>
        rw [hsplit] at ih
        rw [← List.splitOn, hsplit, List.modifyHead_cons] at h
        rcases List.mem_cons.1 h with rfl | h
        · rw [List.mem_cons, not_or]
          exact ⟨fun heq ↦ hc (by simp [heq]), ih List.mem_cons_self⟩
        · exact ih (List.mem_cons_of_mem _ h)

theorem feed_notMem_of_mem_pieces {s piece : String} (h : piece ∈ pieces s) :
    '\n' ∉ piece.toList := by
  obtain ⟨cs, hcs, rfl⟩ := List.mem_map.1 h
  rw [String.toList_ofList]
  exact notMem_of_mem_splitOn hcs

/-- **What is written line by line is cut into these lines again.** -/
theorem splitOn_flatMap_feed {lines : List (List Char)} (h : ∀ line ∈ lines, '\n' ∉ line)
    (rest : List Char) :
    (lines.flatMap (· ++ ['\n']) ++ rest).splitOn '\n' = lines ++ rest.splitOn '\n' := by
  induction lines with
  | nil => rfl
  | cons line lines ih =>
    obtain ⟨hline, hlines⟩ := List.forall_mem_cons.1 h
    rw [List.flatMap_cons, List.append_assoc, List.append_assoc, List.singleton_append,
      List.splitOn_append_cons_self_of_not_mem hline, ih hlines, List.cons_append]

/-! ## The first line and the others -/

/-- The lines of a text that have a feed before them: all but the first. -/
def laterLines (content : List Char) : List (List Char) :=
  (content.splitOn '\n').tail

/-- What stands before the first feed. -/
def firstLine (content : List Char) : List Char :=
  content.takeWhile (· != '\n')

theorem laterLines_cons_of_ne {c : Char} (hc : c ≠ '\n') (content : List Char) :
    laterLines (c :: content) = laterLines content := by
  rw [laterLines, laterLines, List.splitOn, List.splitOnP_cons_eq_if_modifyHead,
    if_neg (by simpa using hc), List.tail_modifyHead]
  rfl

theorem laterLines_append_of_notMem {line : List Char} (h : '\n' ∉ line) (content : List Char) :
    laterLines (line ++ content) = laterLines content := by
  induction line with
  | nil => rfl
  | cons c line ih =>
    obtain ⟨hc, hline⟩ := not_or.1 (mt List.mem_cons.2 h)
    rw [List.cons_append, laterLines_cons_of_ne (Ne.symm hc), ih hline]

theorem splitOn_feed (content : List Char) :
    content.splitOn '\n' = firstLine content :: laterLines content := by
  induction content with
  | nil => rfl
  | cons c content ih =>
    by_cases hc : c = '\n'
    · subst hc
      rfl
    · rw [laterLines_cons_of_ne hc, firstLine, List.takeWhile_cons_of_pos (by simpa using hc),
        List.splitOn, List.splitOnP_cons_eq_if_modifyHead, if_neg (by simpa using hc), ← List.splitOn,
        ih, List.modifyHead_cons, firstLine]

theorem laterLines_feed (content : List Char) :
    laterLines ('\n' :: content) = firstLine content :: laterLines content :=
  splitOn_feed content

theorem takeWhile_firstLine {accepts : Char → Bool} (h : accepts '\n' = false) (content : List Char) :
    (firstLine content).takeWhile accepts = content.takeWhile accepts := by
  rw [firstLine, List.takeWhile_takeWhile]
  refine congrArg (List.takeWhile · content) (funext fun c ↦ ?_)
  by_cases hc : c = '\n' <;> simp [hc, h]

end Text

end ChangeContext
