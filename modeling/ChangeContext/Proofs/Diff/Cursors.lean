import ChangeContext.Diff.Hunk
import ChangeContext.Proofs.Loop

/-!
# Comparing with two cursors

`hunks` goes through both texts with a single line number and counts the lines of a hunk when the hunk
is closed.  The comparison of this module has a cursor in each text.  A hunk notes where both of them
stand when it opens, and counts every line as it takes it.  The hunks are the same (`eval_turn`).

The two ways of counting differ in nothing but the moment.  The cursors are another matter: they do
not stay together, since at the end of the shorter text one of them stops.  But then a hunk is open,
or it opens before the other cursor moves on, and it is not closed any more, as only an unchanged line
closes a hunk.  So no hunk opens while the cursors are apart (`Stands`), and each hunk begins at the
same line of both texts.
-/

set_option autoImplicit false

namespace ChangeContext

namespace Diff

namespace Hunk

/-- Put a line behind those of a hunk, and count it for each text in which it has a number. -/
def push (h : Hunk) (l : Line) : Hunk where
  oldStart := h.oldStart
  oldLines := if l.old?.isSome then h.oldLines + 1 else h.oldLines
  newStart := h.newStart
  newLines := if l.new?.isSome then h.newLines + 1 else h.newLines
  lines := h.lines ++ [l]

/-- The hunk is long enough, and its last lines are unchanged. -/
def isComplete (h : Hunk) : Bool :=
  leastLines < h.lines.length && (h.lines.reverse.take closingContext).all (·.kind == .unchanged)

end Hunk

/-- What is held while two texts are compared. -/
structure Comparison where
  /-- The lines of the old text that the cursor has passed. -/
  old : Nat
  /-- The lines of the new text that the cursor has passed. -/
  new : Nat
  current : Option Hunk
  closed : List Hunk

namespace Comparison

/-- Nothing has been compared. -/
def start : Comparison := ⟨0, 0, none, []⟩

/-- The hunk that takes a changed line: the open one, or one that opens where the cursors stand. -/
def hunk (c : Comparison) : Hunk :=
  c.current.getD ⟨c.old + 1, 0, c.new + 1, 0, []⟩

/-- Past a line of the old text. -/
def remove (c : Comparison) (content : String) : Comparison where
  old := c.old + 1
  new := c.new
  current := some (c.hunk.push (.removed content (c.old + 1)))
  closed := c.closed

/-- Past a line of the new text. -/
def add (c : Comparison) (content : String) : Comparison where
  old := c.old
  new := c.new + 1
  current := some (c.hunk.push (.added content (c.new + 1)))
  closed := c.closed

/-- Past a line of both texts, which goes into the open hunk and may close it. -/
def keep (c : Comparison) (content : String) : Comparison :=
  match c.current with
  | none => { c with old := c.old + 1, new := c.new + 1 }
  | some h =>
    let h := h.push ⟨.unchanged, content, some (c.old + 1), some (c.new + 1)⟩
    if h.isComplete then ⟨c.old + 1, c.new + 1, none, c.closed ++ [h]⟩
    else ⟨c.old + 1, c.new + 1, some h, c.closed⟩

/-- Look at the lines that come next, unless both texts are over. -/
def turn (old new : List String) (c : Comparison) : Option Comparison :=
  match old[c.old]?, new[c.new]? with
  | some a, some b => some (if a = b then c.keep a else (c.remove a).add b)
  | none, some b => some (c.add b)
  | some a, none => some (c.remove a)
  | none, none => none

/-- All hunks, the open one last. -/
def hunks (c : Comparison) : List Hunk :=
  c.closed ++ c.current.toList

end Comparison

/-! ## Counting at once or in the end -/

namespace Hunk

theorem close_push (d : Draft) (l : Line) : (d.push l).close = d.close.push l := by
  simp only [Draft.close, Draft.push, ofLines, push, List.reverse_cons, List.countP_append,
    List.countP_singleton, mk.injEq, true_and, and_true]
  constructor <;> split <;> rfl

theorem isComplete_close (d : Draft) : d.close.isComplete = d.isComplete := by
  simp only [isComplete, Draft.isComplete, Draft.close, ofLines, List.reverse_reverse,
    List.length_reverse]
  exact Bool.and_comm ..

end Hunk

/-! ## The cursors -/

namespace Comparison

open Hunk (Draft between)
open StateTransition (eval)

/-- The cursors stand where one line number goes on to `n` with the lines `as` and `bs` ahead, and the
same hunk is open.  A cursor may stand elsewhere only if its text is over and a hunk is open. -/
structure Stands (old new : List String) (c : Comparison) (n : Nat) (draft : Option Draft)
    (as bs : List String) : Prop where
  old : old.drop c.old = as
  new : new.drop c.new = bs
  oldAt : as ≠ [] ∨ draft = none → c.old + 1 = n
  newAt : bs ≠ [] ∨ draft = none → c.new + 1 = n
  current : c.current = draft.map Draft.close

variable {old new as bs : List String} {c : Comparison} {n : Nat} {draft : Option Draft} {d : Draft}
  {a b : String}

theorem getElem?_of_drop_eq_cons {l rest : List String} {k : Nat} (h : l.drop k = a :: rest) :
    l[k]? = some a ∧ l.drop (k + 1) = rest := by
  rw [← List.head?_drop, ← List.tail_drop, h]
  exact ⟨rfl, rfl⟩

theorem getElem?_of_drop_eq_nil {l : List String} {k : Nat} (h : l.drop k = []) : l[k]? = none := by
  rw [← List.head?_drop, h]
  rfl

/-- A hunk opens at the same line of both texts. -/
theorem Stands.hunk_eq (h : Stands old new c n draft as bs) :
    c.hunk = (Draft.orOpen draft n).close := by
  rw [hunk, h.current]
  cases draft with
  | none =>
    rw [h.oldAt (.inr rfl), h.newAt (.inr rfl)]
    rfl
  | some d => rfl

theorem Stands.turn_nil (h : Stands old new c n draft [] []) : turn old new c = none := by
  rw [turn, getElem?_of_drop_eq_nil h.old, getElem?_of_drop_eq_nil h.new]

theorem Stands.turn_add (h : Stands old new c n draft [] (b :: bs)) :
    turn old new c = some (c.add b) ∧
      Stands old new (c.add b) (n + 1) (some ((Draft.orOpen draft n).push (.added b n))) [] bs := by
  obtain ⟨hb, hbs⟩ := getElem?_of_drop_eq_cons h.new
  have hnew : c.new + 1 = n := h.newAt (.inl (List.cons_ne_nil _ _))
  refine ⟨by rw [turn, getElem?_of_drop_eq_nil h.old, hb], ?_⟩
  exact {
    old := h.old
    new := hbs
    oldAt := by simp
    newAt := fun _ ↦ congrArg (· + 1) hnew
    current := by rw [Option.map_some, Hunk.close_push, ← h.hunk_eq, ← hnew]; rfl }

theorem Stands.turn_remove (h : Stands old new c n draft (a :: as) []) :
    turn old new c = some (c.remove a) ∧
      Stands old new (c.remove a) (n + 1) (some ((Draft.orOpen draft n).push (.removed a n))) as
        [] := by
  obtain ⟨ha, has⟩ := getElem?_of_drop_eq_cons h.old
  have hold : c.old + 1 = n := h.oldAt (.inl (List.cons_ne_nil _ _))
  refine ⟨by rw [turn, getElem?_of_drop_eq_nil h.new, ha], ?_⟩
  exact {
    old := has
    new := h.new
    oldAt := fun _ ↦ congrArg (· + 1) hold
    newAt := by simp
    current := by rw [Option.map_some, Hunk.close_push, ← h.hunk_eq, ← hold]; rfl }

theorem Stands.turn_replace (h : Stands old new c n draft (a :: as) (b :: bs)) (hne : a ≠ b) :
    turn old new c = some ((c.remove a).add b) ∧
      Stands old new ((c.remove a).add b) (n + 1)
        (some (((Draft.orOpen draft n).push (.removed a n)).push (.added b n))) as bs := by
  obtain ⟨ha, has⟩ := getElem?_of_drop_eq_cons h.old
  obtain ⟨hb, hbs⟩ := getElem?_of_drop_eq_cons h.new
  have hold : c.old + 1 = n := h.oldAt (.inl (List.cons_ne_nil _ _))
  have hnew : c.new + 1 = n := h.newAt (.inl (List.cons_ne_nil _ _))
  refine ⟨by rw [turn, ha, hb]; exact congrArg some (if_neg hne), ?_⟩
  exact {
    old := has
    new := hbs
    oldAt := fun _ ↦ congrArg (· + 1) hold
    newAt := fun _ ↦ congrArg (· + 1) hnew
    current := by
      have hremoved : (c.remove a).hunk = c.hunk.push (.removed a (c.old + 1)) := rfl
      have hadded : ((c.remove a).add b).current =
          some ((c.remove a).hunk.push (.added b (c.new + 1))) := rfl
      rw [hadded, hremoved, h.hunk_eq, hold, hnew, Option.map_some, Hunk.close_push,
        Hunk.close_push] }

/-- Where both texts go on with the same line, both cursors pass it. -/
theorem Stands.turn_keep (h : Stands old new c n draft (a :: as) (a :: bs)) :
    turn old new c = some (c.keep a) := by
  rw [turn, (getElem?_of_drop_eq_cons h.old).1, (getElem?_of_drop_eq_cons h.new).1]
  exact congrArg some (if_pos rfl)

/-- Both cursors stand together behind a line of both texts, whatever becomes of the hunk. -/
theorem Stands.passed (h : Stands old new c n draft (a :: as) (a :: bs)) (draft' : Option Draft)
    (closed : List Hunk) :
    Stands old new ⟨c.old + 1, c.new + 1, draft'.map Draft.close, closed⟩ (n + 1) draft' as bs where
  old := (getElem?_of_drop_eq_cons h.old).2
  new := (getElem?_of_drop_eq_cons h.new).2
  oldAt := fun _ ↦ congrArg (· + 1) (h.oldAt (.inl (List.cons_ne_nil _ _)))
  newAt := fun _ ↦ congrArg (· + 1) (h.newAt (.inl (List.cons_ne_nil _ _)))
  current := rfl

theorem Stands.keep_eq_of_none (h : Stands old new c n none (a :: as) (a :: bs)) :
    c.keep a = ⟨c.old + 1, c.new + 1, none, c.closed⟩ := by
  have hcurrent : c.current = none := h.current
  simp [keep, hcurrent]

/-- The line of both texts goes into the open hunk. -/
theorem Stands.keep_eq (h : Stands old new c n (some d) (a :: as) (a :: bs)) :
    c.keep a = if (d.push (.unchanged a n)).isComplete then
        ⟨c.old + 1, c.new + 1, none, c.closed ++ [(d.push (.unchanged a n)).close]⟩
      else ⟨c.old + 1, c.new + 1, some (d.push (.unchanged a n)).close, c.closed⟩ := by
  have hold : c.old + 1 = n := h.oldAt (.inl (List.cons_ne_nil _ _))
  have hnew : c.new + 1 = n := h.newAt (.inl (List.cons_ne_nil _ _))
  have hpush : d.close.push ⟨.unchanged, a, some n, some n⟩ = (d.push (.unchanged a n)).close :=
    (Hunk.close_push d (.unchanged a n)).symm
  rw [keep, h.current, Option.map_some]
  simp only [hold, hnew, hpush, Hunk.isComplete_close]

/-- **Two cursors find what is found with one line number.** -/
theorem Stands.eval_turn (h : Stands old new c n draft as bs) :
    (eval (turn old new) c).map hunks = Part.some (c.closed ++ between n draft as bs) := by
  revert c
  fun_induction between n draft as bs
  case case1 n draft =>
    intro c h
    rw [Loop.eval_eq_of_end h.turn_nil, Part.map_some, hunks, h.current, Option.toList_map]
  case case2 n draft b bs ih =>
    intro c h
    obtain ⟨hturn, hstands⟩ := h.turn_add
    rw [Loop.eval_eq_of_turn hturn, ih hstands]
    rfl
  case case3 n draft a as ih =>
    intro c h
    obtain ⟨hturn, hstands⟩ := h.turn_remove
    rw [Loop.eval_eq_of_turn hturn, ih hstands]
    rfl
  case case4 n as b bs ih =>
    intro c h
    rw [Loop.eval_eq_of_turn h.turn_keep, h.keep_eq_of_none]
    exact ih (h.passed none c.closed)
  case case5 n as b bs d d' hcomplete ih =>
    intro c h
    rw [Loop.eval_eq_of_turn h.turn_keep, h.keep_eq, if_pos hcomplete]
    refine (ih (h.passed none (c.closed ++ [d'.close]))).trans ?_
    rw [List.append_assoc, List.singleton_append]
  case case6 n as b bs d d' hcomplete ih =>
    intro c h
    rw [Loop.eval_eq_of_turn h.turn_keep, h.keep_eq, if_neg hcomplete]
    exact ih (h.passed (some d') c.closed)
  case case7 n draft a as b bs hne ih =>
    intro c h
    obtain ⟨hturn, hstands⟩ := h.turn_replace hne
    rw [Loop.eval_eq_of_turn hturn, ih hstands]
    rfl

/-- **The hunks are those of a comparison with two cursors**, which comes to an end. -/
theorem eval_turn (old new : String) :
    (eval (turn (Text.pieces old) (Text.pieces new)) start).map hunks =
      Part.some (Diff.hunks old new) := by
  have hstart : Stands (Text.pieces old) (Text.pieces new) start 1 none (Text.pieces old)
      (Text.pieces new) := ⟨rfl, rfl, fun _ ↦ rfl, fun _ ↦ rfl, rfl⟩
  exact hstart.eval_turn

end Comparison

end Diff

end ChangeContext
