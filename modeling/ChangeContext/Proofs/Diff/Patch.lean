import ChangeContext.Diff.Hunk
import Mathlib.Data.List.Basic

/-!
# Hunks as a patch

The hunks of two texts are all that is needed to turn either text into the other.  To patch the old
text, every hunk takes the place of as many lines as its header says, from the line number that its
header says, and puts there its own lines other than the removed ones; the lines between the hunks
are copied.  The other direction is the same with the two sides exchanged, so everything here is
stated for a `Side`.

`patch?` refuses hunks that do not fit: those that begin before the end of the one before them, and
those that cover more lines than there are.  `patch_hunks` says that the hunks of a difference fit,
and that patching one side with them gives the other.

The induction follows `Hunk.between`.  What it carries is `Draft.Tracks`: the open hunk has covered
all lines of a side since it began, unless this side has come to its end.
-/

set_option autoImplicit false

namespace ChangeContext

namespace Diff

/-- One of the two texts that are compared. -/
inductive Side where
  | old
  | new
deriving DecidableEq

/-- The other text. -/
def Side.other : Side → Side
  | old => new
  | new => old

/-- What belongs to this text of two things that belong to the old and the new one. -/
def Side.pick {α : Type} (s : Side) (a b : α) : α :=
  match s with
  | old => a
  | new => b

/-- A line of a hunk that this text has. -/
def Line.isOn (l : Line) : Side → Bool
  | .old => l.kind != .add
  | .new => l.kind != .remove

/-- The contents of those lines that a text has. -/
def Line.sideOf (s : Side) (lines : List Line) : List String :=
  (lines.filter (·.isOn s)).map (·.content)

namespace Hunk

/-- The number of the first line that a hunk covers. -/
def startOn (h : Hunk) : Side → Nat
  | .old => h.oldStart
  | .new => h.newStart

/-- How many lines a hunk covers. -/
def countOn (h : Hunk) : Side → Nat
  | .old => h.oldLines
  | .new => h.newLines

/-- Turn the lines of the text `s`, the first of which has the number `n`, into those of the other
text: copy up to each hunk, and put what the hunk has of the other text for the lines it covers. -/
def patchFrom? (s : Side) (n : Nat) : List Hunk → List String → Option (List String)
  | [], lines => some lines
  | h :: rest, lines =>
    let before := h.startOn s - n
    if n ≤ h.startOn s ∧ before + h.countOn s ≤ lines.length then
      (patchFrom? s (h.startOn s + h.countOn s) rest (lines.drop (before + h.countOn s))).map
        fun after ↦ lines.take before ++ Line.sideOf s.other h.lines ++ after
    else none

end Hunk

/-- Turn the lines of the text `s` into those of the other text. -/
def patch? (s : Side) (hunks : List Hunk) (lines : List String) : Option (List String) :=
  Hunk.patchFrom? s 1 hunks lines

/-! ## Lines -/

/-- A line carries a number for each text that has it. -/
def Line.Numbered (l : Line) : Prop :=
  l.old?.isSome = l.isOn .old ∧ l.new?.isSome = l.isOn .new

theorem Line.numbered_unchanged (c : String) (n : Nat) : (unchanged c n).Numbered := ⟨rfl, rfl⟩

theorem Line.numbered_removed (c : String) (n : Nat) : (removed c n).Numbered := ⟨rfl, rfl⟩

theorem Line.numbered_added (c : String) (n : Nat) : (added c n).Numbered := ⟨rfl, rfl⟩

theorem Line.sideOf_append (s : Side) (l m : List Line) :
    sideOf s (l ++ m) = sideOf s l ++ sideOf s m := by
  simp [sideOf]

namespace Hunk

/-- The counts of a finished hunk are the numbers of lines that it has of the two texts. -/
theorem countOn_ofLines (s : Side) (start : Nat) {lines : List Line}
    (h : ∀ l ∈ lines, l.Numbered) : (ofLines start lines).countOn s = (Line.sideOf s lines).length := by
  rw [Line.sideOf, List.length_map, ← List.countP_eq_length_filter]
  cases s with
  | old => exact List.countP_congr fun l hl ↦ by rw [(h l hl).1]
  | new => exact List.countP_congr fun l hl ↦ by rw [(h l hl).2]

@[simp] theorem startOn_ofLines (s : Side) (start : Nat) (lines : List Line) :
    (ofLines start lines).startOn s = start := by
  cases s <;> rfl

/-! ## Open hunks -/

/-- What an open hunk has of a text. -/
def Draft.side (s : Side) (d : Draft) : List String :=
  Line.sideOf s d.latest.reverse

theorem Draft.side_push (s : Side) (d : Draft) (l : Line) :
    (d.push l).side s = d.side s ++ if l.isOn s then [l.content] else [] := by
  rw [side, push, List.reverse_cons, Line.sideOf_append, side]
  cases h : l.isOn s <;> simp [Line.sideOf, h]

@[simp] theorem Draft.side_push_unchanged (s : Side) (d : Draft) (a : String) (n : Nat) :
    (d.push (.unchanged a n)).side s = d.side s ++ [a] := by
  rw [side_push]
  cases s <;> rfl

@[simp] theorem Draft.side_push_removed (s : Side) (d : Draft) (a : String) (n : Nat) :
    (d.push (.removed a n)).side s = d.side s ++ s.pick [a] [] := by
  rw [side_push]
  cases s <;> rfl

@[simp] theorem Draft.side_push_added (s : Side) (d : Draft) (b : String) (n : Nat) :
    (d.push (.added b n)).side s = d.side s ++ s.pick [] [b] := by
  rw [side_push]
  cases s <;> rfl

@[simp] theorem Draft.start_push (d : Draft) (l : Line) : (d.push l).start = d.start := rfl

/-- The open hunk, whose next line would have the number `n`, has covered every line of this text
since it began, unless no line of the text is left. -/
structure Draft.Tracks (s : Side) (d : Draft) (n : Nat) (left : List String) : Prop where
  numbered : ∀ l ∈ d.latest, l.Numbered
  covered : d.start + (d.side s).length = n ∨ left = []

/-- The open hunk, or the one that would be opened here, which has no lines yet. -/
theorem Draft.tracks_open (s : Side) (n : Nat) (left : List String) :
    (Draft.mk n []).Tracks s n left :=
  ⟨by simp, .inl rfl⟩

/-- As long as there are lines left, everything has been covered. -/
theorem Draft.Tracks.place {s : Side} {d : Draft} {n : Nat} {a : String} {left : List String}
    (h : d.Tracks s n (a :: left)) : d.start + (d.side s).length = n :=
  h.covered.resolve_right (by simp)

/-- Pushing a line that the text has at this place. -/
theorem Draft.Tracks.push_on {s : Side} {d : Draft} {n : Nat} {l : Line} {left : List String}
    (h : d.Tracks s n (l.content :: left)) (hl : l.Numbered) (hs : l.isOn s = true) :
    (d.push l).Tracks s (n + 1) left := by
  refine ⟨fun m hm ↦ ?_, .inl ?_⟩
  · rcases List.mem_cons.1 hm with rfl | hm
    · exact hl
    · exact h.numbered m hm
  · have hn := h.place
    rw [start_push, side_push, if_pos hs, List.length_append]
    simp only [List.length_singleton]
    omega

/-- Pushing a line that only the other text has, while both go on. -/
theorem Draft.Tracks.push_off {s : Side} {d : Draft} {n : Nat} {l : Line} {left : List String}
    (h : d.Tracks s n left) (hl : l.Numbered) (hs : l.isOn s = false) :
    (d.push l).Tracks s n left := by
  refine ⟨fun m hm ↦ ?_, ?_⟩
  · rcases List.mem_cons.1 hm with rfl | hm
    · exact hl
    · exact h.numbered m hm
  · rw [start_push, side_push, hs]
    simpa using h.covered

/-- Past the end of the text its place no longer matters. -/
theorem Draft.Tracks.at_end {s : Side} {d : Draft} {n m : Nat} (h : d.Tracks s n []) :
    d.Tracks s m [] :=
  ⟨h.numbered, .inr rfl⟩

/-! ## Patching -/

/-- Lines before the first hunk are copied. -/
theorem patchFrom?_cons {s : Side} {n : Nat} {hunks : List Hunk} {lines result : List String}
    (a : String) (h : patchFrom? s (n + 1) hunks lines = some result) :
    patchFrom? s n hunks (a :: lines) = some (a :: result) := by
  cases hunks with
  | nil =>
    rw [patchFrom?, Option.some_inj] at h
    rw [patchFrom?, h]
  | cons k rest =>
    simp only [patchFrom?, Option.ite_none_right_eq_some, Option.map_eq_some_iff] at h
    obtain ⟨⟨hle, hfits⟩, after, hafter, rfl⟩ := h
    have hbefore : k.startOn s - n = k.startOn s - (n + 1) + 1 := by omega
    rw [patchFrom?, hbefore, if_pos ⟨by omega, by rw [List.length_cons]; omega⟩,
      Nat.add_right_comm, List.drop_succ_cons, hafter]
    rfl

/-- A finished hunk at the place where it began stands for the lines it has of the text. -/
theorem patchFrom?_close {s : Side} {d : Draft} (hd : ∀ l ∈ d.latest, l.Numbered)
    {hunks : List Hunk} {left result : List String}
    (h : patchFrom? s (d.start + (d.side s).length) hunks left = some result) :
    patchFrom? s d.start (d.close :: hunks) (d.side s ++ left) = some (d.side s.other ++ result) := by
  have hcount : d.close.countOn s = (d.side s).length :=
    countOn_ofLines s d.start fun l hl ↦ hd l (List.mem_reverse.1 hl)
  have hstart : d.close.startOn s = d.start := startOn_ofLines s d.start _
  rw [patchFrom?, hstart, hcount, Nat.sub_self, Nat.zero_add,
    if_pos ⟨Nat.le_refl _, by rw [List.length_append]; omega⟩, List.drop_left, h]
  rfl

/-- The hunks from a place on patch what an open hunk has covered and what is left of one text into
the same of the other. -/
theorem patchFrom?_between (s : Side) (n : Nat) (draft : Option Draft) (as bs : List String)
    (ho : (Draft.orOpen draft n).Tracks .old n as) (hn : (Draft.orOpen draft n).Tracks .new n bs) :
    patchFrom? s (Draft.orOpen draft n).start (between n draft as bs)
        ((Draft.orOpen draft n).side s ++ s.pick as bs)
      = some ((Draft.orOpen draft n).side s.other ++ s.other.pick as bs) := by
  fun_induction between n draft as bs with
  | case1 n draft =>
    cases draft with
    | none => cases s <;> rfl
    | some d => exact patchFrom?_close ho.numbered (by cases s <;> rfl)
  | case2 n draft b bs ih =>
    have hb := Line.numbered_added b n
    have := ih (ho.push_off hb rfl).at_end (hn.push_on hb rfl)
    cases s <;> simpa [Draft.orOpen, Side.pick, Side.other] using this
  | case3 n draft a as ih =>
    have ha := Line.numbered_removed a n
    have := ih (ho.push_on ha rfl) (hn.push_off ha rfl).at_end
    cases s <;> simpa [Draft.orOpen, Side.pick, Side.other] using this
  | case4 n as b bs ih =>
    have := ih (Draft.tracks_open _ _ _) (Draft.tracks_open _ _ _)
    cases s <;> exact patchFrom?_cons b this
  | case5 n as b bs d d' hc ih =>
    -- both texts go on here, so the hunk that closes has covered all lines before the next one
    have hd' : ∀ l ∈ d'.latest, l.Numbered := (ho.push_on (Line.numbered_unchanged b n) rfl).numbered
    have hplace : d'.start + (d'.side s).length = n + 1 := by
      have hold : d.start + (d.side .old).length = n := ho.place
      have hnew : d.start + (d.side .new).length = n := hn.place
      rw [Draft.side_push_unchanged, List.length_append, List.length_singleton, Draft.start_push]
      cases s <;> omega
    have hrest : patchFrom? s (d'.start + (d'.side s).length) (between (n + 1) none as bs)
        (s.pick as bs) = some (s.other.pick as bs) := by
      rw [hplace]
      exact ih (Draft.tracks_open _ _ _) (Draft.tracks_open _ _ _)
    have := patchFrom?_close hd' hrest
    cases s <;> simpa [d', Draft.orOpen, Side.pick, Side.other] using this
  | case6 n as b bs d d' hc ih =>
    have hb := Line.numbered_unchanged b n
    have := ih (ho.push_on hb rfl) (hn.push_on hb rfl)
    cases s <;> simpa [d', Draft.orOpen, Side.pick, Side.other] using this
  | case7 n draft a as b bs hab ih =>
    have ha := Line.numbered_removed a n
    have hb := Line.numbered_added b n
    have := ih ((ho.push_on ha rfl).push_off hb rfl) ((hn.push_off ha rfl).push_on hb rfl)
    cases s <;> simpa [Draft.orOpen, Side.pick, Side.other] using this

end Hunk

/-- **The hunks of two texts are a patch in both directions.** -/
theorem patch_hunks (old new : String) :
    patch? .old (hunks old new) (Text.pieces old) = some (Text.pieces new) ∧
      patch? .new (hunks old new) (Text.pieces new) = some (Text.pieces old) := by
  have h (s : Side) := Hunk.patchFrom?_between s 1 none (Text.pieces old) (Text.pieces new)
    (Hunk.Draft.tracks_open _ _ _) (Hunk.Draft.tracks_open _ _ _)
  exact ⟨h .old, h .new⟩

end Diff

end ChangeContext
