import ChangeContext.Proofs.Diff.Patch
import ChangeContext.Proofs.Diff.Stretch

/-!
# The numbers of the lines of a hunk

The header of a hunk says where it begins in both texts and how many lines of each it has, and every
line says where it stands.  What the header says, what the lines say and what the texts have agree
(`Hunk.Places`): from the line that the header names, the lines of a text are numbered on one by one,
as many as the header counts, and at each number the text has the content of the line.

A hunk is a stretch of the steps from one text to the other.  Such a stretch is what leads from a
slice of the one text to the slice of the other at the same place (`exists_slice`), so all of this is
said of two whole lists of lines, where the induction follows `steps`.  Where one of them comes to
its end, its numbers stop and those of the other go on.
-/

set_option autoImplicit false

namespace ChangeContext

namespace Diff

/-- The number that a line has in a text. -/
def Line.numberOn? (l : Line) : Side → Option Nat
  | .old => l.old?
  | .new => l.new?

theorem Line.Numbered.isSome_numberOn? {l : Line} (h : l.Numbered) (s : Side) :
    (l.numberOn? s).isSome = l.isOn s := by
  cases s
  · exact h.1
  · exact h.2

/-- A hunk tells where its lines stand in the two texts. -/
structure Hunk.Places (texts : Side → List String) (h : Hunk) : Prop where
  /-- The lines of a text are numbered on from where the hunk begins, as many as it counts. -/
  numbers : ∀ s, h.lines.filterMap (·.numberOn? s) = List.range' (h.startOn s) (h.countOn s)
  /-- A line has a number for each text that has the line, and for no other. -/
  numbered : ∀ l ∈ h.lines, l.Numbered
  /-- A text has at the number of a line what the line says. -/
  content : ∀ s, ∀ l ∈ h.lines, ∀ n, l.numberOn? s = some n →
    ∃ k, n = k + 1 ∧ (texts s)[k]? = some l.content
  /-- The hunk begins at the same place in both texts. -/
  start_eq : h.oldStart = h.newStart

/-! ## Two lists of lines -/

/-- The content of a line of a text, with its number there. -/
def Line.entryOn? (l : Line) (s : Side) : Option (String × Nat) :=
  (l.numberOn? s).map (l.content, ·)

theorem Line.map_snd_entryOn? (l : Line) (s : Side) :
    (l.entryOn? s).map Prod.snd = l.numberOn? s := by
  rw [entryOn?, Option.map_map]
  exact Option.map_id'

namespace Step

variable {l : Line} {n : Nat}

/-- **Between two lists of lines stand the lines of each, numbered on from the first step.** -/
theorem filterMap_entryOn?_linesFrom (s : Side) (n : Nat) (as bs : List String) :
    (linesFrom n (steps as bs)).filterMap (·.entryOn? s) = (s.pick as bs).zipIdx n := by
  fun_induction steps as bs generalizing n with
  | case1 => cases s <;> rfl
  | case2 b bs ih =>
    rw [linesFrom, List.filterMap_append, ih]
    cases s <;> rfl
  | case3 a as ih =>
    rw [linesFrom, List.filterMap_append, ih]
    cases s <;> rfl
  | case4 a as b bs ih =>
    rw [linesFrom, List.filterMap_append, ih]
    split
    next hab => cases s <;> simp [hab, lines, Line.unchanged, Line.entryOn?, Line.numberOn?, Side.pick]
    next => cases s <;> rfl

theorem numbered_of_mem_lines {step : Step} (h : l ∈ step.lines n) : l.Numbered := by
  cases step with
  | kept c =>
    obtain rfl := List.mem_singleton.1 h
    exact Line.numbered_unchanged c n
  | changed a b =>
    rcases List.mem_pair.1 h with rfl | rfl
    · exact Line.numbered_removed a n
    · exact Line.numbered_added b n
  | removed a =>
    obtain rfl := List.mem_singleton.1 h
    exact Line.numbered_removed a n
  | added b =>
    obtain rfl := List.mem_singleton.1 h
    exact Line.numbered_added b n

theorem numbered_of_mem_linesFrom {ss : List Step} (h : l ∈ linesFrom n ss) : l.Numbered := by
  induction ss generalizing n with
  | nil => exact absurd h List.not_mem_nil
  | cons step ss ih => exact (List.mem_append.1 h).elim numbered_of_mem_lines ih

end Step

/-! ## Slices -/

theorem steps_drop (as bs : List String) (i : Nat) :
    (steps as bs).drop i = steps (as.drop i) (bs.drop i) := by
  fun_induction steps as bs generalizing i with
  | case1 => simp [steps]
  | case2 b bs ih => cases i <;> simp [steps, ih]
  | case3 a as ih => cases i <;> simp [steps, ih]
  | case4 a as b bs ih => cases i <;> simp [steps, ih]

theorem steps_take (as bs : List String) (m : Nat) :
    (steps as bs).take m = steps (as.take m) (bs.take m) := by
  fun_induction steps as bs generalizing m with
  | case1 => simp [steps]
  | case2 b bs ih => cases m <;> simp [steps, ih]
  | case3 a as ih => cases m <;> simp [steps, ih]
  | case4 a as b bs ih => cases m <;> simp [steps, ih]

/-- A stretch holds the steps that follow its place. -/
theorem exists_prefix_of_mem_stretches {n : Nat} {current : Option Stretch} {ss : List Step}
    {d : Stretch} (hcurrent : ∀ d ∈ current, d.next = n) (hd : d ∈ stretches n current ss) :
    ∃ i, d.start = (current.getD ⟨n, []⟩).start + i ∧
      d.steps <+: ((current.getD ⟨n, []⟩).steps ++ ss).drop i := by
  fun_induction stretches n current ss with
  | case1 n current =>
    obtain rfl := Option.mem_toList.1 hd
    exact ⟨0, rfl, by simp⟩
  | case2 n s rest hkept ih =>
    obtain ⟨i, hstart, hsteps⟩ := ih (by simp) hd
    exact ⟨i + 1, hstart.trans (Nat.add_right_comm n 1 i), hsteps⟩
  | case3 n s rest hkept d' hcomplete ih =>
    rcases List.mem_cons.1 hd with rfl | hd
    · exact ⟨0, rfl, ⟨rest, by simp [Stretch.push]⟩⟩
    · -- the stretch lies behind the one that has been closed
      obtain ⟨i, hstart, hsteps⟩ := ih (by simp) hd
      have hnext : d'.start + d'.steps.length = n := hcurrent d' rfl
      have hbehind : (d'.steps ++ s :: rest).drop (d'.steps.length + (i + 1)) = rest.drop i := by
        rw [List.drop_length_add_append, List.drop_succ_cons]
      refine ⟨d'.steps.length + (i + 1), ?_, ?_⟩
      · simp only [Option.getD_none] at hstart
        simp only [Option.getD_some]
        omega
      · rw [Option.getD_some, hbehind]
        exact hsteps
  | case4 n s rest hkept d' hcomplete ih =>
    obtain ⟨i, hstart, hsteps⟩ := ih (next_of_mem_push (hcurrent d' rfl) s) hd
    exact ⟨i, hstart, by simpa [Stretch.push] using hsteps⟩
  | case5 n current s rest hkept ih =>
    obtain ⟨i, hstart, hsteps⟩ := ih (next_of_mem_push (next_getD hcurrent) s) hd
    exact ⟨i, hstart, by simpa [Stretch.push] using hsteps⟩

/-- The lines of a text from the `i`-th on, `m` of them at most. -/
def slice (i m : Nat) (lines : List String) : List String :=
  (lines.drop i).take m

/-- **A stretch leads from a slice of the old text to the slice of the new one at the same place.** -/
theorem exists_slice {old new : String} {d : Stretch} (hd : d ∈ stretchesOf old new) :
    ∃ i m, d.start = i + 1 ∧
      d.steps = steps (slice i m (Text.pieces old)) (slice i m (Text.pieces new)) := by
  have hnone : ∀ d ∈ (none : Option Stretch), d.next = 1 := by simp
  obtain ⟨i, hstart, hsteps⟩ := exists_prefix_of_mem_stretches hnone hd
  refine ⟨i, d.steps.length, hstart.trans (Nat.add_comm 1 i), ?_⟩
  rw [slice, slice, ← steps_take, ← steps_drop]
  exact List.prefix_iff_eq_take.1 hsteps

theorem getElem?_slice {i m k : Nat} {lines : List String} {c : String}
    (h : (slice i m lines)[k]? = some c) : lines[i + k]? = some c := by
  rw [slice, List.getElem?_take] at h
  rw [← List.getElem?_drop]
  exact (Option.ite_none_right_eq_some.1 h).2

/-! ## The hunks of two texts -/

theorem Stretch.places {old new : String} {d : Stretch} (hd : d ∈ stretchesOf old new) :
    d.hunk.Places fun s ↦ Text.pieces (s.pick old new) := by
  obtain ⟨i, m, hstart, hsteps⟩ := exists_slice hd
  have hentries (s : Side) : d.lines.filterMap (·.entryOn? s) =
      (slice i m (Text.pieces (s.pick old new))).zipIdx d.start := by
    rw [Stretch.lines, hsteps, Step.filterMap_entryOn?_linesFrom]
    cases s <;> rfl
  refine ⟨fun s ↦ ?_, fun l hl ↦ Step.numbered_of_mem_linesFrom hl, fun s l hl n hn ↦ ?_, rfl⟩
  · have hnumbers : d.lines.filterMap (·.numberOn? s) =
        List.range' d.start (slice i m (Text.pieces (s.pick old new))).length := by
      rw [← List.zipIdx_map_snd, ← hentries, List.map_filterMap]
      exact List.filterMap_congr fun l _ ↦ (l.map_snd_entryOn? s).symm
    have hcount : d.hunk.countOn s = (d.lines.filterMap (·.numberOn? s)).length := by
      rw [List.length_filterMap_eq_countP]
      cases s <;> rfl
    rw [hcount, hnumbers, List.length_range']
    cases s <;> exact hnumbers
  · have hmem : (l.content, n) ∈ (slice i m (Text.pieces (s.pick old new))).zipIdx d.start := by
      rw [← hentries]
      exact List.mem_filterMap.2 ⟨l, hl, by rw [Line.entryOn?, hn, Option.map_some]⟩
    obtain ⟨hle, hcontent⟩ := List.mk_mem_zipIdx_iff_le_and_getElem?_sub.1 hmem
    exact ⟨i + (n - d.start), by omega, getElem?_slice hcontent⟩

/-- **Every hunk tells where its lines stand.** -/
theorem places_of_mem_hunks {old new : String} {h : Hunk} (hh : h ∈ hunks old new) :
    h.Places fun s ↦ Text.pieces (s.pick old new) := by
  rw [hunks_eq] at hh
  obtain ⟨d, hd, rfl⟩ := List.mem_map.1 hh
  exact Stretch.places hd

/-- The new text goes on behind a changed line. -/
theorem places_longerText :
    Hunk.ofLines 2 [.removed "b" 2, .added "c" 2, .added "d" 3] ∈ hunks "a\nb" "a\nc\nd" ∧
      (Hunk.ofLines 2 [.removed "b" 2, .added "c" 2, .added "d" 3]).Places
        fun s ↦ Text.pieces (s.pick "a\nb" "a\nc\nd") := by
  have hold : Text.pieces "a\nb" = ["a", "b"] := by decide +kernel
  have hnew : Text.pieces "a\nc\nd" = ["a", "c", "d"] := by decide +kernel
  have hh : Hunk.ofLines 2 [.removed "b" 2, .added "c" 2, .added "d" 3] ∈
      hunks "a\nb" "a\nc\nd" := by
    rw [hunks, hold, hnew]
    simp [Hunk.between, Hunk.Draft.orOpen, Hunk.Draft.push, Hunk.Draft.close]
  exact ⟨hh, places_of_mem_hunks hh⟩

end Diff

end ChangeContext
