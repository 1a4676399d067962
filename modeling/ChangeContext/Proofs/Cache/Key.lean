import ChangeContext.Cache.Key
import ChangeContext.Proofs.FileTree.Entry

/-!
# What keys and states tell

The text of a key tells the lines on which the paths of a file set are written, and nothing else
(`keyText_eq_iff`).  As long as no path has a line break in it, these lines are the paths with their
spellings.  A file set has a state only if every file in it can be read.
-/

set_option autoImplicit false

namespace ChangeContext

/-- The digest tells two texts apart, unless they are the same. -/
def Digest.Tells (s s' : String) : Prop :=
  Digest.ofText s = Digest.ofText s' → s = s'

/-- Letters are told apart. -/
theorem Digest.nodup_ofText_letters : (["c", "a", "b"].map Digest.ofText).Nodup := by
  decide +kernel

namespace Cache

/-- The path is written on one line. -/
def OnOneLine (p : Path) : Prop :=
  '\n' ∉ p.text.toList

instance (p : Path) : Decidable (OnOneLine p) :=
  inferInstanceAs (Decidable ('\n' ∉ p.text.toList))

/-- The lines on which paths are written.  Where there is no path there still is a line, but nothing
is written on it. -/
def linesOf : List Path → List (List Char)
  | [] => [[]]
  | files => files.flatMap fun p ↦ p.text.toList.splitOn '\n'

theorem linesOf_of_ne_nil {files : List Path} (h : files ≠ []) :
    linesOf files = files.flatMap fun p ↦ p.text.toList.splitOn '\n' := by
  cases files with
  | nil => exact absurd rfl h
  | cons p rest => rfl

/-- A text that goes on behind another is set off from it by a line break. -/
theorem keyText_append {files files' : List Path} (hne : files ≠ []) (hne' : files' ≠ []) :
    keyText (files ++ files') = keyText files ++ "\n" ++ keyText files' := by
  rw [keyText, List.map_append, String.intercalate_append_of_ne_nil (by simpa using hne)
    (by simpa using hne')]
  rfl

@[simp] theorem keyText_singleton (p : Path) : keyText [p] = p.text :=
  String.intercalate_singleton

theorem splitOn_keyText_eq_linesOf (files : List Path) :
    (keyText files).toList.splitOn '\n' = linesOf files := by
  induction files with
  | nil => decide
  | cons p rest ih =>
    cases rest with
    | nil => simp [linesOf]
    | cons q rest =>
      have happend := keyText_append (List.cons_ne_nil p []) (List.cons_ne_nil q rest)
      rw [List.singleton_append] at happend
      rw [happend, keyText_singleton, String.toList_append, String.toList_append, List.append_assoc]
      have hbreak : "\n".toList = ['\n'] := rfl
      rw [hbreak, List.singleton_append, List.splitOn_append_cons_self, ih,
        linesOf_of_ne_nil (List.cons_ne_nil p _), linesOf_of_ne_nil (List.cons_ne_nil q _)]
      simp only [List.flatMap_cons]

/-- **The text of a key tells the lines of the paths, and nothing else.** -/
theorem keyText_eq_iff {files files' : List Path} :
    keyText files = keyText files' ↔ linesOf files = linesOf files' := by
  rw [← splitOn_keyText_eq_linesOf, ← splitOn_keyText_eq_linesOf]
  constructor
  · exact fun h ↦ h ▸ rfl
  · intro h
    have hjoin := congrArg (List.intercalate ['\n']) h
    rw [List.intercalate_splitOn, List.intercalate_splitOn] at hjoin
    exact String.toList_injective hjoin

theorem splitOn_keyText {files : List Path} (hne : files ≠ [])
    (hlines : ∀ p ∈ files, OnOneLine p) :
    (keyText files).toList.splitOn '\n' = files.map fun p ↦ p.text.toList := by
  rw [splitOn_keyText_eq_linesOf, linesOf_of_ne_nil hne, List.map_eq_flatMap]
  refine List.flatMap_congr fun p hp ↦ ?_
  exact List.splitOn_eq_singleton (hlines p hp)

/-- **The text of a key tells the files**, spelling and order included. -/
theorem eq_of_keyText_eq {files files' : List Path} (hne : files ≠ []) (hne' : files' ≠ [])
    (hlines : ∀ p ∈ files, OnOneLine p) (hlines' : ∀ p ∈ files', OnOneLine p)
    (h : keyText files = keyText files') : files = files' := by
  have hinj : Function.Injective fun p : Path ↦ p.text.toList := by
    rintro ⟨s⟩ ⟨s'⟩ hs
    exact congrArg Path.mk (String.toList_injective hs)
  refine List.map_injective_iff.2 hinj ?_
  rw [← splitOn_keyText hne hlines, h, splitOn_keyText hne' hlines']

/-- A text tells how any one of its paths is spelt. -/
theorem eq_of_keyText_respell {before after : List Path} {p q : Path}
    (h : keyText (before ++ p :: after) = keyText (before ++ q :: after)) : p = q := by
  have hback : keyText (p :: after) = keyText (q :: after) := by
    cases before with
    | nil => exact h
    | cons r before =>
      rw [keyText_append (List.cons_ne_nil r before) (List.cons_ne_nil p after),
        keyText_append (List.cons_ne_nil r before) (List.cons_ne_nil q after)] at h
      exact (String.append_right_inj _).1 h
  have htext : p.text = q.text := by
    cases after with
    | nil => simpa using hback
    | cons r after =>
      have hp := keyText_append (List.cons_ne_nil p []) (List.cons_ne_nil r after)
      have hq := keyText_append (List.cons_ne_nil q []) (List.cons_ne_nil r after)
      rw [List.singleton_append, keyText_singleton] at hp hq
      rw [hp, hq, String.append_left_inj, String.append_left_inj] at hback
      exact hback
  obtain ⟨text⟩ := p
  exact congrArg Path.mk htext

/-- Every file of a set that has a state can be read. -/
theorem isSome_file?_of_state? {t : FileTree} {files : List Path} {state : String}
    (h : state? t files = some state) {p : Path} (hp : p ∈ files) : (t.file? p).isSome = true := by
  rw [state?, Option.map_eq_some_iff] at h
  obtain ⟨lines, hlines, -⟩ := h
  clear state
  induction files generalizing lines with
  | nil => simp at hp
  | cons q rest ih =>
    simp only [List.mapM_cons, Option.bind_eq_bind, Option.bind_eq_some_iff] at hlines
    obtain ⟨line, hline, lines, hrest, -⟩ := hlines
    rcases List.mem_cons.1 hp with rfl | hp
    · rw [stateLine?, Option.map_eq_some_iff] at hline
      obtain ⟨f, hf, -⟩ := hline
      exact Option.isSome_iff_exists.2 ⟨f, hf⟩
    · exact ih hp lines hrest

/-- Every file of a set that has a state is there. -/
theorem pathExists_of_state? {t : FileTree} {files : List Path} {state : String}
    (h : state? t files = some state) {p : Path} (hp : p ∈ files) : t.pathExists p = true := by
  obtain ⟨f, hf⟩ := Option.isSome_iff_exists.1 (isSome_file?_of_state? h hp)
  rw [FileTree.pathExists, FileTree.file?_eq_some_iff.1 hf]
  rfl

/-- A set of files that can all be read has a state. -/
theorem exists_state? {t : FileTree} {files : List Path}
    (h : ∀ p ∈ files, (t.file? p).isSome = true) : ∃ state, state? t files = some state := by
  have hlines : ∃ lines, files.mapM (stateLine? t) = some lines := by
    induction files with
    | nil => exact ⟨[], rfl⟩
    | cons p rest ih =>
      obtain ⟨lines, hlines⟩ := ih fun q hq ↦ h q (List.mem_cons_of_mem _ hq)
      obtain ⟨f, hf⟩ := Option.isSome_iff_exists.1 (h p (List.mem_cons_self ..))
      exact ⟨_ :: lines, by rw [List.mapM_cons, stateLine?, hf, hlines]; rfl⟩
  obtain ⟨lines, hlines⟩ := hlines
  exact ⟨_, by rw [state?, hlines]; rfl⟩

/-- Only the files of a set matter to its state. -/
theorem state?_congr {t t' : FileTree} {files : List Path}
    (h : ∀ p ∈ files, t'.file? p = t.file? p) : state? t' files = state? t files := by
  have hlines : files.mapM (stateLine? t') = files.mapM (stateLine? t) := by
    induction files with
    | nil => rfl
    | cons p rest ih =>
      rw [List.mapM_cons, List.mapM_cons, stateLine?, stateLine?, h p (List.mem_cons_self ..),
        ih fun q hq ↦ h q (List.mem_cons_of_mem _ hq)]
  rw [state?, state?, hlines]

end Cache

end ChangeContext
