import ChangeContext.Proofs.Cache.History
import ChangeContext.Proofs.Cache.Key
import ChangeContext.Proofs.Path.Order
import ChangeContext.Proofs.Text.Digits

/-!
# Which changes of files are noticed

The state of a file set is the digest of a text with a line for each file.  All lines are about the
same files in the same order, so two such texts differ just if some number in them does
(`stateText?_eq_iff`): the stamp for the time of the last change, or the size.  This needs no
assumption on the paths, which may well contain the marks that set the numbers apart, because the
numbers are read after a path that is the same in both texts.

A stamp counts the nanoseconds since the beginning of 1970 and cannot be negative.  So a change is
noticed by its time unless both the old and the new time are no later than that (`Alike`).
-/

set_option autoImplicit false

namespace ChangeContext

namespace Cache

open ChangeContext.Path (canonicalSet)

/-! ## The line of a file -/

/-- The stamps of two times are the same if the times are, or if neither is later than the beginning
of 1970. -/
theorem stamp_eq_iff {time time' : Instant} :
    stamp time = stamp time' ↔
      time.toNanos = time'.toNanos ∨ time.toNanos ≤ 0 ∧ time'.toNanos ≤ 0 := by
  rw [stamp, stamp]
  omega

theorem toList_stateLine (p : Path) (time : Instant) (size length : Nat) :
    (stateLine p time size length).toList = p.text.toList ++ '|' :: (Nat.toDigits 10 (stamp time) ++
      '|' :: (Nat.toDigits 10 size ++ '|' :: (Nat.toDigits 10 length ++ ['\n']))) := by
  simp only [stateLine, String.toList_append, Nat.toString_eq_repr, Nat.toList_repr,
    List.append_assoc]
  rfl

/-- **A line tells its numbers and where it ends**, once the path is known. -/
theorem stateLine_append_inj {p : Path} {time time' : Instant} {size size' length length' : Nat}
    {rest rest' : String}
    (h : stateLine p time size length ++ rest = stateLine p time' size' length' ++ rest') :
    stamp time = stamp time' ∧ size = size' ∧ length = length' ∧ rest = rest' := by
  have hbar (cs : List Char) : Text.Stops Char.isDigit ('|' :: cs) := Text.stops_cons (by decide)
  have hend (cs : List Char) : Text.Stops Char.isDigit ('\n' :: cs) := Text.stops_cons (by decide)
  have hchars := congrArg String.toList h
  simp only [String.toList_append, toList_stateLine, List.append_assoc, List.cons_append,
    List.nil_append, List.append_cancel_left_eq, List.cons.injEq, true_and] at hchars
  obtain ⟨hstamp, hchars⟩ := Text.toDigits_append_inj (hbar _) (hbar _) hchars
  obtain ⟨hsize, hchars⟩ := Text.toDigits_append_inj (hbar _) (hbar _) (List.cons.inj hchars).2
  obtain ⟨hlength, hchars⟩ := Text.toDigits_append_inj (hend _) (hend _) (List.cons.inj hchars).2
  exact ⟨hstamp, hsize, hlength, String.toList_injective (List.cons.inj hchars).2⟩

/-- The file at the path is the same in both trees as far as states tell: it can be read in both, it
is of the same size, which is the length of its content, and it was last changed at the same time, or
both times no later than at the beginning of 1970. -/
def Alike (t t' : FileTree) (p : Path) : Prop :=
  ∃ f f', t.file? p = some f ∧ t'.file? p = some f' ∧ f.1.size = f'.1.size ∧
    (f.2.toNanos = f'.2.toNanos ∨ f.2.toNanos ≤ 0 ∧ f'.2.toNanos ≤ 0)

section State

variable {t t' : FileTree} {p : Path} {files : List Path} {line line' text rest rest' : String}

/-- Files that are alike have the same line. -/
theorem stateLine?_of_alike (h : Alike t t' p) (hline : stateLine? t p = some line) :
    stateLine? t' p = some line := by
  obtain ⟨f, f', hf, hf', hsize, htime⟩ := h
  rw [stateLine?, hf, Option.map_some, Option.some_inj] at hline
  rw [stateLine?, hf', Option.map_some, Option.some_inj, ← hline, stateLine, stateLine,
    stamp_eq_iff.2 htime, hsize]

/-- Only files that are alike have the same line. -/
theorem alike_of_stateLine? (hline : stateLine? t p = some line) (hline' : stateLine? t' p = some line')
    (h : line ++ rest = line' ++ rest') : Alike t t' p ∧ rest = rest' := by
  obtain ⟨f, hf, rfl⟩ := Option.map_eq_some_iff.1 hline
  obtain ⟨f', hf', rfl⟩ := Option.map_eq_some_iff.1 hline'
  obtain ⟨hstamp, hsize, -, hrest⟩ := stateLine_append_inj h
  exact ⟨⟨f, f', hf, hf', hsize, stamp_eq_iff.1 hstamp⟩, hrest⟩

/-! ## The state of a file set -/

/-- The text whose digest is the state of a list of files. -/
def stateText? (t : FileTree) (files : List Path) : Option String :=
  (files.mapM (stateLine? t)).map String.join

theorem state?_eq_map (t : FileTree) (files : List Path) :
    state? t files = (stateText? t files).map Digest.ofText := by
  rw [state?, stateText?, Option.map_map]
  rfl

theorem stateText?_cons_eq_some_iff :
    stateText? t (p :: files) = some text ↔
      ∃ line rest, stateLine? t p = some line ∧ stateText? t files = some rest ∧
        text = line ++ rest := by
  rw [stateText?, stateText?, List.mapM_cons]
  cases stateLine? t p with
  | none => simp
  | some line =>
    cases files.mapM (stateLine? t) with
    | none => simp
    | some lines => simp [String.join_cons, eq_comm]

/-- **The texts of two states are the same just if all files are alike.** -/
theorem stateText?_eq_iff (h : stateText? t files = some text) :
    stateText? t' files = some text ↔ ∀ p ∈ files, Alike t t' p := by
  induction files generalizing text with
  | nil =>
    have hnil : stateText? t' [] = stateText? t [] := rfl
    simp [hnil, h]
  | cons p files ih =>
    obtain ⟨line, rest, hline, hrest, rfl⟩ := stateText?_cons_eq_some_iff.1 h
    rw [stateText?_cons_eq_some_iff, List.forall_mem_cons, ← ih hrest]
    constructor
    · rintro ⟨line', rest', hline', hrest', htext⟩
      obtain ⟨halike, rfl⟩ := alike_of_stateLine? hline hline' htext
      exact ⟨halike, hrest'⟩
    · rintro ⟨halike, hrest'⟩
      exact ⟨line, rest, stateLine?_of_alike halike hline, hrest', rfl⟩

/-- Of a set of files in the same state all are alike. -/
theorem alike_of_state? {state : String} (h : state? t files = some state)
    (h' : state? t' files = some state)
    (hdigest : ∀ text text', stateText? t files = some text → stateText? t' files = some text' →
      Digest.Tells text text') : ∀ p ∈ files, Alike t t' p := by
  rw [state?_eq_map, Option.map_eq_some_iff] at h h'
  obtain ⟨text, htext, hstate⟩ := h
  obtain ⟨text', htext', hstate'⟩ := h'
  obtain rfl : text = text' := hdigest text text' htext htext' (hstate.trans hstate'.symm)
  exact (stateText?_eq_iff htext).1 htext'

/-- A set of files that can all be read is in the same state again just if all files are alike. -/
theorem state?_eq_iff (hread : ∀ p ∈ files, (t.file? p).isSome = true)
    (hdigest : ∀ text text', stateText? t files = some text → stateText? t' files = some text' →
      Digest.Tells text text') :
    state? t files = state? t' files ↔ ∀ p ∈ files, Alike t t' p := by
  obtain ⟨state, hstate⟩ := exists_state? hread
  constructor
  · intro h
    exact alike_of_state? hstate (h ▸ hstate) hdigest
  · intro h
    rw [state?_eq_map, Option.map_eq_some_iff] at hstate
    obtain ⟨text, htext, -⟩ := hstate
    rw [state?_eq_map, state?_eq_map, htext, (stateText?_eq_iff htext).2 h]

end State

/-! ## What a request notices -/

/-- An entry that was set is the only one there can be under its key, until another is set. -/
theorem eq_of_get?_run_set {c : Cache} {t : FileTree} {now : Instant} {files : List Path}
    {bundle : Bundle} {state : String} {after : List Event} {e : Entry}
    (hstate : state? t (canonicalSet files) = some state)
    (hafter : ∀ x ∈ after, ¬ x.Stores (keyOf files))
    (h : ((c.set t now files bundle).run after).entries.get? (keyOf files) = some e) :
    e = ⟨keyOf files, canonicalSet files, state, bundle, now⟩ := by
  rcases get?_run_cases h with hset | ⟨x, hx, hstored, hkey⟩
  · rw [get?_set c now bundle hstate, Option.some_inj] at hset
    exact hset.symm
  · exact absurd ⟨e, hstored, hkey⟩ (hafter x hx)

/-- **Which changes of files are noticed.**  Two states of a file set are the same just if all files
are alike.  So when some file is not as it was when a bundle was set, a request is not answered, and
the entry is gone.  In between, the cache may be used in any way short of setting another bundle
under the same key. -/
theorem state?_tells_changes (files : List Path) (t t' : FileTree)
    (hread : ∀ p ∈ canonicalSet files, (t.file? p).isSome = true)
    (hdigest : ∀ text text', stateText? t (canonicalSet files) = some text →
      stateText? t' (canonicalSet files) = some text' → Digest.Tells text text') :
    (state? t (canonicalSet files) = state? t' (canonicalSet files) ↔
      ∀ p ∈ canonicalSet files, Alike t t' p) ∧
    ∀ (c : Cache) (now now' : Instant) (bundle : Bundle) (after : List Event) (request : List Path),
      keyOf request = keyOf files → (∀ x ∈ after, ¬ x.Stores (keyOf files)) →
      (∃ p ∈ canonicalSet files, ¬ Alike t t' p) →
      (((c.set t now files bundle).run after).get t' now' request).1 = none ∧
        (((c.set t now files bundle).run after).get t' now' request).2.entries.get?
          (keyOf request) = none := by
  have hiff := state?_eq_iff hread hdigest
  refine ⟨hiff, fun c now now' bundle after request hkey hafter ⟨p, hp, hchanged⟩ ↦ ?_⟩
  obtain ⟨state, hstate⟩ := exists_state? hread
  have hbad (e : Entry)
      (he : ((c.set t now files bundle).run after).entries.get? (keyOf request) = some e) :
      ¬ e.Good ((c.set t now files bundle).run after).limits t' now' := by
    rw [hkey] at he
    intro hgood
    have hsame := hgood.same
    rw [eq_of_get?_run_set hstate hafter he] at hsame
    exact hchanged (hiff.1 (hstate.trans hsame.symm) p hp)
  constructor
  · refine Option.eq_none_iff_forall_ne_some.2 fun b hb ↦ ?_
    obtain ⟨e, he, hgood, -⟩ := get_fst_eq_some_iff.1 hb
    exact hbad e he hgood
  · rw [get?_get_snd, if_pos rfl]
    refine Option.filter_eq_none_iff.2 fun e he hserves ↦ ?_
    exact hbad e he (serves_iff.1 hserves)

/-- A tree with a file `a` that was last changed at this time. -/
def changedAt (time : Instant) : FileTree where
  nodes := [(["a"], .file "x".toUTF8 time)]
  here := []

theorem file?_changedAt (time : Instant) : (changedAt time).file? ⟨"a"⟩ = some ("x".toUTF8, time) := by
  rfl

/-- A second after the beginning of 1970 a file was written anew, with a content of the same length,
and that is noticed. -/
theorem state?_tells_changes_touched :
    (((ofLimits ⟨60, 1⟩).set (changedAt ⟨0, 0⟩) ⟨1, 0⟩ [⟨"a"⟩] default).get (changedAt ⟨1, 0⟩) ⟨2, 0⟩
      [⟨"a"⟩]).1 = none := by
  have hset : canonicalSet [⟨"a"⟩] = [⟨"a"⟩] := Path.canonicalSet_singleton _
  have htext : stateText? (changedAt ⟨0, 0⟩) [⟨"a"⟩] = some "a|0|1|1\n" := by decide +kernel
  have htext' : stateText? (changedAt ⟨1, 0⟩) [⟨"a"⟩] = some "a|1000000000|1|1\n" := by
    decide +kernel
  refine ((state?_tells_changes [⟨"a"⟩] (changedAt ⟨0, 0⟩) (changedAt ⟨1, 0⟩) ?_ ?_).2
    (ofLimits ⟨60, 1⟩) ⟨1, 0⟩ ⟨2, 0⟩ default [] [⟨"a"⟩] rfl (by simp) ⟨⟨"a"⟩, by simp [hset], ?_⟩).1
  · rw [hset]
    simp [file?_changedAt]
  · rw [hset, htext, htext']
    rintro text text' ⟨⟩ ⟨⟩
    have hne : Digest.ofText "a|0|1|1\n" ≠ Digest.ofText "a|1000000000|1|1\n" := by decide +kernel
    exact fun h ↦ absurd h hne
  · rintro ⟨f, f', hf, hf', -, htime⟩
    rw [file?_changedAt, Option.some_inj] at hf hf'
    rw [← hf, ← hf'] at htime
    revert htime
    decide

/-- A file that was last changed before 1970 was changed again before 1970, and what was set before
this change still is the answer. -/
theorem get_of_set_beforeEpoch :
    ((changedAt ⟨-10, 0⟩).file? ⟨"a"⟩).map (·.2) ≠ ((changedAt ⟨-5, 0⟩).file? ⟨"a"⟩).map (·.2) ∧
      state? (changedAt ⟨-10, 0⟩) [⟨"a"⟩] = state? (changedAt ⟨-5, 0⟩) [⟨"a"⟩] ∧
      (state? (changedAt ⟨-10, 0⟩) [⟨"a"⟩]).isSome = true ∧
      (((ofLimits ⟨60, 1⟩).set (changedAt ⟨-10, 0⟩) ⟨1, 0⟩ [⟨"a"⟩] default).get (changedAt ⟨-5, 0⟩)
        ⟨2, 0⟩ [⟨"a"⟩]).1 = some default := by
  have hset : canonicalSet [⟨"a"⟩] = [⟨"a"⟩] := Path.canonicalSet_singleton _
  have htext : stateText? (changedAt ⟨-10, 0⟩) [⟨"a"⟩] = stateText? (changedAt ⟨-5, 0⟩) [⟨"a"⟩] := by
    decide +kernel
  have hsame : state? (changedAt ⟨-10, 0⟩) [⟨"a"⟩] = state? (changedAt ⟨-5, 0⟩) [⟨"a"⟩] := by
    rw [state?_eq_map, state?_eq_map, htext]
  have hread : ∀ p ∈ [⟨"a"⟩], ((changedAt ⟨-10, 0⟩).file? p).isSome = true := by
    simp [file?_changedAt]
  obtain ⟨state, hstate⟩ := exists_state? hread
  refine ⟨by simp [file?_changedAt], hsame, by rw [hstate]; rfl, ?_⟩
  rw [← hset] at hstate hsame
  exact get_set_eq_some _ default rfl hstate ⟨by decide, hsame ▸ hstate⟩

end Cache

end ChangeContext
