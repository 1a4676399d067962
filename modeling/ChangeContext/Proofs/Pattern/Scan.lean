import ChangeContext.Pattern.Search
import Mathlib.Data.List.Basic
import Mathlib.Data.List.Induction
import Mathlib.Data.List.TakeWhile

/-!
# Searching a text piece by piece

Between what stands before it and what stands ahead there is one place in a text, `Place.between`.
For such places it can be said in terms of characters what it takes for a pattern to fit: each kind
of pattern has a lemma `of_fits_…` that says what stands ahead where it fits, and one
`isSome_fits_…` that says where it does.  Nothing is assumed of what happens after the pattern.

`Pattern.scan` is the search from such a place on.  It goes on from a place where the pattern does
not fit to the next (`scan_cons`), and from one where it does to the end of the match
(`scan_of_matchAt?`).  So a text is searched piece by piece: either the search `Skips` the piece, or
the piece begins with a match.
-/

set_option autoImplicit false

namespace ChangeContext

namespace Place

/-- The place between what stands before it, nearest character first, and what stands ahead. -/
def between (before ahead : List Char) : Place :=
  ⟨before, ahead, before.length, ahead.length⟩

variable {before ahead cs : List Char} {c : Char}

theorem next_between : (between before (c :: ahead)).next = between (c :: before) ahead := rfl

/-- All the characters of a class are passed. -/
theorem pass_between (accepts : Char → Bool) (before ahead : List Char) (count : Nat) :
    (between before ahead).pass accepts ahead.length count =
      (count + (ahead.takeWhile accepts).length,
        between ((ahead.takeWhile accepts).reverse ++ before) (ahead.dropWhile accepts)) := by
  induction ahead generalizing before count with
  | nil => rfl
  | cons c rest ih =>
    rw [List.length_cons, pass]
    change (if accepts c then _ else _) = _
    split
    next hc =>
      rw [next_between, ih, List.takeWhile_cons_of_pos hc, List.dropWhile_cons_of_pos hc]
      simp [Nat.add_comm, Nat.add_left_comm]
    next hc =>
      rw [List.takeWhile_cons_of_neg hc, List.dropWhile_cons_of_neg hc]
      rfl

theorem offset_lt_iff :
    (between before (cs ++ ahead)).offset < (between (cs.reverse ++ before) ahead).offset ↔
      cs ≠ [] := by
  simp only [between, List.length_append, List.length_reverse, ne_eq, ← List.length_eq_zero_iff]
  omega

/-- The stretch between two places holds the characters between them. -/
theorem chars_until_between :
    ((between before (cs ++ ahead)).until (between (cs.reverse ++ before) ahead)).chars = cs := by
  simp [Span.chars, Place.until, between]

/-- A word begins where a word character stands ahead, and none before. -/
theorem atWordEdge_between {before ahead : List Char}
    (hbefore : before.head?.any Text.isWordChar = false)
    (hahead : ahead.head?.any Text.isWordChar = true) : (between before ahead).atWordEdge = true := by
  change (before.head?.any Text.isWordChar != ahead.head?.any Text.isWordChar) = true
  rw [hbefore, hahead]
  rfl

end Place

namespace Pattern

open Place (between)

/-! ## Where a pattern fits -/

section Fits

variable {α : Type} {p q : Pattern} {accepts : Char → Bool} {marks : List (Nat × Span)}
  {after : Reached → Option α} {a : α} {r : Reached} {before ahead cs ds : List Char} {c : Char}

theorem fits_both (p q : Pattern) (r : Reached) (after : Reached → Option α) :
    (both p q).fits r after = p.fits r fun r' ↦ q.fits r' after := rfl

theorem fits_mark (group : Nat) (p : Pattern) (r : Reached) (after : Reached → Option α) :
    (mark group p).fits r after =
      p.fits r fun r' ↦ after ⟨r'.place, (group, r.place.until r'.place) :: r'.marks⟩ := rfl

theorem fits_seq_nil (r : Reached) (after : Reached → Option α) : (seq []).fits r after = after r :=
  rfl

theorem fits_seq_cons (p : Pattern) (ps : List Pattern) (r : Reached)
    (after : Reached → Option α) :
    (seq (p :: ps)).fits r after = p.fits r fun r' ↦ (seq ps).fits r' after := by
  cases ps <;> rfl

theorem of_fits_one (h : (one accepts).fits ⟨between before ahead, marks⟩ after = some a) :
    ∃ c rest, ahead = c :: rest ∧ accepts c = true ∧
      after ⟨between (c :: before) rest, marks⟩ = some a := by
  cases ahead with
  | nil => simp [fits, between] at h
  | cons c rest =>
    obtain ⟨hc, hafter⟩ := Option.ite_none_right_eq_some.1 h
    exact ⟨c, rest, rfl, hc, hafter⟩

theorem fits_one_of_accepts (hc : accepts c = true) :
    (one accepts).fits ⟨between before (c :: ahead), marks⟩ after =
      after ⟨between (c :: before) ahead, marks⟩ :=
  if_pos hc

theorem isSome_fits_one (hc : accepts c = true)
    (h : (after ⟨between (c :: before) ahead, marks⟩).isSome = true) :
    ((one accepts).fits ⟨between before (c :: ahead), marks⟩ after).isSome = true := by
  rwa [fits_one_of_accepts hc]

theorem of_fits_char (h : (char c).fits ⟨between before ahead, marks⟩ after = some a) :
    ∃ rest, ahead = c :: rest ∧ after ⟨between (c :: before) rest, marks⟩ = some a := by
  obtain ⟨d, rest, rfl, hd, hafter⟩ := of_fits_one h
  obtain rfl : d = c := by simpa using hd
  exact ⟨rest, rfl, hafter⟩

theorem fits_char_cons (c : Char) (before ahead : List Char) (marks : List (Nat × Span))
    (after : Reached → Option α) :
    (char c).fits ⟨between before (c :: ahead), marks⟩ after =
      after ⟨between (c :: before) ahead, marks⟩ :=
  fits_one_of_accepts (beq_self_eq_true c)

theorem isSome_fits_char (h : (after ⟨between (c :: before) ahead, marks⟩).isSome = true) :
    ((char c).fits ⟨between before (c :: ahead), marks⟩ after).isSome = true := by
  rwa [fits_char_cons]

theorem retreat_succ (marks : List (Nat × Span)) (after : Reached → Option α) (count : Nat)
    (c : Char) (before ahead : List Char) :
    retreat marks after (count + 1) (between (c :: before) ahead) =
      match after ⟨between (c :: before) ahead, marks⟩ with
      | some a => some a
      | none => retreat marks after count (between before (c :: ahead)) := rfl

/-- Where characters are taken back, some of them remain passed. -/
theorem of_retreat
    (h : retreat marks after cs.length (between (cs.reverse ++ before) ahead) = some a) :
    ∃ ds es, cs = ds ++ es ∧ after ⟨between (ds.reverse ++ before) (es ++ ahead), marks⟩ = some a := by
  induction cs using List.reverseRecOn generalizing ahead with
  | nil => exact ⟨[], [], rfl, h⟩
  | append_singleton cs c ih =>
    rw [List.length_append, List.length_singleton, List.reverse_concat, List.cons_append,
      retreat_succ] at h
    split at h
    next a' ha' => exact ⟨cs ++ [c], [], by simp, by simpa using ha'.trans h⟩
    next =>
      obtain ⟨ds, es, rfl, hafter⟩ := ih h
      exact ⟨ds, es ++ [c], by simp, by simpa using hafter⟩

theorem isSome_retreat
    (h : (after ⟨between (cs.reverse ++ before) (ds ++ ahead), marks⟩).isSome = true) :
    (retreat marks after (cs ++ ds).length
      (between ((cs ++ ds).reverse ++ before) ahead)).isSome = true := by
  induction ds using List.reverseRecOn generalizing ahead with
  | nil =>
    rw [List.append_nil]
    cases cs using List.reverseRecOn with
    | nil => exact h
    | append_singleton cs c =>
      rw [List.nil_append, List.reverse_concat, List.cons_append] at h
      rw [List.length_append, List.length_singleton, List.reverse_concat, List.cons_append,
        retreat_succ]
      split
      · rfl
      · next hnone => simp [hnone] at h
  | append_singleton ds c ih =>
    rw [← List.append_assoc, List.length_append, List.length_singleton, List.reverse_concat,
      List.cons_append, retreat_succ]
    split
    · rfl
    · exact ih (by simpa using h)

/-- Where whatever follows succeeds, no character is taken back. -/
theorem fits_run_of_total (hcs : ∀ c ∈ cs, accepts c = true)
    (hstop : ahead.head?.any accepts = false) (h : ∀ r, (after r).isSome = true) :
    (run accepts).fits ⟨between before (cs ++ ahead), marks⟩ after =
      after ⟨between (cs.reverse ++ before) ahead, marks⟩ := by
  have htake : (cs ++ ahead).takeWhile accepts = cs := by
    rw [List.takeWhile_append_of_pos hcs]
    cases ahead <;> simp_all
  have hdrop : (cs ++ ahead).dropWhile accepts = ahead := by
    rw [List.dropWhile_append_of_pos hcs]
    cases ahead <;> simp_all
  change retreat marks after ((between before (cs ++ ahead)).pass accepts (cs ++ ahead).length 0).1
    ((between before (cs ++ ahead)).pass accepts (cs ++ ahead).length 0).2 = _
  rw [Place.pass_between, htake, hdrop, Nat.zero_add]
  cases cs with
  | nil => rfl
  | cons c cs =>
    rw [List.length_cons, retreat]
    split
    next a ha => exact ha.symm
    next hnone =>
      have hsome := h ⟨between ((c :: cs).reverse ++ before) ahead, marks⟩
      rw [hnone] at hsome
      exact absurd hsome Bool.false_ne_true

theorem of_fits_run (h : (run accepts).fits ⟨between before ahead, marks⟩ after = some a) :
    ∃ cs rest, ahead = cs ++ rest ∧ (∀ c ∈ cs, accepts c = true) ∧
      after ⟨between (cs.reverse ++ before) rest, marks⟩ = some a := by
  change retreat marks after ((between before ahead).pass accepts ahead.length 0).1
    ((between before ahead).pass accepts ahead.length 0).2 = some a at h
  rw [Place.pass_between, Nat.zero_add] at h
  obtain ⟨ds, es, heq, hafter⟩ := of_retreat h
  refine ⟨ds, es ++ ahead.dropWhile accepts, ?_, fun c hc ↦ ?_, hafter⟩
  · rw [← List.append_assoc, ← heq, List.takeWhile_append_dropWhile]
  · exact List.mem_takeWhile_imp (heq ▸ List.mem_append_left es hc)

/-- What stands ahead begins with as many characters of a class as there are. -/
theorem exists_run_append (accepts : Char → Bool) (ahead : List Char) :
    ∃ cs rest, ahead = cs ++ rest ∧ (∀ c ∈ cs, accepts c = true) ∧
      rest.head?.any accepts = false := by
  refine ⟨ahead.takeWhile accepts, ahead.dropWhile accepts,
    List.takeWhile_append_dropWhile.symm, fun c hc ↦ List.mem_takeWhile_imp hc, ?_⟩
  cases hdrop : ahead.dropWhile accepts with
  | nil => rfl
  | cons c rest =>
    have hhead := List.head?_dropWhile_not accepts ahead
    rw [hdrop] at hhead
    simpa using hhead

/-- Where whatever follows succeeds, the run ends where the class does. -/
theorem of_fits_run_of_total (htotal : ∀ r, (after r).isSome = true)
    (h : (run accepts).fits ⟨between before ahead, marks⟩ after = some a) :
    ∃ cs rest, ahead = cs ++ rest ∧ (∀ c ∈ cs, accepts c = true) ∧ rest.head?.any accepts = false ∧
      after ⟨between (cs.reverse ++ before) rest, marks⟩ = some a := by
  obtain ⟨cs, rest, rfl, hcs, hstop⟩ := exists_run_append accepts ahead
  exact ⟨cs, rest, rfl, hcs, hstop, (fits_run_of_total hcs hstop htotal).symm.trans h⟩

theorem isSome_fits_run (hcs : ∀ c ∈ cs, accepts c = true)
    (h : (after ⟨between (cs.reverse ++ before) ahead, marks⟩).isSome = true) :
    ((run accepts).fits ⟨between before (cs ++ ahead), marks⟩ after).isSome = true := by
  change (retreat marks after ((between before (cs ++ ahead)).pass accepts (cs ++ ahead).length 0).1
    ((between before (cs ++ ahead)).pass accepts (cs ++ ahead).length 0).2).isSome = true
  rw [Place.pass_between, Nat.zero_add, List.takeWhile_append_of_pos hcs,
    List.dropWhile_append_of_pos hcs]
  refine isSome_retreat ?_
  rwa [List.takeWhile_append_dropWhile]

theorem isSome_fits_run_nil (h : (after ⟨between before ahead, marks⟩).isSome = true) :
    ((run accepts).fits ⟨between before ahead, marks⟩ after).isSome = true :=
  isSome_fits_run (List.forall_mem_nil _) h

theorem of_fits_run1 (h : (run1 accepts).fits ⟨between before ahead, marks⟩ after = some a) :
    ∃ cs rest, ahead = cs ++ rest ∧ cs ≠ [] ∧ (∀ c ∈ cs, accepts c = true) ∧
      after ⟨between (cs.reverse ++ before) rest, marks⟩ = some a := by
  rw [run1, fits_both] at h
  obtain ⟨c, _, rfl, hc, hrun⟩ := of_fits_one h
  obtain ⟨cs, rest, rfl, hcs, hafter⟩ := of_fits_run hrun
  exact ⟨c :: cs, rest, rfl, List.cons_ne_nil _ _, List.forall_mem_cons.2 ⟨hc, hcs⟩,
    by simpa using hafter⟩

theorem isSome_fits_run1 (hne : cs ≠ []) (hcs : ∀ c ∈ cs, accepts c = true)
    (h : (after ⟨between (cs.reverse ++ before) ahead, marks⟩).isSome = true) :
    ((run1 accepts).fits ⟨between before (cs ++ ahead), marks⟩ after).isSome = true := by
  cases cs with
  | nil => exact absurd rfl hne
  | cons c cs =>
    obtain ⟨hc, hcs⟩ := List.forall_mem_cons.1 hcs
    rw [run1, fits_both]
    exact isSome_fits_one hc (isSome_fits_run hcs (by simpa using h))

theorem of_advance {bound : Nat}
    (h : advance accepts marks after bound (between before ahead) = some a) :
    ∃ cs rest, ahead = cs ++ rest ∧ (∀ c ∈ cs, accepts c = true) ∧
      after ⟨between (cs.reverse ++ before) rest, marks⟩ = some a := by
  induction bound generalizing before ahead with
  | zero => exact ⟨[], ahead, rfl, by simp, h⟩
  | succ bound ih =>
    rw [advance] at h
    split at h
    next a' ha' => exact ⟨[], ahead, rfl, by simp, ha'.trans h⟩
    next =>
      cases ahead with
      | nil => simp [between] at h
      | cons c rest =>
        change (if accepts c then advance accepts marks after bound (between (c :: before) rest)
          else none) = some a at h
        obtain ⟨hc, hmore⟩ := Option.ite_none_right_eq_some.1 h
        obtain ⟨cs, rest, rfl, hcs, hafter⟩ := ih hmore
        exact ⟨c :: cs, rest, rfl, List.forall_mem_cons.2 ⟨hc, hcs⟩, by simpa using hafter⟩

theorem isSome_advance (hcs : ∀ c ∈ cs, accepts c = true) {bound : Nat} (hbound : cs.length ≤ bound)
    (h : (after ⟨between (cs.reverse ++ before) ahead, marks⟩).isSome = true) :
    (advance accepts marks after bound (between before (cs ++ ahead))).isSome = true := by
  induction cs generalizing before bound with
  | nil =>
    cases bound with
    | zero => exact h
    | succ bound =>
      rw [advance]
      rw [List.reverse_nil, List.nil_append] at h
      split <;> simp_all
  | cons c cs ih =>
    obtain ⟨hc, hcs⟩ := List.forall_mem_cons.1 hcs
    obtain ⟨bound, rfl⟩ := Nat.exists_eq_add_of_le' (Nat.one_le_of_lt hbound)
    rw [advance]
    split
    · rfl
    · change (if accepts c then advance accepts marks after bound (between (c :: before) _)
        else none).isSome = true
      rw [if_pos hc]
      exact ih hcs (Nat.le_of_succ_le_succ hbound) (by simpa using h)

theorem of_fits_fewest1 (h : (fewest1 accepts).fits ⟨between before ahead, marks⟩ after = some a) :
    ∃ cs rest, ahead = cs ++ rest ∧ (∀ c ∈ cs, accepts c = true) ∧
      after ⟨between (cs.reverse ++ before) rest, marks⟩ = some a := by
  rw [fewest1, fits_both] at h
  obtain ⟨c, _, rfl, hc, hrun⟩ := of_fits_one h
  obtain ⟨cs, rest, rfl, hcs, hafter⟩ := of_advance hrun
  exact ⟨c :: cs, rest, rfl, List.forall_mem_cons.2 ⟨hc, hcs⟩, by simpa using hafter⟩

theorem isSome_fits_fewest1 (hne : cs ≠ []) (hcs : ∀ c ∈ cs, accepts c = true)
    (h : (after ⟨between (cs.reverse ++ before) ahead, marks⟩).isSome = true) :
    ((fewest1 accepts).fits ⟨between before (cs ++ ahead), marks⟩ after).isSome = true := by
  cases cs with
  | nil => exact absurd rfl hne
  | cons c cs =>
    obtain ⟨hc, hcs⟩ := List.forall_mem_cons.1 hcs
    rw [fewest1, fits_both]
    refine isSome_fits_one hc (isSome_advance hcs ?_ (by simpa using h))
    simp [between]

theorem of_fits_chars (h : (seq (cs.map char)).fits ⟨between before ahead, marks⟩ after = some a) :
    ∃ rest, ahead = cs ++ rest ∧ after ⟨between (cs.reverse ++ before) rest, marks⟩ = some a := by
  induction cs generalizing before ahead with
  | nil => exact ⟨ahead, rfl, h⟩
  | cons c cs ih =>
    rw [List.map_cons, fits_seq_cons] at h
    obtain ⟨_, rfl, hmore⟩ := of_fits_char h
    obtain ⟨rest, rfl, hafter⟩ := ih hmore
    exact ⟨rest, rfl, by simpa using hafter⟩

theorem of_fits_word {s : String} (h : (word s).fits ⟨between before ahead, marks⟩ after = some a) :
    ∃ rest, ahead = s.toList ++ rest ∧
      after ⟨between (s.toList.reverse ++ before) rest, marks⟩ = some a :=
  of_fits_chars h

theorem isSome_fits_chars (h : (after ⟨between (cs.reverse ++ before) ahead, marks⟩).isSome = true) :
    ((seq (cs.map char)).fits ⟨between before (cs ++ ahead), marks⟩ after).isSome = true := by
  induction cs generalizing before with
  | nil => exact h
  | cons c cs ih =>
    rw [List.map_cons, fits_seq_cons]
    exact isSome_fits_char (ih (by simpa using h))

theorem isSome_fits_word {s : String}
    (h : (after ⟨between (s.toList.reverse ++ before) ahead, marks⟩).isSome = true) :
    ((word s).fits ⟨between before (s.toList ++ ahead), marks⟩ after).isSome = true :=
  isSome_fits_chars h

theorem of_fits_either (h : (either p q).fits r after = some a) :
    p.fits r after = some a ∨ q.fits r after = some a := by
  rw [fits] at h
  split at h
  next a' ha' => exact .inl (ha'.trans h)
  next => exact .inr h

theorem isSome_fits_left (h : (p.fits r after).isSome = true) :
    ((either p q).fits r after).isSome = true := by
  rw [fits]
  split
  next => rfl
  next hnone => simp [hnone] at h

theorem isSome_fits_right (h : (q.fits r after).isSome = true) :
    ((either p q).fits r after).isSome = true := by
  rw [fits]
  split
  · rfl
  · exact h

theorem of_fits_optional (h : (optional p).fits r after = some a) :
    p.fits r after = some a ∨ after r = some a :=
  of_fits_either h

theorem isSome_fits_absent (h : (after r).isSome = true) :
    ((optional p).fits r after).isSome = true :=
  isSome_fits_right h

theorem of_fits_oneOf {ps : List Pattern} (hne : ps ≠ []) (h : (oneOf ps).fits r after = some a) :
    ∃ p ∈ ps, p.fits r after = some a := by
  induction ps with
  | nil => exact absurd rfl hne
  | cons p ps ih =>
    cases ps with
    | nil => exact ⟨p, List.mem_singleton_self p, h⟩
    | cons q ps =>
      rcases of_fits_either h with h | h
      · exact ⟨p, List.mem_cons_self, h⟩
      · obtain ⟨p', hmem, hfits⟩ := ih (List.cons_ne_nil _ _) h
        exact ⟨p', List.mem_cons_of_mem _ hmem, hfits⟩

theorem isSome_fits_oneOf {ps : List Pattern} (hmem : p ∈ ps) (h : (p.fits r after).isSome = true) :
    ((oneOf ps).fits r after).isSome = true := by
  induction ps with
  | nil => exact absurd hmem List.not_mem_nil
  | cons q ps ih =>
    cases ps with
    | nil => rwa [← List.mem_singleton.1 hmem]
    | cons q' ps =>
      rcases List.mem_cons.1 hmem with rfl | hmem
      · exact isSome_fits_left h
      · exact isSome_fits_right (ih hmem)

theorem of_fits_wordEdge (h : wordEdge.fits r after = some a) : after r = some a :=
  (Option.ite_none_right_eq_some.1 h).2

theorem isSome_fits_wordEdge (hedge : r.place.atWordEdge = true) (h : (after r).isSome = true) :
    (wordEdge.fits r after).isSome = true := by
  rwa [fits, if_pos hedge]

/-- **Whatever a pattern is, it leads from one such place to another.** -/
theorem exists_between_of_fits (h : p.fits ⟨between before ahead, marks⟩ after = some a) :
    ∃ cs rest marks', ahead = cs ++ rest ∧
      after ⟨between (cs.reverse ++ before) rest, marks'⟩ = some a := by
  induction p generalizing before ahead marks after a with
  | nothing => exact ⟨[], ahead, marks, rfl, h⟩
  | one accepts =>
    obtain ⟨c, rest, rfl, -, hafter⟩ := of_fits_one h
    exact ⟨[c], rest, marks, rfl, hafter⟩
  | run accepts =>
    obtain ⟨cs, rest, rfl, -, hafter⟩ := of_fits_run h
    exact ⟨cs, rest, marks, rfl, hafter⟩
  | fewest accepts =>
    obtain ⟨cs, rest, rfl, -, hafter⟩ := of_advance h
    exact ⟨cs, rest, marks, rfl, hafter⟩
  | both p q ihp ihq =>
    obtain ⟨cs, _, _, rfl, hq⟩ := ihp h
    obtain ⟨ds, rest, marks', rfl, hafter⟩ := ihq hq
    exact ⟨cs ++ ds, rest, marks', by simp, by simpa using hafter⟩
  | either p q ihp ihq => exact (of_fits_either h).elim ihp ihq
  | many p ih =>
    have hrepeated {bound : Nat} {before ahead : List Char} {marks : List (Nat × Span)}
        (h : repeated p.fits after bound ⟨between before ahead, marks⟩ = some a) :
        ∃ cs rest marks', ahead = cs ++ rest ∧
          after ⟨between (cs.reverse ++ before) rest, marks'⟩ = some a := by
      induction bound generalizing before ahead marks with
      | zero => exact ⟨[], ahead, marks, rfl, h⟩
      | succ bound ihbound =>
        rw [repeated] at h
        split at h
        next a' ha' =>
          obtain ⟨cs, _, _, rfl, hstep⟩ := ih ha'
          obtain ⟨-, hstep⟩ := Option.ite_none_right_eq_some.1 hstep
          obtain ⟨ds, rest, marks', rfl, hafter⟩ := ihbound (hstep.trans h)
          exact ⟨cs ++ ds, rest, marks', by simp, by simpa using hafter⟩
        next => exact ⟨[], ahead, marks, rfl, h⟩
    exact hrepeated h
  | mark group p ih =>
    obtain ⟨cs, rest, marks', rfl, hafter⟩ := ih h
    exact ⟨cs, rest, _, rfl, hafter⟩
  | wordEdge => exact ⟨[], ahead, marks, rfl, of_fits_wordEdge h⟩
  | lineStart => exact ⟨[], ahead, marks, rfl, (Option.ite_none_right_eq_some.1 h).2⟩
  | textStart => exact ⟨[], ahead, marks, rfl, (Option.ite_none_right_eq_some.1 h).2⟩

end Fits

/-! ## The search -/

section Scan

variable {p : Pattern} {before ahead cs ds rest : List Char} {m : Match} {stop : Place}
  {accepts stops : Char → Bool}

/-- The matches from a place on. -/
def scan (p : Pattern) (before ahead : List Char) : List Match :=
  p.matchesFrom (ahead.length + 1) (between before ahead) []

theorem findAll_eq_scan (p : Pattern) (text : List Char) : p.findAll text = p.scan [] text := rfl

/-- A match ends at such a place, too. -/
theorem exists_between_of_matchAt? (h : p.matchAt? (between before ahead) = some (m, stop)) :
    ∃ cs rest, ahead = cs ++ rest ∧ stop = between (cs.reverse ++ before) rest := by
  obtain ⟨cs, rest, marks, rfl, hsome⟩ := exists_between_of_fits h
  exact ⟨cs, rest, rfl, ((Prod.mk.inj (Option.some_inj.1 hsome)).2).symm⟩

/-- A match begins where it is looked for. -/
theorem start_of_matchAt? (h : p.matchAt? (between before ahead) = some (m, stop)) :
    m.whole.start = before.length := by
  obtain ⟨cs, rest, marks, rfl, hsome⟩ := exists_between_of_fits h
  rw [← (Prod.mk.inj (Option.some_inj.1 hsome)).1]
  rfl

/-- Any bound that the text is shorter than will do. -/
theorem matchesFrom_between (p : Pattern) (before ahead : List Char) (found : List Match)
    {bound bound' : Nat} (h : ahead.length < bound) (h' : ahead.length < bound') :
    p.matchesFrom bound (between before ahead) found =
      found.reverse ++ p.matchesFrom bound' (between before ahead) [] := by
  induction hn : ahead.length using Nat.strong_induction_on
    generalizing before ahead found bound bound' with
  | _ n ih =>
    subst hn
    obtain ⟨bound, rfl⟩ := Nat.exists_eq_add_of_le' (Nat.one_le_of_lt h)
    obtain ⟨bound', rfl⟩ := Nat.exists_eq_add_of_le' (Nat.one_le_of_lt h')
    -- where the search goes on there is less ahead, and both bounds will still do
    have hon {before' ahead' : List Char} (hlt : ahead'.length < ahead.length)
        (found' : List Match) :
        p.matchesFrom bound (between before' ahead') (found' ++ found) =
          found.reverse ++ p.matchesFrom bound' (between before' ahead') found' := by
      rw [ih _ hlt before' ahead' (found' ++ found) (by omega) (Nat.lt_succ_self _) rfl,
        ih _ hlt before' ahead' found' (by omega) (Nat.lt_succ_self _) rfl]
      simp
    rw [matchesFrom, matchesFrom]
    split
    next m stop hm =>
      obtain ⟨cs, rest, rfl, rfl⟩ := exists_between_of_matchAt? hm
      by_cases hcs : cs = []
      · have hnot : ¬ (between before (cs ++ rest)).offset <
            (between (cs.reverse ++ before) rest).offset :=
          mt Place.offset_lt_iff.1 (not_not_intro hcs)
        rw [if_neg hnot, if_neg hnot]
        subst hcs
        cases rest with
        | nil => simp [between]
        | cons c rest => exact hon (Nat.lt_succ_self _) [m]
      · rw [if_pos (Place.offset_lt_iff.2 hcs), if_pos (Place.offset_lt_iff.2 hcs)]
        have hlength : 0 < cs.length := List.length_pos_iff.2 hcs
        exact hon (by rw [List.length_append]; omega) [m]
    next =>
      cases ahead with
      | nil => simp [between]
      | cons c rest => exact hon (Nat.lt_succ_self _) []

theorem scan_nil (h : p.matchAt? (between before []) = none) : p.scan before [] = [] := by
  rw [scan, matchesFrom, h]
  rfl

/-- Where the pattern does not fit, the search goes on at the next place. -/
theorem scan_cons {c : Char} (h : p.matchAt? (between before (c :: rest)) = none) :
    p.scan before (c :: rest) = p.scan (c :: before) rest := by
  rw [scan, matchesFrom, h]
  exact matchesFrom_between p (c :: before) rest [] (Nat.lt_succ_self _) (Nat.lt_succ_self _)

/-- Where the pattern fits nowhere, nothing is found. -/
theorem scan_eq_nil (h : ∀ front back, ahead = front ++ back →
    p.matchAt? (between (front.reverse ++ before) back) = none) : p.scan before ahead = [] := by
  induction ahead generalizing before with
  | nil => exact scan_nil (h [] [] rfl)
  | cons c rest ih =>
    have hnone : p.matchAt? (between before (c :: rest)) = none := h [] (c :: rest) rfl
    rw [scan_cons hnone]
    refine ih fun front back heq ↦ ?_
    simpa using h (c :: front) back (congrArg _ heq)

/-- Where the pattern fits, the search goes on at the end of the match. -/
theorem scan_of_matchAt? (hne : cs ≠ [])
    (h : p.matchAt? (between before (cs ++ rest)) = some (m, between (cs.reverse ++ before) rest)) :
    p.scan before (cs ++ rest) = m :: p.scan (cs.reverse ++ before) rest := by
  have hlength : 0 < cs.length := List.length_pos_iff.2 hne
  rw [scan, matchesFrom, h]
  simp only
  rw [if_pos (Place.offset_lt_iff.2 hne)]
  refine matchesFrom_between p _ rest [m] ?_ (Nat.lt_succ_self _)
  rw [List.length_append]
  omega

/-- A match that ends where a piece of the text does covers the piece. -/
theorem scan_eq_cons (hne : cs ≠ []) (h : p.matchAt? (between before (cs ++ rest)) = some (m, stop))
    (hstop : stop.ahead = rest) :
    p.scan before (cs ++ rest) = m :: p.scan (cs.reverse ++ before) rest := by
  obtain ⟨cs', rest', heq, rfl⟩ := exists_between_of_matchAt? h
  obtain rfl : rest' = rest := hstop
  obtain rfl : cs = cs' := List.append_cancel_right heq
  exact scan_of_matchAt? hne h

/-- A piece where the pattern fits, and never but at the whole of it, is covered by one match. -/
theorem exists_scan_eq_cons {Q : Match → Prop} (hne : cs ≠ [])
    (hsome : (p.matchAt? (between before (cs ++ rest))).isSome = true)
    (h : ∀ m stop, p.matchAt? (between before (cs ++ rest)) = some (m, stop) →
      stop.ahead = rest ∧ Q m) :
    ∃ m, Q m ∧ p.scan before (cs ++ rest) = m :: p.scan (cs.reverse ++ before) rest := by
  obtain ⟨⟨m, stop⟩, hmatch⟩ := Option.isSome_iff_exists.1 hsome
  obtain ⟨hstop, hm⟩ := h m stop hmatch
  exact ⟨m, hm, scan_eq_cons hne hmatch hstop⟩

/-- Where the pattern does not fit, the search goes on: so it is enough to know what is reported from
behind a piece on, and from each of its places where the pattern fits. -/
theorem flatMap_scan_of_forall_suffix {β : Type} {report : Match → List β} {out : List β}
    (hrest : (p.scan (cs.reverse ++ before) rest).flatMap report = out)
    (h : ∀ front back m stop, cs = front ++ back → back ≠ [] →
      p.matchAt? (between (front.reverse ++ before) (back ++ rest)) = some (m, stop) →
      (p.scan (front.reverse ++ before) (back ++ rest)).flatMap report = out) :
    (p.scan before (cs ++ rest)).flatMap report = out := by
  induction cs generalizing before with
  | nil => exact hrest
  | cons c cs ih =>
    cases hmatch : p.matchAt? (between before (c :: cs ++ rest)) with
    | some found =>
      exact h [] (c :: cs) found.1 found.2 rfl (List.cons_ne_nil _ _) hmatch
    | none =>
      rw [List.cons_append] at hmatch ⊢
      rw [scan_cons hmatch]
      refine ih (by simpa using hrest) fun front back m stop heq hne hfits ↦ ?_
      have hback := h (c :: front) back m stop (congrArg _ heq) hne
      rw [List.reverse_cons, List.append_assoc] at hback
      exact hback hfits

/-! ## What the search skips -/

/-- The search for the pattern finds nothing that begins in these characters. -/
def Skips (p : Pattern) (cs rest : List Char) : Prop :=
  ∀ before, p.scan before (cs ++ rest) = p.scan (cs.reverse ++ before) rest

theorem Skips.append (h : p.Skips cs (ds ++ rest)) (h' : p.Skips ds rest) :
    p.Skips (cs ++ ds) rest := by
  intro before
  rw [List.append_assoc, h, h', List.reverse_append, List.append_assoc]

/-- A piece is skipped where the pattern fits at none of its places. -/
theorem skips_of_forall_suffix
    (h : ∀ front back before, cs = front ++ back → back ≠ [] →
      p.matchAt? (between before (back ++ rest)) = none) : p.Skips cs rest := by
  intro before
  induction cs generalizing before with
  | nil => rfl
  | cons c cs ih =>
    have hcs : ∀ front back before, cs = front ++ back → back ≠ [] →
        p.matchAt? (between before (back ++ rest)) = none := by
      rintro front back before rfl hne
      exact h (c :: front) back before rfl hne
    have hnone := h [] (c :: cs) before rfl (List.cons_ne_nil _ _)
    rw [List.cons_append] at hnone ⊢
    rw [scan_cons hnone, ih hcs, List.reverse_cons, List.append_assoc]
    rfl

/-- Where the pattern fits, the text goes on with a character of the class. -/
def Opens (p : Pattern) (accepts : Char → Bool) : Prop :=
  ∀ before ahead, (p.matchAt? (between before ahead)).isSome = true → ahead.head?.any accepts = true

theorem Opens.scan_nil (h : p.Opens accepts) (before : List Char) : p.scan before [] = [] := by
  refine Pattern.scan_nil ?_
  by_contra hsome
  have hopens := h before [] (Option.isSome_iff_ne_none.2 hsome)
  simp at hopens

/-- Where all of the text is skipped, nothing is found. -/
theorem Opens.findAll_eq_nil (h : p.Opens accepts) (hskips : p.Skips cs []) : p.findAll cs = [] := by
  have hscan := hskips []
  rwa [List.append_nil, ← findAll_eq_scan, h.scan_nil] at hscan

/-- Where all of the text but one match is skipped, only the match is found. -/
theorem Opens.findAll_eq_singleton (h : p.Opens accepts) (hfront : p.Skips ds (cs ++ rest))
    (hscan : p.scan ds.reverse (cs ++ rest) = m :: p.scan (cs.reverse ++ ds.reverse) rest)
    (hrest : p.Skips rest []) : p.findAll (ds ++ (cs ++ rest)) = [m] := by
  have hbehind := hrest (cs.reverse ++ ds.reverse)
  rw [List.append_nil, h.scan_nil] at hbehind
  rw [findAll_eq_scan, hfront, List.append_nil, hscan, hbehind]

/-- A pattern that begins with a character opens with it. -/
theorem opens_both_char (c : Char) (q : Pattern) : (both (char c) q).Opens (· == c) := by
  intro before ahead h
  obtain ⟨found, hfound⟩ := Option.isSome_iff_exists.1 h
  rw [matchAt?, fits_both] at hfound
  obtain ⟨rest, rfl, -⟩ := of_fits_char hfound
  exact beq_self_eq_true c

/-- Characters that the pattern does not open with are skipped. -/
theorem Opens.skips (h : p.Opens accepts) (hcs : ∀ c ∈ cs, accepts c = false) :
    p.Skips cs rest := by
  refine skips_of_forall_suffix fun front back before heq hne ↦ ?_
  by_contra hsome
  have hopens := h before (back ++ rest) (Option.isSome_iff_ne_none.2 hsome)
  obtain ⟨c, back, rfl⟩ := List.exists_cons_of_ne_nil hne
  have hc : accepts c = false := hcs c (heq ▸ List.mem_append_right _ List.mem_cons_self)
  simp [hc] at hopens

/-- Where the pattern fits, the first character outside the class is a stop. -/
def Halts (p : Pattern) (accepts stops : Char → Bool) : Prop :=
  ∀ before ahead, (p.matchAt? (between before ahead)).isSome = true →
    (ahead.find? fun c ↦ !accepts c).any stops = true

/-- The first character outside a class lies behind those of the class. -/
theorem find?_append_of_accepts (hcs : ∀ c ∈ cs, accepts c = true) :
    ((cs ++ rest).find? fun c ↦ !accepts c) = rest.find? fun c ↦ !accepts c := by
  have hnone : (cs.find? fun c ↦ !accepts c) = none :=
    List.find?_eq_none.2 fun c hc ↦ by simp [hcs c hc]
  rw [List.find?_append, hnone, Option.none_or]

/-- A piece that ends outside the class and has no stop in it is skipped. -/
theorem Halts.skips (h : p.Halts accepts stops) {last : Char} (hlast : accepts last = false)
    (hcs : ∀ c ∈ cs ++ [last], stops c = false) : p.Skips (cs ++ [last]) rest := by
  refine skips_of_forall_suffix fun front back before heq hne ↦ ?_
  by_contra hsome
  have hhalts := h before (back ++ rest) (Option.isSome_iff_ne_none.2 hsome)
  have hmem : last ∈ back := by
    have hgetLast := congrArg List.getLast? heq
    rw [List.getLast?_concat, List.getLast?_append_of_ne_nil _ hne] at hgetLast
    exact List.mem_of_getLast? hgetLast.symm
  obtain ⟨c, hc⟩ : ∃ c, back.find? (fun c ↦ !accepts c) = some c :=
    Option.isSome_iff_exists.1 (List.find?_isSome.2 ⟨last, hmem, by simp [hlast]⟩)
  rw [List.find?_append, hc] at hhalts
  have hstop := hcs c (heq ▸ List.mem_append_right _ (List.mem_of_find?_eq_some hc))
  simp [hstop] at hhalts

end Scan

end Pattern

end ChangeContext
