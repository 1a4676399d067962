import ChangeContext.Proofs.Diff.Stretch

/-!
# How hunks divide two texts

Where two texts differ there is a hunk, and just one.  The hunks come one after the other, each opens
at a changed line, and each goes on until it holds more than five lines the last three of which are
unchanged — no further, and no less far unless the texts are at their end (`divides_hunks`).

This is proved of the stretches that the steps fall into.  `Cuts` says of a list of stretches that
they divide steps in this way.  Its four lemmas follow the four things that can happen at a step: there
is none left, with or without a stretch that is going on, an unchanged line passes by, or a stretch
comes to its end.  What a stretch has to keep while it is going on is `Stretch.Growing`: none of its
beginnings could have been closed.
-/

set_option autoImplicit false

namespace ChangeContext

namespace Diff

/-- One of the lines of the hunk has this number, in the old text or in the new one. -/
def Hunk.Covers (h : Hunk) (n : Nat) : Prop :=
  ∃ l ∈ h.lines, l.old? = some n ∨ l.new? = some n

instance (h : Hunk) (n : Nat) : Decidable (h.Covers n) :=
  inferInstanceAs (Decidable (∃ l ∈ h.lines, l.old? = some n ∨ l.new? = some n))

/-- There are more than five lines, and the last three of them are unchanged. -/
def Line.Settled (ls : List Line) : Prop :=
  5 < ls.length ∧ ∀ l ∈ ls.drop (ls.length - 3), l.kind = .unchanged

/-- The hunks divide two texts: each place where the texts differ lies in one of them, and each of
them begins at a change and ends as soon as it is settled. -/
structure Divides (old new : String) (hunks : List Hunk) : Prop where
  /-- A line that differs, or that only one of the texts has, lies in exactly one hunk. -/
  covered : ∀ k, (Text.pieces old)[k]? ≠ (Text.pieces new)[k]? →
    ∃ h, hunks.filter (·.Covers (k + 1)) = [h]
  /-- Outside the hunks both texts have the same lines. -/
  same : ∀ k, (∀ h ∈ hunks, ¬ h.Covers (k + 1)) → (Text.pieces old)[k]? = (Text.pieces new)[k]?
  /-- All lines of a hunk come before all lines of the next. -/
  ascending : hunks.Pairwise fun h h' ↦ ∀ n m, h.Covers n → h'.Covers m → n < m
  /-- A hunk begins with a changed line. -/
  begins : ∀ h ∈ hunks, ∃ l rest, h.lines = l :: rest ∧ l.kind ≠ .unchanged
  /-- A hunk could not have been closed earlier. -/
  earliest : ∀ h ∈ hunks, ∀ front, front <+: h.lines → front ≠ h.lines → ¬ Line.Settled front
  /-- A hunk is settled, or it is the last one and goes on to the end of both texts. -/
  ends : ∀ h ∈ hunks, Line.Settled h.lines ∨
    hunks.getLast? = some h ∧ ∀ n m, h.Covers n → n ≤ m →
      m ≤ max (Text.pieces old).length (Text.pieces new).length → h.Covers m

/-! ## Lines that could be closed -/

namespace Line

/-- Neither these lines nor any lines that they begin with are settled. -/
def Unsettled (ls : List Line) : Prop :=
  ∀ front, front <+: ls → ¬ Settled front

variable {ls : List Line} {l : Line}

theorem unsettled_nil : Unsettled [] := by
  intro front hfront hsettled
  rw [List.prefix_nil.1 hfront] at hsettled
  exact absurd hsettled.1 (by simp)

theorem unsettled_append_singleton (h : Unsettled ls) (hl : ¬ Settled (ls ++ [l])) :
    Unsettled (ls ++ [l]) := by
  intro front hfront
  rcases List.prefix_concat_iff.1 hfront with rfl | hfront
  · exact hl
  · exact h front hfront

/-- Lines of which the last is not unchanged are not settled. -/
theorem not_settled_append_singleton (h : l.kind ≠ .unchanged) : ¬ Settled (ls ++ [l]) := by
  rintro ⟨hlength, hkinds⟩
  refine h (hkinds l ?_)
  have hle : (ls ++ [l]).length - 3 ≤ ls.length := by
    rw [List.length_append, List.length_singleton]
    omega
  rw [List.drop_append_of_le_length hle]
  simp

end Line

/-! ## Stretches that are going on -/

namespace Step

variable {s : Step}

/-- A step has a line at its own position and at no other. -/
theorem exists_mem_lines_iff (s : Step) (n k : Nat) :
    (∃ l ∈ s.lines n, l.old? = some k ∨ l.new? = some k) ↔ k = n := by
  cases s <;> simp [lines, Line.unchanged, Line.removed, Line.added, eq_comm]

theorem exists_mem_linesFrom_iff (n k : Nat) (ss : List Step) :
    (∃ l ∈ linesFrom n ss, l.old? = some k ∨ l.new? = some k) ↔ n ≤ k ∧ k < n + ss.length := by
  induction ss generalizing n with
  | nil =>
    simp only [linesFrom, List.not_mem_nil, false_and, exists_false, List.length_nil, false_iff]
    omega
  | cons s ss ih =>
    simp only [linesFrom, List.mem_append, or_and_right, exists_or, exists_mem_lines_iff, ih,
      List.length_cons]
    omega

/-- A step that changes something begins with a changed line. -/
theorem exists_lines_of_not_kept (h : s.isKept = false) (n : Nat) :
    ∃ l rest, s.lines n = l :: rest ∧ l.kind ≠ .unchanged := by
  cases s with
  | kept c => simp [isKept] at h
  | _ => exact ⟨_, _, rfl, by simp [Line.removed, Line.added]⟩

/-- A step that keeps a line has only this line. -/
theorem exists_lines_of_kept (h : s.isKept = true) (n : Nat) : ∃ l, s.lines n = [l] := by
  cases s with
  | kept c => exact ⟨_, rfl⟩
  | _ => simp [isKept] at h

/-- The lines of a step that changes something settle nothing. -/
theorem unsettled_append_lines {ls : List Line} (hls : Line.Unsettled ls) (h : s.isKept = false)
    (n : Nat) : Line.Unsettled (ls ++ s.lines n) := by
  have hpush {ls : List Line} (hls : Line.Unsettled ls) {l : Line} (hl : l.kind ≠ .unchanged) :
      Line.Unsettled (ls ++ [l]) :=
    Line.unsettled_append_singleton hls (Line.not_settled_append_singleton hl)
  cases s with
  | kept c => simp [isKept] at h
  | changed a b =>
    have hboth := hpush (hpush hls (l := .removed a n) (by simp [Line.removed]))
      (l := .added b n) (by simp [Line.added])
    rwa [List.append_assoc] at hboth
  | removed a => exact hpush hls (by simp [Line.removed])
  | added b => exact hpush hls (by simp [Line.added])

end Step

namespace Stretch

variable {d : Stretch} {s : Step}

/-- The stretch begins with a step that changes something. -/
def Begun (d : Stretch) : Prop :=
  ∃ s rest, d.steps = s :: rest ∧ s.isKept = false

/-- The stretch begins with a change and could not have been closed so far. -/
structure Growing (d : Stretch) : Prop where
  begun : d.Begun
  unsettled : Line.Unsettled d.lines

theorem covers_hunk_iff (d : Stretch) (n : Nat) : d.hunk.Covers n ↔ d.start ≤ n ∧ n < d.next :=
  Step.exists_mem_linesFrom_iff d.start n d.steps

/-- The open hunk closes just if its lines are settled. -/
theorem isComplete_iff (d : Stretch) : d.draft.isComplete = true ↔ Line.Settled d.lines := by
  rw [Hunk.Draft.isComplete, draft, List.take_reverse, List.all_reverse, List.length_reverse,
    Bool.and_eq_true, List.all_eq_true, decide_eq_true_eq, and_comm, Line.Settled]
  simp only [beq_iff_eq]
  rfl

theorem Begun.push (h : d.Begun) (s : Step) : (d.push s).Begun := by
  obtain ⟨s', rest, hsteps, hs'⟩ := h
  exact ⟨s', rest ++ [s], by rw [Stretch.push, hsteps, List.cons_append], hs'⟩

theorem Begun.exists_lines (h : d.Begun) :
    ∃ l rest, d.lines = l :: rest ∧ l.kind ≠ .unchanged := by
  obtain ⟨s, rest, hsteps, hs⟩ := h
  obtain ⟨l, more, hlines, hl⟩ := Step.exists_lines_of_not_kept hs d.start
  exact ⟨l, more ++ Step.linesFrom (d.start + 1) rest,
    by rw [lines, hsteps, Step.linesFrom, hlines, List.cons_append], hl⟩

/-- A change lets a stretch grow, and begins one where none is going on. -/
theorem growing_push_getD {current : Option Stretch} (h : ∀ d ∈ current, d.Growing)
    (hs : s.isKept = false) (n : Nat) : ((current.getD ⟨n, []⟩).push s).Growing := by
  constructor
  · cases current with
    | none => exact ⟨s, [], rfl, hs⟩
    | some d => exact (h d rfl).begun.push s
  · rw [lines_push]
    refine Step.unsettled_append_lines ?_ hs _
    cases current with
    | none => exact Line.unsettled_nil
    | some d => exact (h d rfl).unsettled

/-- After an unchanged line, a stretch goes on growing if it does not close. -/
theorem Growing.push_kept (h : d.Growing) (hs : s.isKept = true)
    (hopen : ¬ Line.Settled (d.push s).lines) : (d.push s).Growing := by
  refine ⟨h.begun.push s, ?_⟩
  obtain ⟨l, hl⟩ := Step.exists_lines_of_kept hs d.next
  rw [lines_push, hl] at hopen ⊢
  exact Line.unsettled_append_singleton h.unsettled hopen

/-- A stretch that an unchanged line closes could not have been closed before this line. -/
theorem Growing.earliest_push_kept (h : d.Growing) (hs : s.isKept = true) {front : List Line}
    (hfront : front <+: (d.push s).lines) (hne : front ≠ (d.push s).lines) :
    ¬ Line.Settled front := by
  obtain ⟨l, hl⟩ := Step.exists_lines_of_kept hs d.next
  rw [lines_push, hl] at hfront hne
  exact h.unsettled front ((List.prefix_concat_iff.1 hfront).resolve_left hne)

end Stretch

/-! ## Stretches that divide steps -/

/-- These stretches divide steps, the first of which is at position `start`. -/
structure Cuts (start : Nat) (ss : List Step) (ds : List Stretch) : Prop where
  /-- The stretches lie among the steps. -/
  within : ∀ d ∈ ds, start ≤ d.start ∧ d.next ≤ start + ss.length
  ascending : ds.Pairwise fun d d' ↦ d.next ≤ d'.start
  /-- A step that changes something lies in a stretch. -/
  covered : ∀ i s, ss[i]? = some s → s.isKept = false →
    ∃ d ∈ ds, d.start ≤ start + i ∧ start + i < d.next
  begun : ∀ d ∈ ds, d.Begun
  earliest : ∀ d ∈ ds, ∀ front, front <+: d.lines → front ≠ d.lines → ¬ Line.Settled front
  ends : ∀ d ∈ ds, Line.Settled d.lines ∨ ds.getLast? = some d ∧ d.next = start + ss.length

namespace Cuts

variable {start : Nat} {ss : List Step} {ds : List Stretch} {d : Stretch} {s : Step}

theorem nil (start : Nat) : Cuts start [] [] :=
  ⟨by simp, .nil, by simp, by simp, by simp, by simp⟩

/-- A stretch that is going on at the end of the steps is the last one. -/
theorem last (h : d.Growing) : Cuts d.start d.steps [d] where
  within := by simp [Stretch.next]
  ascending := List.pairwise_singleton ..
  covered i s hi _ := by
    have hlt := (List.getElem?_eq_some_iff.1 hi).1
    exact ⟨d, List.mem_singleton_self d, Nat.le_add_right .., Nat.add_lt_add_left hlt d.start⟩
  begun := by simpa using h.begun
  earliest := by simpa using fun front hfront _ ↦ h.unsettled front hfront
  ends := by simp [Stretch.next]

/-- An unchanged line passes by. -/
theorem skip (h : Cuts (start + 1) ss ds) (hs : s.isKept = true) : Cuts start (s :: ss) ds where
  within d hd := by
    have := h.within d hd
    rw [List.length_cons]
    omega
  ascending := h.ascending
  covered i s' hi hs' := by
    cases i with
    | zero =>
      obtain rfl : s = s' := by simpa using hi
      simp [hs] at hs'
    | succ i =>
      obtain ⟨d, hd, hle, hlt⟩ := h.covered i s' (by simpa using hi) hs'
      exact ⟨d, hd, by omega, by omega⟩
  begun := h.begun
  earliest := h.earliest
  ends d hd := by
    refine (h.ends d hd).imp_right fun ⟨hlast, hnext⟩ ↦ ⟨hlast, ?_⟩
    rw [hnext, List.length_cons]
    omega

/-- A stretch comes to its end, and the division goes on behind it. -/
theorem cons (h : Cuts d.next ss ds) (hbegun : d.Begun) (hsettled : Line.Settled d.lines)
    (hearliest : ∀ front, front <+: d.lines → front ≠ d.lines → ¬ Line.Settled front) :
    Cuts d.start (d.steps ++ ss) (d :: ds) := by
  have hlength : d.start + (d.steps ++ ss).length = d.next + ss.length := by
    rw [List.length_append, Stretch.next, Nat.add_assoc]
  have hle : d.start ≤ d.next := Nat.le_add_right ..
  refine ⟨?_, ?_, ?_, ?_, ?_, ?_⟩
  · rw [hlength]
    refine List.forall_mem_cons.2 ⟨⟨Nat.le_refl _, Nat.le_add_right ..⟩, fun d' hd' ↦ ?_⟩
    exact ⟨Nat.le_trans hle (h.within d' hd').1, (h.within d' hd').2⟩
  · exact List.pairwise_cons.2 ⟨fun d' hd' ↦ (h.within d' hd').1, h.ascending⟩
  · intro i s hi hs
    by_cases hlt : i < d.steps.length
    · exact ⟨d, List.mem_cons_self, Nat.le_add_right .., Nat.add_lt_add_left hlt d.start⟩
    · rw [List.getElem?_append_right (Nat.not_lt.1 hlt)] at hi
      obtain ⟨d', hd', hle', hlt'⟩ := h.covered _ s hi hs
      have hplace : d.next + (i - d.steps.length) = d.start + i := by
        rw [Stretch.next]
        omega
      rw [hplace] at hle' hlt'
      exact ⟨d', List.mem_cons_of_mem _ hd', hle', hlt'⟩
  · exact List.forall_mem_cons.2 ⟨hbegun, h.begun⟩
  · exact List.forall_mem_cons.2 ⟨hearliest, h.earliest⟩
  · rw [hlength]
    refine List.forall_mem_cons.2 ⟨.inl hsettled, fun d' hd' ↦ ?_⟩
    rcases h.ends d' hd' with hend | ⟨hlast, hnext⟩
    · exact .inl hend
    · refine .inr ⟨?_, hnext⟩
      rw [List.getLast?_cons, hlast]
      rfl

end Cuts

/-- **The stretches divide the steps**, those of the stretch that is going on included. -/
theorem cuts_stretches {n : Nat} {current : Option Stretch}
    (hcurrent : ∀ d ∈ current, d.next = n ∧ d.Growing) (ss : List Step) :
    Cuts (current.getD ⟨n, []⟩).start ((current.getD ⟨n, []⟩).steps ++ ss)
      (stretches n current ss) := by
  fun_induction stretches n current ss with
  | case1 n current =>
    cases current with
    | none => exact Cuts.nil n
    | some d =>
      rw [List.append_nil]
      exact Cuts.last (hcurrent d rfl).2
  | case2 n s rest hkept ih => exact (ih (by simp)).skip hkept
  | case3 n s rest hkept d hcomplete ih =>
    obtain ⟨hnext, hgrowing⟩ := hcurrent d rfl
    have hrest : Cuts (d.push s).next rest (stretches (n + 1) none rest) := by
      rw [Stretch.next_push, hnext]
      exact ih (by simp)
    have hall := hrest.cons (hgrowing.begun.push s) ((Stretch.isComplete_iff _).1 hcomplete)
      fun _ ↦ hgrowing.earliest_push_kept hkept
    simpa [Stretch.push] using hall
  | case4 n s rest hkept d hcomplete ih =>
    obtain ⟨hnext, hgrowing⟩ := hcurrent d rfl
    have hopen : ¬ Line.Settled (d.push s).lines := fun h ↦
      hcomplete ((Stretch.isComplete_iff _).2 h)
    have hall := ih <| by
      simpa [hnext] using hgrowing.push_kept hkept hopen
    simpa [Stretch.push] using hall
  | case5 n current s rest hkept ih =>
    have hs : s.isKept = false := Bool.not_eq_true _ ▸ hkept
    have hgrowing := Stretch.growing_push_getD (fun d hd ↦ (hcurrent d hd).2) hs n
    have hnext := next_getD fun d hd ↦ (hcurrent d hd).1
    have hall := ih <| by
      simpa [hnext] using hgrowing
    simpa [Stretch.push] using hall

/-! ## The hunks of two texts -/

theorem length_steps (as bs : List String) : (steps as bs).length = max as.length bs.length := by
  fun_induction steps as bs with
  | case1 => rfl
  | case2 b bs ih => simp [ih]
  | case3 a as ih => simp [ih]
  | case4 a as b bs ih => simp [ih, Nat.succ_max_succ]

/-- Where two lists of lines differ, the step changes something. -/
theorem exists_step_of_ne {as bs : List String} {k : Nat} (h : as[k]? ≠ bs[k]?) :
    ∃ s, (steps as bs)[k]? = some s ∧ s.isKept = false := by
  fun_induction steps as bs generalizing k with
  | case1 => exact absurd rfl h
  | case2 b bs ih =>
    cases k with
    | zero => exact ⟨_, rfl, rfl⟩
    | succ k => exact ih (by simpa using h)
  | case3 a as ih =>
    cases k with
    | zero => exact ⟨_, rfl, rfl⟩
    | succ k => exact ih (by simpa using h)
  | case4 a as b bs ih =>
    cases k with
    | zero =>
      have hab : a ≠ b := by simpa using h
      exact ⟨_, rfl, by simp [hab, Step.isKept]⟩
    | succ k => exact ih (by simpa using h)

/-- If what satisfies a condition excludes one another, there is only one such thing in a list. -/
theorem filter_eq_singleton_of_pairwise {α : Type} {p : α → Bool} {l : List α} {a : α}
    (h : l.Pairwise fun b c ↦ p b = true → p c = false) (ha : a ∈ l) (hp : p a = true) :
    l.filter p = [a] := by
  have hmem : a ∈ l.filter p := List.mem_filter.2 ⟨ha, hp⟩
  have hpair := h.sublist (List.filter_sublist (p := p))
  match hl : l.filter p with
  | [] => simp [hl] at hmem
  | [b] =>
    rw [hl, List.mem_singleton] at hmem
    rw [hmem]
  | b :: c :: rest =>
    have hb : p b = true := List.of_mem_filter (hl ▸ List.mem_cons_self)
    have hc : p c = true := List.of_mem_filter (hl ▸ List.mem_cons_of_mem _ List.mem_cons_self)
    rw [hl] at hpair
    have := (List.pairwise_cons.1 hpair).1 c List.mem_cons_self hb
    simp [hc] at this

/-- **The hunks of two texts divide them.** -/
theorem divides_hunks (old new : String) : Divides old new (hunks old new) := by
  have hnone : ∀ d ∈ (none : Option Stretch), d.next = 1 ∧ d.Growing := by simp
  have hcuts : Cuts 1 (steps (Text.pieces old) (Text.pieces new)) (stretchesOf old new) :=
    cuts_stretches hnone _
  have hascending : (hunks old new).Pairwise fun h h' ↦ ∀ n m, h.Covers n → h'.Covers m → n < m := by
    rw [hunks_eq, List.pairwise_map]
    refine hcuts.ascending.imp fun {d d'} hle n m hn hm ↦ ?_
    have hn := (d.covers_hunk_iff n).1 hn
    have hm := (d'.covers_hunk_iff m).1 hm
    omega
  have hcovered (k : Nat) (hk : (Text.pieces old)[k]? ≠ (Text.pieces new)[k]?) :
      ∃ h ∈ hunks old new, h.Covers (k + 1) := by
    obtain ⟨s, hs, hkept⟩ := exists_step_of_ne hk
    obtain ⟨d, hd, hcovers⟩ := hcuts.covered k s hs hkept
    rw [Nat.add_comm 1 k] at hcovers
    rw [hunks_eq]
    exact ⟨d.hunk, List.mem_map_of_mem hd, (d.covers_hunk_iff _).2 hcovers⟩
  refine ⟨fun k hk ↦ ?_, fun k hk ↦ ?_, hascending, ?_, ?_, ?_⟩
  · obtain ⟨h, hmem, hcovers⟩ := hcovered k hk
    refine ⟨h, filter_eq_singleton_of_pairwise (hascending.imp fun {h h'} hlt hh ↦ ?_) hmem
      (decide_eq_true hcovers)⟩
    rw [decide_eq_false_iff_not]
    exact fun hh' ↦ Nat.lt_irrefl _ (hlt _ _ (of_decide_eq_true hh) hh')
  · by_contra hne
    obtain ⟨h, hmem, hcovers⟩ := hcovered k hne
    exact hk h hmem hcovers
  · rw [hunks_eq]
    exact List.forall_mem_map.2 fun d hd ↦ (hcuts.begun d hd).exists_lines
  · rw [hunks_eq]
    exact List.forall_mem_map.2 fun d hd ↦ hcuts.earliest d hd
  · rw [hunks_eq, List.forall_mem_map]
    intro d hd
    refine (hcuts.ends d hd).imp_right fun ⟨hlast, hnext⟩ ↦ ⟨?_, fun n m hn hle hm ↦ ?_⟩
    · rw [List.getLast?_map, hlast]
      rfl
    · have hn := (d.covers_hunk_iff n).1 hn
      rw [length_steps] at hnext
      exact (d.covers_hunk_iff m).2 (by omega)

end Diff

end ChangeContext
