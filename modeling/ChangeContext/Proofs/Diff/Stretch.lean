import ChangeContext.Diff.Counts
import Mathlib.Data.List.Basic

/-!
# Hunks as stretches of steps

Both texts are read in step, so all that happens at a position is one of four things: the line is
kept, it is changed, or only one of the texts goes on and its line is removed or added.  The hunks
are stretches of such steps (`hunks_eq`).  Whether a stretch goes on depends on how many lines its
steps have and on which of them are kept, and on nothing that the lines say; and a line's number is
the position of its step.

The steps are the place to look at when something is said about all hunks of two texts.  In
particular, a text that has come to its end does not go on, so no steps both remove and add lines at
the end (`oneSided_steps`), and a removed line that is followed by an added one is always a changed
line.
-/

set_option autoImplicit false

namespace ChangeContext

namespace Diff

/-- What happens at a position of two texts. -/
inductive Step where
  | kept (content : String)
  | changed (old new : String)
  | removed (content : String)
  | added (content : String)

namespace Step

/-- Both texts have the same line here. -/
def isKept : Step → Bool
  | kept _ => true
  | _ => false

/-- The texts have different lines here. -/
def isChanged : Step → Bool
  | changed _ _ => true
  | _ => false

/-- Only the old text has a line here. -/
def isRemoved : Step → Bool
  | removed _ => true
  | _ => false

/-- Only the new text has a line here. -/
def isAdded : Step → Bool
  | added _ => true
  | _ => false

/-- The lines that a hunk has for a step at position `n`. -/
def lines (n : Nat) : Step → List Line
  | kept c => [.unchanged c n]
  | changed a b => [.removed a n, .added b n]
  | removed a => [.removed a n]
  | added b => [.added b n]

/-- The lines of steps, the first of which is at position `n`. -/
def linesFrom (n : Nat) : List Step → List Line
  | [] => []
  | s :: rest => s.lines n ++ linesFrom (n + 1) rest

theorem linesFrom_append_singleton (n : Nat) (ss : List Step) (s : Step) :
    linesFrom n (ss ++ [s]) = linesFrom n ss ++ s.lines (n + ss.length) := by
  induction ss generalizing n with
  | nil => simp [linesFrom]
  | cons s' ss ih =>
    rw [List.cons_append, linesFrom, linesFrom, ih, List.append_assoc, List.length_cons,
      Nat.add_right_comm, Nat.add_assoc]

/-! ## One text goes on -/

/-- Not both texts go on past the end of the other. -/
def OneSided (ss : List Step) : Prop :=
  (∀ s ∈ ss, s.isRemoved = false) ∨ ∀ s ∈ ss, s.isAdded = false

theorem OneSided.mono {ss ss' : List Step} (h : OneSided ss) (hsub : ∀ s ∈ ss', s ∈ ss) :
    OneSided ss' :=
  h.imp (fun h s hs ↦ h s (hsub s hs)) (fun h s hs ↦ h s (hsub s hs))

theorem OneSided.tail {s : Step} {ss : List Step} (h : OneSided (s :: ss)) : OneSided ss :=
  h.mono fun _ hs ↦ List.mem_cons_of_mem _ hs

/-- No added line stands directly behind a removed one, unless both stand for a changed line. -/
theorem OneSided.head?_linesFrom {a : String} {ss : List Step} (h : OneSided (.removed a :: ss))
    (n : Nat) : ∀ l ∈ (linesFrom n ss).head?, l.kind ≠ .add := by
  cases ss with
  | nil => simp [linesFrom]
  | cons s ss =>
    rcases h with h | h
    · simpa [isRemoved] using h (.removed a) (List.mem_cons_self ..)
    · have hs := h s (by simp)
      cases s with
      | added b => simp [isAdded] at hs
      | _ => simp [linesFrom, lines, Line.unchanged, Line.removed]

end Step

/-! ## Counting -/

namespace Counts

/-- The counts of two lists of lines together. -/
protected def add (c d : Counts) : Counts where
  additions := c.additions + d.additions
  deletions := c.deletions + d.deletions
  modifications := c.modifications + d.modifications

instance : Add Counts := ⟨Counts.add⟩

theorem add_def (c d : Counts) :
    c + d = ⟨c.additions + d.additions, c.deletions + d.deletions,
      c.modifications + d.modifications⟩ := rfl

theorem add_assoc (c d e : Counts) : c + d + e = c + (d + e) := by
  simp only [add_def, Nat.add_assoc]

theorem tally_remove (c : Counts) {kinds : List LineKind} (h : kinds.head? ≠ some .add) :
    c.tally (.remove :: kinds) = tally { c with deletions := c.deletions + 1 } kinds := by
  rw [tally]
  rintro rest rfl
  exact h rfl

end Counts

namespace Step

/-- What steps count for. -/
def counts (ss : List Step) : Counts where
  additions := ss.countP isAdded
  deletions := ss.countP isRemoved
  modifications := ss.countP isChanged

theorem counts_append (ss ss' : List Step) : counts (ss ++ ss') = counts ss + counts ss' := by
  simp only [counts, List.countP_append, Counts.add_def]

/-- **The lines of steps are counted as the steps are.** -/
theorem tally_linesFrom (c : Counts) (n : Nat) {ss : List Step} (h : OneSided ss) :
    c.tally ((linesFrom n ss).map (·.kind)) = c + counts ss := by
  induction ss generalizing n c with
  | nil => rfl
  | cons s ss ih =>
    have hrest (c : Counts) := ih c (n + 1) h.tail
    have hcounts : c + counts (s :: ss) = c + counts [s] + counts ss := by
      rw [Counts.add_assoc, ← counts_append, List.singleton_append]
    rw [hcounts, linesFrom, List.map_append]
    cases s with
    | kept a => exact hrest c
    | changed a b => exact hrest _
    | removed a =>
      have hhead : ((linesFrom (n + 1) ss).map (·.kind)).head? ≠ some .add := by
        rw [List.head?_map, Ne, Option.map_eq_some_iff]
        rintro ⟨l, hl, hkind⟩
        exact h.head?_linesFrom (n + 1) l hl hkind
      exact (Counts.tally_remove c hhead).trans (hrest _)
    | added b => exact hrest _

end Step

/-- The steps from one list of lines to another. -/
def steps : List String → List String → List Step
  | [], [] => []
  | [], b :: bs => .added b :: steps [] bs
  | a :: as, [] => .removed a :: steps as []
  | a :: as, b :: bs => (if a = b then .kept a else .changed a b) :: steps as bs

/-- **Lines are removed at the end or added at the end, but not both.** -/
theorem oneSided_steps (as bs : List String) : Step.OneSided (steps as bs) := by
  fun_induction steps as bs with
  | case1 => exact .inl (by simp)
  | case2 b bs ih =>
    -- the old text has come to its end, so nothing is removed any more
    have hrest : ∀ bs : List String, ∀ s ∈ steps [] bs, s.isRemoved = false := by
      intro bs
      induction bs with
      | nil => simp [steps]
      | cons b bs ih => simpa [steps, Step.isRemoved] using ih
    exact .inl (by simpa [Step.isRemoved] using hrest bs)
  | case3 a as ih =>
    have hrest : ∀ as : List String, ∀ s ∈ steps as [], s.isAdded = false := by
      intro as
      induction as with
      | nil => simp [steps]
      | cons a as ih => simpa [steps, Step.isAdded] using ih
    exact .inr (by simpa [Step.isAdded] using hrest as)
  | case4 a as b bs ih =>
    refine ih.imp (fun ih ↦ ?_) (fun ih ↦ ?_)
    · refine List.forall_mem_cons.2 ⟨?_, ih⟩
      split <;> rfl
    · refine List.forall_mem_cons.2 ⟨?_, ih⟩
      split <;> rfl

/-- Steps that follow one another, the first of them at `start`. -/
structure Stretch where
  start : Nat
  steps : List Step

namespace Stretch

/-- The lines of the steps. -/
def lines (d : Stretch) : List Line :=
  Step.linesFrom d.start d.steps

/-- The position behind the stretch. -/
def next (d : Stretch) : Nat :=
  d.start + d.steps.length

/-- Go on by a step. -/
def push (d : Stretch) (s : Step) : Stretch :=
  { d with steps := d.steps ++ [s] }

/-- The open hunk of these steps. -/
def draft (d : Stretch) : Hunk.Draft :=
  ⟨d.start, d.lines.reverse⟩

/-- The finished hunk of these steps. -/
def hunk (d : Stretch) : Hunk :=
  Hunk.ofLines d.start d.lines

theorem mem_steps_push {d : Stretch} {s s' : Step} :
    s ∈ (d.push s').steps ↔ s ∈ d.steps ∨ s = s' := by
  simp [push]

@[simp] theorem next_push (d : Stretch) (s : Step) : (d.push s).next = d.next + 1 := by
  simp [next, push, Nat.add_assoc]

theorem lines_push (d : Stretch) (s : Step) : (d.push s).lines = d.lines ++ s.lines d.next :=
  Step.linesFrom_append_singleton ..

/-- The lines of a step are pushed one after the other. -/
theorem draft_push (d : Stretch) (s : Step) :
    (d.push s).draft = (s.lines d.next).foldl Hunk.Draft.push d.draft := by
  rw [draft, lines_push]
  cases s <;> simp [Step.lines, Hunk.Draft.push, draft, push]

@[simp] theorem close_draft (d : Stretch) : d.draft.close = d.hunk := by
  simp [draft, Hunk.Draft.close, hunk]

/-- The hunks of stretches are counted as their steps are. -/
theorem ofHunks_map_hunk {ds : List Stretch} (h : ∀ d ∈ ds, Step.OneSided d.steps) :
    Counts.ofHunks (ds.map hunk) = Step.counts (ds.flatMap steps) := by
  have hfold : ∀ c : Counts,
      (ds.map hunk).foldl (fun c h ↦ c.tally (h.lines.map (·.kind))) c =
        c + Step.counts (ds.flatMap steps) := by
    induction ds with
    | nil => exact fun c ↦ rfl
    | cons d ds ih =>
      intro c
      obtain ⟨hd, hds⟩ := List.forall_mem_cons.1 h
      have htally : c.tally (d.hunk.lines.map (·.kind)) = c + Step.counts d.steps :=
        Step.tally_linesFrom c d.start hd
      rw [List.map_cons, List.foldl_cons, ih hds, htally, Counts.add_assoc, ← Step.counts_append,
        List.flatMap_cons]
  rw [Counts.ofHunks, hfold]
  simp [Counts.add_def, Counts.none]

end Stretch

/-- The stretches that steps fall into: `current` is the one that is going on at position `n`. -/
def stretches (n : Nat) (current : Option Stretch) : List Step → List Stretch
  | [] => current.toList
  | s :: rest =>
    if s.isKept then
      match current with
      | none => stretches (n + 1) none rest
      | some d =>
        if (d.push s).draft.isComplete then d.push s :: stretches (n + 1) none rest
        else stretches (n + 1) (some (d.push s)) rest
    else stretches (n + 1) (some ((current.getD ⟨n, []⟩).push s)) rest

/-- A step that changes something goes into the stretch that is going on, or begins one. -/
theorem stretches_cons_of_not_kept {s : Step} (h : s.isKept = false) (n : Nat)
    (current : Option Stretch) (rest : List Step) :
    stretches n current (s :: rest) =
      stretches (n + 1) (some ((current.getD ⟨n, []⟩).push s)) rest := by
  rw [stretches.eq_def]
  simp [h]

/-- Only steps that are there are in a stretch. -/
theorem mem_of_mem_stretches {n : Nat} {current : Option Stretch} {ss : List Step} {d : Stretch}
    (hd : d ∈ stretches n current ss) {s : Step} (hs : s ∈ d.steps) :
    s ∈ ss ∨ ∃ d' ∈ current, s ∈ d'.steps := by
  fun_induction stretches n current ss with
  | case1 n current => exact .inr ⟨d, by simpa using hd, hs⟩
  | case2 n s' rest hkept ih =>
    rcases ih hd with hrest | ⟨_, hnone, -⟩
    · exact .inl (List.mem_cons_of_mem _ hrest)
    · simp at hnone
  | case3 n s' rest hkept d' hcomplete ih =>
    rcases List.mem_cons.1 hd with rfl | hd
    · rcases Stretch.mem_steps_push.1 hs with hs | rfl
      · exact .inr ⟨d', rfl, hs⟩
      · exact .inl List.mem_cons_self
    · rcases ih hd with hrest | ⟨_, hnone, -⟩
      · exact .inl (List.mem_cons_of_mem _ hrest)
      · simp at hnone
  | case4 n s' rest hkept d' hcomplete ih =>
    rcases ih hd with hrest | ⟨_, hsome, hs'⟩
    · exact .inl (List.mem_cons_of_mem _ hrest)
    · obtain rfl := Option.some_inj.1 hsome
      rcases Stretch.mem_steps_push.1 hs' with hs' | rfl
      · exact .inr ⟨d', rfl, hs'⟩
      · exact .inl List.mem_cons_self
  | case5 n current s' rest hkept ih =>
    rcases ih hd with hrest | ⟨_, hsome, hs'⟩
    · exact .inl (List.mem_cons_of_mem _ hrest)
    · obtain rfl := Option.some_inj.1 hsome
      rcases Stretch.mem_steps_push.1 hs' with hs' | rfl
      · cases current with
        | none => simp at hs'
        | some d' => exact .inr ⟨d', rfl, hs'⟩
      · exact .inl List.mem_cons_self

/-! ## The hunks of two texts -/

section Between

variable {n : Nat} {current : Option Stretch}

/-- The stretch that goes on at position `n`, or begins there, in the form in which hunks are
drafted. -/
theorem orOpen_draft (n : Nat) (current : Option Stretch) :
    Hunk.Draft.orOpen (current.map Stretch.draft) n = (current.getD ⟨n, []⟩).draft := by
  cases current <;> rfl

theorem next_getD (h : ∀ d ∈ current, d.next = n) : (current.getD ⟨n, []⟩).next = n := by
  cases current with
  | none => rfl
  | some d => exact h d rfl

theorem next_of_mem_push {d : Stretch} (hd : d.next = n) (s : Step) :
    ∀ d' ∈ some (d.push s), d'.next = n + 1 := by
  rintro d' hd'
  obtain rfl := Option.some_inj.1 hd'
  rw [Stretch.next_push, hd]

/-- The hunks from a place on are those of the stretches, the one that is going on included. -/
theorem between_eq (hcurrent : ∀ d ∈ current, d.next = n) (as bs : List String) :
    Hunk.between n (current.map Stretch.draft) as bs =
      (stretches n current (steps as bs)).map Stretch.hunk := by
  fun_induction steps as bs generalizing n current with
  | case1 => cases current <;> simp [Hunk.between, stretches]
  | case2 b bs ih =>
    have hnext := next_getD hcurrent
    rw [stretches_cons_of_not_kept rfl, ← ih (next_of_mem_push hnext _), Option.map_some,
      Stretch.draft_push, hnext, Hunk.between, orOpen_draft]
    rfl
  | case3 a as ih =>
    have hnext := next_getD hcurrent
    rw [stretches_cons_of_not_kept rfl, ← ih (next_of_mem_push hnext _), Option.map_some,
      Stretch.draft_push, hnext, Hunk.between, orOpen_draft]
    rfl
  | case4 a as b bs ih =>
    have hnext := next_getD hcurrent
    rw [Hunk.between.eq_def]
    by_cases hab : a = b
    · have hnone : ∀ d ∈ (none : Option Stretch), d.next = n + 1 := by simp
      have hclosed := ih hnone
      simp only [if_pos hab]
      cases current with
      | none => exact hclosed
      | some d =>
        have hdraft : (d.push (.kept a)).draft = d.draft.push (.unchanged a n) := by
          rw [Stretch.draft_push, ← hnext]
          rfl
        have hopen := ih (next_of_mem_push (hcurrent d rfl) (.kept a))
        rw [Option.map_some, hdraft] at hopen
        simp only [Option.map_some, stretches, Step.isKept, if_true, hdraft]
        split
        next =>
          rw [List.map_cons, ← Stretch.close_draft, hdraft]
          exact congrArg _ hclosed
        next => exact hopen
    · simp only [if_neg hab]
      rw [stretches_cons_of_not_kept rfl, ← ih (next_of_mem_push hnext _), Option.map_some,
        Stretch.draft_push, hnext, orOpen_draft]
      rfl

end Between

/-- The stretches of the steps from one text to the other. -/
def stretchesOf (old new : String) : List Stretch :=
  stretches 1 none (steps (Text.pieces old) (Text.pieces new))

theorem oneSided_of_mem_stretchesOf {old new : String} {d : Stretch}
    (h : d ∈ stretchesOf old new) : Step.OneSided d.steps := by
  refine (oneSided_steps (Text.pieces old) (Text.pieces new)).mono fun s hs ↦ ?_
  rcases mem_of_mem_stretches h hs with hs | ⟨_, hnone, -⟩
  · exact hs
  · simp at hnone

/-- **The hunks of two texts are the stretches of their steps.** -/
theorem hunks_eq (old new : String) : hunks old new = (stretchesOf old new).map Stretch.hunk := by
  have hnone : ∀ d ∈ (none : Option Stretch), d.next = 1 := by simp
  exact between_eq hnone _ _

/-- The hunks of two texts are counted as their steps are. -/
theorem ofHunks_hunks (old new : String) :
    Counts.ofHunks (hunks old new) = Step.counts ((stretchesOf old new).flatMap Stretch.steps) := by
  rw [hunks_eq, Stretch.ofHunks_map_hunk fun _ ↦ oneSided_of_mem_stretchesOf]

end Diff

end ChangeContext
