import ChangeContext.Diff.Analysis
import ChangeContext.Proofs.Diff.Stretch
import ChangeContext.Proofs.NameMap

/-!
# The two texts change places

What leads from the new text back to the old one is what leads from the old to the new, seen in a
mirror.  Lines that were removed are added and lines that were added are removed; a changed line is a
removed line with an added one behind it on either side, so there the two change their contents.
Everything that is counted or named is counted and named on the other side
(`mirrors_ofTexts`).

For the hunks this is seen on the steps.  The mirror image of a step has as many lines as the step,
and is kept just if the step is, so the stretches are the same on both sides.  That the lines and
counts of a hunk follow suit needs that lines are not both removed and added at the end of the texts:
there a removed line in front of an added one would be taken for a changed one.
-/

set_option autoImplicit false

namespace ChangeContext

namespace Diff

/-! ## Mirror images -/

/-- What happens to a line when the texts change places. -/
def LineKind.mirror : LineKind → LineKind
  | add => remove
  | remove => add
  | unchanged => unchanged

/-- A line when the texts change places. -/
def Line.mirror (l : Line) : Line :=
  ⟨l.kind.mirror, l.content, l.new?, l.old?⟩

/-- The lines of a hunk when the texts change places: what takes the place of a removed line still
comes behind it. -/
def Line.mirrorAll : List Line → List Line
  | [] => []
  | [l] => [l.mirror]
  | l :: m :: rest =>
    if l.kind = .remove ∧ m.kind = .add then m.mirror :: l.mirror :: mirrorAll rest
    else l.mirror :: mirrorAll (m :: rest)

/-- A hunk when the texts change places. -/
def Hunk.mirror (h : Hunk) : Hunk where
  oldStart := h.newStart
  oldLines := h.newLines
  newStart := h.oldStart
  newLines := h.oldLines
  lines := Line.mirrorAll h.lines

/-- The counts when the texts change places. -/
def Counts.mirror (c : Counts) : Counts where
  additions := c.deletions
  deletions := c.additions
  modifications := c.modifications

/-- What came when a thing went, and went when it came. -/
def SemanticKind.mirror : SemanticKind → SemanticKind
  | functionAdded => functionRemoved
  | functionRemoved => functionAdded
  | importAdded => importRemoved
  | importRemoved => importAdded
  | exportAdded => exportRemoved
  | exportRemoved => exportAdded

/-- The names that an analysis reports for a kind of change. -/
def Analysis.names (a : Analysis) (kind : SemanticKind) : List String :=
  (a.semanticChanges.filter (·.kind = kind)).map (·.name)

/-- The analysis reports a change of the parameters of this function. -/
def Analysis.ReportsSignature (a : Analysis) (name : String) : Prop :=
  ∃ files old new, BreakingChange.ofSignature files name old new ∈ a.breakingChanges

/-- An analysis is the mirror image of another. -/
structure Analysis.Mirrors (a b : Analysis) : Prop where
  hunks : b.hunks = a.hunks.map Hunk.mirror
  counts : b.counts = a.counts.mirror
  names : ∀ kind, b.names kind = a.names kind.mirror
  signatures : ∀ name, b.ReportsSignature name ↔ a.ReportsSignature name

/-! ## Steps and stretches -/

namespace Step

/-- A step when the texts change places. -/
def mirror : Step → Step
  | kept c => kept c
  | changed a b => changed b a
  | removed a => added a
  | added b => removed b

@[simp] theorem isKept_mirror (s : Step) : s.mirror.isKept = s.isKept := by
  cases s <;> rfl

end Step

theorem steps_mirror (as bs : List String) : steps bs as = (steps as bs).map Step.mirror := by
  fun_induction steps as bs with
  | case1 => simp [steps]
  | case2 b bs ih => rw [steps, ih]; rfl
  | case3 a as ih => rw [steps, ih]; rfl
  | case4 a as b bs ih =>
    rw [steps, ih, List.map_cons]
    by_cases hab : a = b
    · rw [if_pos hab, if_pos hab.symm, hab]
      rfl
    · rw [if_neg hab, if_neg (Ne.symm hab)]
      rfl

namespace Step

/-- On both sides the same lines are unchanged. -/
theorem map_unchanged_linesFrom_mirror (n : Nat) (ss : List Step) :
    (linesFrom n (ss.map mirror)).map (·.kind == .unchanged) =
      (linesFrom n ss).map (·.kind == .unchanged) := by
  induction ss generalizing n with
  | nil => rfl
  | cons s ss ih =>
    rw [List.map_cons, linesFrom, linesFrom, List.map_append, List.map_append, ih]
    cases s <;> rfl

/-- The lines that one text has are those that the other has in the mirror. -/
theorem countP_linesFrom_mirror (n : Nat) (ss : List Step) :
    (linesFrom n (ss.map mirror)).countP (·.old?.isSome) =
        (linesFrom n ss).countP (·.new?.isSome) ∧
      (linesFrom n (ss.map mirror)).countP (·.new?.isSome) =
        (linesFrom n ss).countP (·.old?.isSome) := by
  induction ss generalizing n with
  | nil => exact ⟨rfl, rfl⟩
  | cons s ss ih =>
    simp only [List.map_cons, linesFrom, List.countP_append, (ih (n + 1)).1, (ih (n + 1)).2]
    cases s <;> exact ⟨rfl, rfl⟩

theorem mirrorAll_cons_of_head? {l : Line} {rest : List Line}
    (h : l.kind = .remove → ∀ m ∈ rest.head?, m.kind ≠ .add) :
    Line.mirrorAll (l :: rest) = l.mirror :: Line.mirrorAll rest := by
  cases rest with
  | nil => rfl
  | cons m rest =>
    rw [Line.mirrorAll, if_neg]
    rintro ⟨hl, hm⟩
    exact h hl m rfl hm

/-- The lines of the mirrored steps are the mirrored lines. -/
theorem linesFrom_mirror (n : Nat) {ss : List Step} (h : OneSided ss) :
    linesFrom n (ss.map mirror) = Line.mirrorAll (linesFrom n ss) := by
  induction ss generalizing n with
  | nil => rfl
  | cons s ss ih =>
    rw [List.map_cons, linesFrom, linesFrom, ih (n + 1) h.tail]
    cases s with
    | kept c =>
      rw [lines, List.singleton_append, mirrorAll_cons_of_head? (by simp [Line.unchanged])]
      rfl
    | changed a b => rfl
    | removed a =>
      rw [lines, List.singleton_append, mirrorAll_cons_of_head? fun _ ↦ h.head?_linesFrom (n + 1)]
      rfl
    | added b =>
      rw [lines, List.singleton_append, mirrorAll_cons_of_head? (by simp [Line.added])]
      rfl

theorem counts_mirror (ss : List Step) : counts (ss.map mirror) = (counts ss).mirror := by
  have hcount (p q : Step → Bool) (h : ∀ s : Step, p s.mirror = q s) :
      (ss.map mirror).countP p = ss.countP q := by
    rw [List.countP_map]
    exact List.countP_congr fun s _ ↦ by rw [Function.comp_apply, h s]
  have hadded : (ss.map mirror).countP isAdded = ss.countP isRemoved :=
    hcount _ _ fun s ↦ by cases s <;> rfl
  have hremoved : (ss.map mirror).countP isRemoved = ss.countP isAdded :=
    hcount _ _ fun s ↦ by cases s <;> rfl
  have hchanged : (ss.map mirror).countP isChanged = ss.countP isChanged :=
    hcount _ _ fun s ↦ by cases s <;> rfl
  rw [counts, hadded, hremoved, hchanged]
  rfl

end Step

namespace Stretch

/-- A stretch when the texts change places. -/
def mirror (d : Stretch) : Stretch where
  start := d.start
  steps := d.steps.map Step.mirror

theorem mirror_push (d : Stretch) (s : Step) : (d.push s).mirror = d.mirror.push s.mirror := by
  simp [mirror, push]

/-- Whether a hunk closes does not depend on which text is the old one. -/
theorem isComplete_mirror (d : Stretch) : d.mirror.draft.isComplete = d.draft.isComplete := by
  have hkept : d.mirror.draft.latest.map (·.kind == .unchanged) =
      d.draft.latest.map (·.kind == .unchanged) := by
    rw [draft, draft, List.map_reverse, List.map_reverse]
    exact congrArg List.reverse (Step.map_unchanged_linesFrom_mirror d.start d.steps)
  have hlength : d.mirror.draft.latest.length = d.draft.latest.length := by
    simpa using congrArg List.length hkept
  have hlast (l : List Line) :
      (l.take Hunk.closingContext).all (·.kind == .unchanged) =
        ((l.map (·.kind == .unchanged)).take Hunk.closingContext).all id := by
    rw [← List.map_take, List.all_map]
    rfl
  rw [Hunk.Draft.isComplete, Hunk.Draft.isComplete, hlast, hlast, hkept, hlength]

theorem hunk_mirror {d : Stretch} (h : Step.OneSided d.steps) : d.mirror.hunk = d.hunk.mirror := by
  have hlines : d.mirror.lines = Line.mirrorAll d.lines := Step.linesFrom_mirror d.start h
  obtain ⟨hold, hnew⟩ := Step.countP_linesFrom_mirror d.start d.steps
  have hold' : d.mirror.lines.countP (·.old?.isSome) = d.lines.countP (·.new?.isSome) := hold
  have hnew' : d.mirror.lines.countP (·.new?.isSome) = d.lines.countP (·.old?.isSome) := hnew
  rw [hunk, hunk, Hunk.mirror, Hunk.ofLines, hold', hnew', hlines]
  rfl

end Stretch

/-- The texts fall into the same stretches when they change places. -/
theorem stretches_mirror (n : Nat) (current : Option Stretch) (ss : List Step) :
    stretches n (current.map Stretch.mirror) (ss.map Step.mirror) =
      (stretches n current ss).map Stretch.mirror := by
  fun_induction stretches n current ss with
  | case1 n current => cases current <;> rfl
  | case2 n s rest hkept ih =>
    simpa [stretches, hkept] using ih
  | case3 n s rest hkept d hcomplete ih =>
    have hpush := Stretch.mirror_push d s
    simp [stretches, hkept, ← hpush, Stretch.isComplete_mirror, hcomplete, ← ih]
  | case4 n s rest hkept d hcomplete ih =>
    have hpush := Stretch.mirror_push d s
    simp [stretches, hkept, ← hpush, Stretch.isComplete_mirror, hcomplete, ← ih]
  | case5 n current s rest hkept ih =>
    have hkept' : s.mirror.isKept = false := by simpa using hkept
    rw [List.map_cons, stretches_cons_of_not_kept hkept', ← ih, Option.map_some, Stretch.mirror_push]
    cases current <;> rfl

/-- The texts have the same stretches when they change places. -/
theorem stretchesOf_mirror (old new : String) :
    stretchesOf new old = (stretchesOf old new).map Stretch.mirror := by
  rw [stretchesOf, steps_mirror]
  exact stretches_mirror 1 none _

/-- **The hunks are mirrored.** -/
theorem hunks_mirror (old new : String) : hunks new old = (hunks old new).map Hunk.mirror := by
  rw [hunks_eq, hunks_eq, stretchesOf_mirror, List.map_map, List.map_map]
  exact List.map_congr_left fun d hd ↦ Stretch.hunk_mirror (oneSided_of_mem_stretchesOf hd)

/-- **The counts are mirrored.** -/
theorem ofHunks_mirror (old new : String) :
    Counts.ofHunks (hunks new old) = (Counts.ofHunks (hunks old new)).mirror := by
  have hsteps : (stretchesOf new old).flatMap Stretch.steps =
      ((stretchesOf old new).flatMap Stretch.steps).map Step.mirror := by
    rw [stretchesOf_mirror, List.flatMap_map, List.map_flatMap]
    rfl
  rw [ofHunks_hunks, ofHunks_hunks, hsteps, Step.counts_mirror]

/-! ## Names -/

/-- The names of a list of changes of one kind. -/
theorem names_each (kind kind' : SemanticKind) (names : List String) :
    ((SemanticChange.each kind' names).filter (·.kind = kind)).map (·.name) =
      if kind' = kind then names else [] := by
  rw [SemanticChange.each, List.filter_map, List.map_map]
  by_cases h : kind' = kind
  · simp [h, Function.comp_def]
  · simp [h, Function.comp_def]

/-- The names that came are those that went, and the names that went are those that came. -/
theorem names_semanticChanges_mirror (before after : Outline) (kind : SemanticKind) :
    ((semanticChanges after before).filter (·.kind = kind)).map (·.name) =
      ((semanticChanges before after).filter (·.kind = kind.mirror)).map (·.name) := by
  simp only [semanticChanges, List.filter_append, List.map_append, names_each]
  cases kind <;> simp [SemanticKind.mirror]

/-! ## Signatures -/

/-- What is suggested where parameters have changed tells the name of the function. -/
theorem eq_of_suggestion_eq {files files' : List Path} {name name' old old' new new' : String}
    (h : (BreakingChange.ofSignature files name old new).suggestion =
      (BreakingChange.ofSignature files' name' old' new').suggestion) : name = name' := by
  have hsuggestion := congrArg String.toList h
  simp only [BreakingChange.ofSignature, String.toList_append] at hsuggestion
  exact String.toList_injective (List.append_cancel_left (List.append_cancel_right hsuggestion))

/-- Both outlines hold this function, with different parameters. -/
def Resigned (before after : Outline) (name : String) : Prop :=
  ∃ old new, before.functions.get? name = some old ∧ after.functions.get? name = some new ∧
    Text.trim old.toList ≠ Text.trim new.toList

theorem Resigned.symm {before after : Outline} {name : String} (h : Resigned before after name) :
    Resigned after before name := by
  obtain ⟨old, new, hold, hnew, hne⟩ := h
  exact ⟨new, old, hnew, hold, hne.symm⟩

theorem signatureChange?_eq_some_iff {after : Outline} {files : List Path} {name old : String}
    {c : BreakingChange} :
    signatureChange? after files (name, old) = some c ↔
      ∃ new, after.functions.get? name = some new ∧ Text.trim old.toList ≠ Text.trim new.toList ∧
        c = .ofSignature files name old new := by
  rw [signatureChange?]
  cases after.functions.get? name with
  | none => simp
  | some new => simp [eq_comm]

/-- **A change of parameters is reported of the functions that both outlines hold with different
parameters.** -/
theorem exists_ofSignature_mem_iff {before after : Outline} {files : List Path} {name : String} :
    (∃ files' old new,
        BreakingChange.ofSignature files' name old new ∈ breakingChanges before after files) ↔
      Resigned before after name := by
  simp only [breakingChanges, List.mem_append, List.mem_map, List.mem_filterMap]
  constructor
  · rintro ⟨files', old, new, ⟨removed, -, hremoval⟩ | ⟨⟨name', old'⟩, hfunction, hchange⟩⟩
    · exact absurd (congrArg BreakingChange.kind hremoval) (by simp [BreakingChange.ofRemoval,
        BreakingChange.ofSignature])
    · obtain ⟨new', hnew, hne, heq⟩ := signatureChange?_eq_some_iff.1 hchange
      obtain rfl := eq_of_suggestion_eq (congrArg BreakingChange.suggestion heq)
      exact ⟨old', new', NameMap.get?_eq_some_iff.2 hfunction, hnew, hne⟩
  · rintro ⟨old, new, hold, hnew, hne⟩
    exact ⟨files, old, new, .inr ⟨(name, old), NameMap.get?_eq_some_iff.1 hold,
      signatureChange?_eq_some_iff.2 ⟨new, hnew, hne, rfl⟩⟩⟩

/-- **When the two texts change places, their analysis is mirrored.** -/
theorem Analysis.mirrors_ofTexts (old new : String) (path : Option Path) :
    (ofTexts old new path).Mirrors (ofTexts new old path) where
  hunks := hunks_mirror old new
  counts := ofHunks_mirror old new
  names kind := names_semanticChanges_mirror _ _ kind
  signatures _ := exists_ofSignature_mem_iff.trans
    (Iff.trans ⟨Resigned.symm, Resigned.symm⟩ exists_ofSignature_mem_iff.symm)

end Diff

end ChangeContext
