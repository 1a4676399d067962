import ChangeContext.Diff.Analysis
import ChangeContext.Proofs.Diff.Stretch
import ChangeContext.Proofs.NameMap
import ChangeContext.Proofs.Text.Digits
import Mathlib.Data.List.TFAE
import Mathlib.Tactic.TFAE

/-!
# What is counted, and when nothing has changed

The counts of an analysis are read off its hunks, where a removed line with an added one behind it
counts as a modification.  They can be told from the two texts alone: modifications are the places
where both have a line and these differ, and what one text has beyond the end of the other has been
added or deleted.

So a text is unchanged just if nothing is counted, just if there are no hunks, and just if the summary
says so (`counts_ofTexts_and_tfae`).  That the summary says so of equal texts needs that an outline
has nothing new over itself; that it does not say so of others, that a summary which counts something
begins with a digit.
-/

set_option autoImplicit false

namespace ChangeContext

namespace Diff

/-! ## Steps -/

/-- The counts of steps, told from the lines on both sides. -/
theorem counts_steps (as bs : List String) :
    Step.counts (steps as bs) =
      { additions := bs.length - min as.length bs.length
        deletions := as.length - min as.length bs.length
        modifications := (List.range (min as.length bs.length)).countP fun k ↦ as[k]? ≠ bs[k]? } := by
  fun_induction steps as bs with
  | case1 => rfl
  | case2 b bs ih =>
    simp only [Step.counts, Counts.mk.injEq, List.countP_cons, Step.isAdded, Step.isRemoved,
      Step.isChanged] at ih ⊢
    simp_all
  | case3 a as ih =>
    simp only [Step.counts, Counts.mk.injEq, List.countP_cons, Step.isAdded, Step.isRemoved,
      Step.isChanged] at ih ⊢
    simp_all
  | case4 a as b bs ih =>
    simp only [Step.counts, Counts.mk.injEq] at ih ⊢
    obtain ⟨hadded, hremoved, hchanged⟩ := ih
    have hmin : min (a :: as).length (b :: bs).length = min as.length bs.length + 1 := by
      simp only [List.length_cons]
      omega
    refine ⟨?_, ?_, ?_⟩
    · rw [List.countP_cons, hadded]
      split <;> simp [Step.isAdded]
    · rw [List.countP_cons, hremoved]
      split <;> simp [Step.isRemoved]
    · rw [hmin, List.range_succ_eq_map, List.countP_cons, List.countP_cons, List.countP_map, hchanged]
      by_cases hab : a = b <;> simp [hab, Step.isChanged, Function.comp_def]

/-- Steps that are in no stretch change nothing, so all that is counted is in the stretches. -/
theorem counts_stretches (n : Nat) (current : Option Stretch) (ss : List Step) :
    Step.counts ((stretches n current ss).flatMap Stretch.steps) =
      Step.counts ((current.getD ⟨n, []⟩).steps ++ ss) := by
  have hkept {s : Step} (hs : s.isKept = true) (ss : List Step) :
      Step.counts (s :: ss) = Step.counts ss := by
    cases s <;> simp_all [Step.isKept, Step.counts, Step.isAdded, Step.isRemoved, Step.isChanged]
  fun_induction stretches n current ss with
  | case1 n current => cases current <;> simp
  | case2 n s rest hs ih => exact ih.trans (hkept hs rest).symm
  | case3 n s rest hs d hcomplete ih =>
    rw [List.flatMap_cons, Step.counts_append, ih]
    simp [Stretch.push, ← Step.counts_append]
  | case4 n s rest hs d hcomplete ih => simpa [Stretch.push] using ih
  | case5 n current s rest hs ih => simpa [Stretch.push] using ih

/-- **The hunks of two texts are counted as the texts differ.** -/
theorem ofHunks_eq (old new : String) :
    Counts.ofHunks (hunks old new) =
      { additions := (Text.pieces new).length -
          min (Text.pieces old).length (Text.pieces new).length
        deletions := (Text.pieces old).length -
          min (Text.pieces old).length (Text.pieces new).length
        modifications := (List.range (min (Text.pieces old).length (Text.pieces new).length)).countP
          fun k ↦ (Text.pieces old)[k]? ≠ (Text.pieces new)[k]? } := by
  rw [ofHunks_hunks, stretchesOf, counts_stretches, ← counts_steps]
  rfl

/-! ## Equal texts -/

/-- A text is all that its lines are joined to. -/
theorem pieces_injective : Function.Injective Text.pieces := by
  intro s s' h
  have hlines : s.toList.splitOn '\n' = s'.toList.splitOn '\n' :=
    List.map_injective_iff.2 (fun _ _ ↦ String.ofList_injective) h
  have hjoin := congrArg (List.intercalate ['\n']) hlines
  rw [List.intercalate_splitOn, List.intercalate_splitOn] at hjoin
  exact String.toList_injective hjoin

theorem isEmpty_iff (c : Counts) : c.isEmpty = true ↔ c = Counts.none := by
  obtain ⟨a, d, m⟩ := c
  simp [Counts.isEmpty, Counts.none, and_assoc]

/-- Nothing is counted just if the lines are the same. -/
theorem ofHunks_eq_none_iff (old new : String) :
    Counts.ofHunks (hunks old new) = Counts.none ↔ old = new := by
  rw [ofHunks_eq, Counts.none, Counts.mk.injEq]
  constructor
  · rintro ⟨hadded, hremoved, hchanged⟩
    refine pieces_injective (List.ext_getElem? fun k ↦ ?_)
    rw [List.countP_eq_zero] at hchanged
    by_cases hk : k < min (Text.pieces old).length (Text.pieces new).length
    · simpa using hchanged k (List.mem_range.2 hk)
    · rw [List.getElem?_eq_none (by omega), List.getElem?_eq_none (by omega)]
  · rintro rfl
    simp

/-- A text has no hunks against itself. -/
theorem hunks_self (s : String) : hunks s s = [] := by
  have hbetween (n : Nat) (as : List String) : Hunk.between n none as as = [] := by
    induction as generalizing n with
    | nil => rw [Hunk.between, Option.toList_none, List.map_nil]
    | cons a as ih =>
      rw [Hunk.between, if_pos rfl]
      exact ih (n + 1)
  exact hbetween 1 _

theorem missingFrom_self {β : Type} (m : NameMap β) : missingFrom m m = [] := by
  rw [missingFrom, List.filter_eq_nil_iff]
  intro name hname
  simp [NameMap.contains_iff.2 hname]

/-- Nothing comes or goes between an outline and itself. -/
theorem semanticChanges_self (o : Outline) : semanticChanges o o = [] := by
  simp [semanticChanges, missingFrom_self, SemanticChange.each]

/-- An outline does not break itself. -/
theorem breakingChanges_self (o : Outline) (files : List Path) : breakingChanges o o files = [] := by
  rw [breakingChanges, missingFrom_self, List.map_nil, List.nil_append, List.filterMap_eq_nil_iff]
  intro f hf
  have hget : o.functions.get? f.1 = some f.2 := NameMap.get?_eq_some_iff.2 hf
  simp [signatureChange?, hget]

/-! ## Summaries -/

namespace Analysis

/-- What is said of a number of things begins with the number. -/
theorem exists_digit_of_counted? {thing : Nat × String} {text : String}
    (h : counted? thing = some text) : ∃ c cs, text.toList = c :: cs ∧ c.isDigit = true := by
  obtain ⟨n, name⟩ := thing
  match n with
  | 0 => simp [counted?] at h
  | 1 =>
    obtain rfl := Option.some_inj.1 h
    exact ⟨'1', _, String.toList_append .., by decide⟩
  | n + 2 =>
    obtain rfl := Option.some_inj.1 h
    obtain ⟨c, cs, hdigits, hc⟩ := Text.toDigits_eq_cons (n + 2)
    refine ⟨c, cs ++ (" ".toList ++ (name.toList ++ "s".toList)), ?_, hc⟩
    have hnumber : (toString (n + 2)).toList = c :: cs := Nat.toList_repr.trans hdigits
    rw [String.toList_append, String.toList_append, String.toList_append, hnumber, List.append_assoc,
      List.append_assoc]
    rfl

/-- What says how many things there are is not what says that there are none. -/
theorem intercalate_counted?_ne (things : List (Nat × String)) :
    ", ".intercalate (things.filterMap counted?) ≠ "No changes" := by
  cases hparts : things.filterMap counted? with
  | nil => decide
  | cons text more =>
    obtain ⟨thing, -, hthing⟩ := List.mem_filterMap.1 (hparts ▸ List.mem_cons_self ..)
    obtain ⟨c, cs, htext, hc⟩ := exists_digit_of_counted? hthing
    have hhead : (", ".intercalate (text :: more)).toList.head? = some c := by
      cases more <;> simp [htext]
    intro h
    rw [h] at hhead
    obtain rfl : 'N' = c := by simpa using hhead
    exact absurd hc (by decide)

/-- **The summary says that nothing has changed just if there is nothing to count.** -/
theorem summarize_eq_noChanges_iff (counts : Counts) (semantic breaking : Nat) :
    summarize counts semantic breaking = "No changes" ↔
      counts = Counts.none ∧ semantic = 0 ∧ breaking = 0 := by
  have hnothing : (counts.isEmpty && semantic == 0 && breaking == 0) = true ↔
      counts = Counts.none ∧ semantic = 0 ∧ breaking = 0 := by
    simp [isEmpty_iff, and_assoc]
  rw [summarize, ← hnothing]
  split
  next h => simp [h]
  next h => simp [h, intercalate_counted?_ne]

/-- **The counts are what differs between the texts, and the texts are equal just if nothing is
reported.** -/
theorem counts_ofTexts_and_tfae (old new : String) (path : Option Path) :
    (ofTexts old new path).counts.modifications =
        (List.range (min (Text.pieces old).length (Text.pieces new).length)).countP
          (fun k ↦ (Text.pieces old)[k]? ≠ (Text.pieces new)[k]?) ∧
      (ofTexts old new path).counts.additions =
        (Text.pieces new).length - min (Text.pieces old).length (Text.pieces new).length ∧
      (ofTexts old new path).counts.deletions =
        (Text.pieces old).length - min (Text.pieces old).length (Text.pieces new).length ∧
      [old = new, (ofTexts old new path).hasChanges = false,
        (ofTexts old new path).counts = Counts.none,
        (ofTexts old new path).summary = "No changes"].TFAE := by
  have hcounts : (ofTexts old new path).counts = Counts.ofHunks (Diff.hunks old new) := rfl
  refine ⟨by rw [hcounts, ofHunks_eq], by rw [hcounts, ofHunks_eq], by rw [hcounts, ofHunks_eq], ?_⟩
  tfae_have 1 → 2 := by
    rintro rfl
    rw [hasChanges, ofTexts, hunks_self]
    rfl
  tfae_have 2 → 3 := by
    intro hnone
    have hempty : Diff.hunks old new = [] := by simpa [hasChanges, ofTexts] using hnone
    rw [hcounts, hempty]
    rfl
  tfae_have 3 → 1 := fun hnone ↦ (ofHunks_eq_none_iff old new).1 (hcounts ▸ hnone)
  tfae_have 4 → 3 := fun hsummary ↦ ((summarize_eq_noChanges_iff _ _ _).1 hsummary).1
  tfae_have 1 → 4 := by
    rintro rfl
    refine (summarize_eq_noChanges_iff _ _ _).2 ⟨(ofHunks_eq_none_iff old old).2 rfl, ?_, ?_⟩
    · rw [semanticChanges_self]
      rfl
    · rw [breakingChanges_self]
      rfl
  tfae_finish

end Analysis

end Diff

end ChangeContext
