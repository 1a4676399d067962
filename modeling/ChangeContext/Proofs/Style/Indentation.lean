import ChangeContext.Proofs.Pattern.Scan
import ChangeContext.Proofs.Style.Votes
import ChangeContext.Proofs.Text.Digits
import ChangeContext.Proofs.Text.Lines

/-!
# The votes on indentation and quotes

Indented lines are found by searching the whole text for a line feed with spaces or tabs behind it.
Such a match begins at a feed and goes no further than the line behind it, so the search comes to
every feed (`ReadsLines.filterMap_scan`): the votes are those of the lines, each line but the first of
its file having one.

Quotes are voted on character by character.
-/

set_option autoImplicit false

namespace ChangeContext

open Place (between)

/-! ## Searching line by line -/

namespace Pattern

open Text (firstLine laterLines)

variable {p : Pattern} {β : Type} {report : Match → Option β} {tell : List Char → Option β}

/-- The pattern fits at feeds only and goes no further than the line behind the feed.  That line tells
what is reported of a match, or that there is none. -/
structure ReadsLines (p : Pattern) (report : Match → Option β) (tell : List Char → Option β) :
    Prop where
  opens : p.Opens (· == '\n')
  found {before content : List Char} {m : Match} {stop : Place} :
    p.matchAt? (between before ('\n' :: content)) = some (m, stop) →
      ∃ cs, content = cs ++ stop.ahead ∧ '\n' ∉ cs ∧ report m = tell (firstLine content)
  missed {before content : List Char} :
    p.matchAt? (between before ('\n' :: content)) = none → tell (firstLine content) = none

/-- **The search reports on every line but the first**, each by itself. -/
theorem ReadsLines.filterMap_scan (h : p.ReadsLines report tell) (before content : List Char) :
    (p.scan before content).filterMap report = (laterLines content).filterMap tell := by
  induction hn : content.length using Nat.strong_induction_on generalizing before content with
  | _ n ih =>
    subst hn
    rcases content with _ | ⟨c, content⟩
    · rw [h.opens.scan_nil]
      rfl
    · by_cases hc : c = '\n'
      · subst hc
        rw [Text.laterLines_feed, List.filterMap_cons]
        cases hmatch : p.matchAt? (between before ('\n' :: content)) with
        | none => rw [scan_cons hmatch, ih _ (Nat.lt_succ_self _) _ _ rfl, h.missed hmatch]
        | some found =>
          obtain ⟨m, stop⟩ := found
          obtain ⟨cs, heq, hcs, htell⟩ := h.found hmatch
          have hlt : stop.ahead.length < ('\n' :: content).length := by
            rw [heq, List.length_cons, List.length_append]
            omega
          have hscan : p.scan before ('\n' :: content) =
              m :: p.scan (('\n' :: cs).reverse ++ before) stop.ahead := by
            rw [heq, ← List.cons_append] at hmatch ⊢
            exact scan_eq_cons (List.cons_ne_nil _ _) hmatch rfl
          rw [hscan, List.filterMap_cons, ih _ hlt _ _ rfl, htell, heq,
            Text.laterLines_append_of_notMem hcs]
      · have hskips : p.Skips [c] content := h.opens.skips (by simpa using hc)
        rw [Text.laterLines_cons_of_ne hc, ← ih _ (Nat.lt_succ_self _) (c :: before) content rfl]
        exact congrArg _ (hskips before)

end Pattern

/-! ## Indented lines -/

namespace Style

open Pattern
open Text (firstLine laterLines)

/-- The number of spaces that a line begins with. -/
def leadingSpaces (line : List Char) : Nat :=
  (line.takeWhile (· == ' ')).length

/-- A line that begins with two spaces or more is reported with the number of them. -/
theorem readsLines_spaceIndent :
    spaceIndent.ReadsLines (fun m ↦ (m.group? 1).map fun s ↦ s.stop - s.start)
      (fun line ↦ if 2 ≤ leadingSpaces line then some (leadingSpaces line) else none) where
  opens := opens_both_char _ _
  found {before content m stop} h := by
    rw [matchAt?, spaceIndent, fits_seq_cons, fits_char_cons, fits_seq_cons, fits_mark,
      fits_both] at h
    obtain ⟨_, rfl, h⟩ := of_fits_char h
    rw [run1, fits_both] at h
    obtain ⟨c, _, rfl, hc, h⟩ := of_fits_one h
    obtain rfl : c = ' ' := beq_iff_eq.1 hc
    obtain ⟨cs, rest, rfl, hcs, hstop, h⟩ := of_fits_run_of_total (fun _ ↦ rfl) h
    obtain ⟨rfl, rfl⟩ := Prod.mk.inj (Option.some_inj.1 h)
    have hspaces : ∀ c ∈ ' ' :: ' ' :: cs, (c == ' ') = true := by simpa using hcs
    refine ⟨' ' :: ' ' :: cs, rfl, fun hmem ↦ absurd (hspaces _ hmem) (by decide), ?_⟩
    have hleading : leadingSpaces (firstLine (' ' :: ' ' :: cs ++ rest)) = cs.length + 2 := by
      rw [leadingSpaces, Text.takeWhile_firstLine rfl,
        Text.takeWhile_append_of_stops hspaces (Text.stops_iff.2 hstop)]
      rfl
    rw [← List.cons_append, ← List.cons_append, hleading, if_pos (Nat.le_add_left ..)]
    change some (List.length _ - List.length _) = _
    rw [List.length_append, List.length_reverse]
    simp only [List.length_cons, Option.some_inj]
    omega
  missed {before content} h := by
    obtain ⟨cs, rest, rfl, hcs, hstop⟩ := exists_run_append (· == ' ') content
    rw [leadingSpaces, Text.takeWhile_firstLine rfl,
      Text.takeWhile_append_of_stops hcs (Text.stops_iff.2 hstop)]
    refine if_neg fun htwo ↦ ?_
    rcases cs with _ | ⟨a, _ | ⟨b, cs⟩⟩
    · exact absurd htwo (by simp)
    · exact absurd htwo (by simp)
    · obtain ⟨ha, hmore⟩ := List.forall_mem_cons.1 hcs
      obtain rfl : a = ' ' := beq_iff_eq.1 ha
      have hsome : (spaceIndent.matchAt? (between before
          ('\n' :: (' ' :: b :: cs ++ rest)))).isSome = true := by
        rw [matchAt?, spaceIndent, fits_seq_cons, fits_char_cons, fits_seq_cons, fits_mark, fits_both,
          List.cons_append, fits_char_cons]
        exact isSome_fits_run1 (List.cons_ne_nil _ _) hmore rfl
      rw [h] at hsome
      exact Bool.false_ne_true hsome

/-- A line that begins with a tab is reported. -/
theorem readsLines_tabIndent :
    tabIndent.ReadsLines (fun _ ↦ some ())
      (fun line ↦ if line.head? = some '\t' then some () else none) where
  opens := opens_both_char _ _
  found {before content m stop} h := by
    rw [matchAt?, tabIndent, fits_both, fits_char_cons, run1, fits_both] at h
    obtain ⟨c, _, rfl, hc, h⟩ := of_fits_one h
    obtain rfl : c = '\t' := beq_iff_eq.1 hc
    obtain ⟨cs, rest, rfl, hcs, h⟩ := of_fits_run h
    obtain ⟨rfl, rfl⟩ := Prod.mk.inj (Option.some_inj.1 h)
    have htabs : ∀ c ∈ '\t' :: cs, (c == '\t') = true := by simpa using hcs
    exact ⟨'\t' :: cs, rfl, fun hmem ↦ absurd (htabs _ hmem) (by decide), rfl⟩
  missed {before content} h := by
    refine if_neg fun htab ↦ ?_
    rw [firstLine, List.head?_takeWhile, Option.filter_eq_some_iff, List.head?_eq_some_iff] at htab
    obtain ⟨⟨rest, rfl⟩, -⟩ := htab
    have hsome : (tabIndent.matchAt? (between before ('\n' :: '\t' :: rest))).isSome = true := by
      rw [matchAt?, tabIndent, fits_both, fits_char_cons, run1, fits_both, fits_one_of_accepts rfl]
      exact isSome_fits_run_nil rfl
    rw [h] at hsome
    exact Bool.false_ne_true hsome

/-! ## The votes -/

/-- All lines of the files but the first of each. -/
def allLaterLines (contents : List String) : List (List Char) :=
  contents.flatMap fun c ↦ laterLines c.toList

/-- The characters of all files. -/
def allChars (contents : List String) : List Char :=
  contents.flatMap String.toList

section Content

variable (content : List Char)

theorem spaceRuns_ofContent :
    (Votes.ofContent content).spaceRuns =
      (laterLines content).countP fun line ↦ 2 ≤ leadingSpaces line := by
  change List.length _ = _
  rw [findAll_eq_scan, readsLines_spaceIndent.filterMap_scan, List.length_filterMap_eq_countP]
  exact List.countP_congr fun line _ ↦ by simp

theorem count_spaceIndent {n : Nat} (hn : 2 ≤ n) :
    ((spaceIndent.findAll content).filterMap fun m ↦
        (m.group? 1).map fun s ↦ s.stop - s.start).count n =
      (laterLines content).countP fun line ↦ leadingSpaces line = n := by
  rw [findAll_eq_scan, readsLines_spaceIndent.filterMap_scan, List.count_filterMap]
  refine List.countP_congr fun line _ ↦ ?_
  rw [beq_iff_eq, Option.ite_none_right_eq_some, Option.some_inj, decide_eq_true_iff]
  omega

theorem tabRuns_ofContent :
    (Votes.ofContent content).tabRuns =
      (laterLines content).countP fun line ↦ line.head? = some '\t' := by
  calc (Votes.ofContent content).tabRuns
      = ((tabIndent.findAll content).filterMap fun _ ↦ some ()).length := by
        simp [Votes.ofContent, count]
    _ = (laterLines content).countP fun line ↦ line.head? = some '\t' := by
        rw [findAll_eq_scan, readsLines_tabIndent.filterMap_scan, List.length_filterMap_eq_countP]
        exact List.countP_congr fun line _ ↦ by simp

end Content

section Contents

variable (contents : List String)

theorem countP_allLaterLines (test : List Char → Bool) :
    (allLaterLines contents).countP test =
      (contents.map fun c ↦ (laterLines c.toList).countP test).sum := by
  rw [allLaterLines, List.countP_flatMap]
  rfl

theorem count_allChars (a : Char) :
    (allChars contents).count a = (contents.map fun c ↦ c.toList.count a).sum := by
  rw [allChars, List.count_flatMap]
  rfl

theorem indentation_detect :
    (detect contents).indentation =
      if (allLaterLines contents).countP (2 ≤ leadingSpaces ·) <
        (allLaterLines contents).countP (·.head? = some '\t') then .tabs else .spaces := by
  have hspaces := Votes.IsTotal.sampledVotes (f := Votes.spaceRuns) ⟨rfl, fun _ _ ↦ rfl⟩ rfl
  have htabs := Votes.IsTotal.sampledVotes (f := Votes.tabRuns) ⟨rfl, fun _ _ ↦ rfl⟩ rfl
  simp only [spaceRuns_ofContent, tabRuns_ofContent, ← countP_allLaterLines] at hspaces htabs
  rw [detect_eq, ofVotes, hspaces, htabs]

theorem indentSize_detect :
    (detect contents).indentSize =
      if (allLaterLines contents).countP (leadingSpaces · = 2) <
        (allLaterLines contents).countP (leadingSpaces · = 4) then 4 else 2 := by
  have htwo := Votes.IsTotal.sampledVotes (f := Votes.twoSpaceRuns) ⟨rfl, fun _ _ ↦ rfl⟩ rfl
  have hfour := Votes.IsTotal.sampledVotes (f := Votes.fourSpaceRuns) ⟨rfl, fun _ _ ↦ rfl⟩ rfl
  have htwo' (content : List Char) := count_spaceIndent content (n := 2) (by decide)
  have hfour' (content : List Char) := count_spaceIndent content (n := 4) (by decide)
  simp only [Votes.ofContent, htwo', hfour', ← countP_allLaterLines] at htwo hfour
  rw [detect_eq, ofVotes, htwo, hfour]

theorem quotes_detect :
    (detect contents).quotes =
      if (allChars contents).count '"' < (allChars contents).count '\'' then .single
      else .double := by
  have hsingle := Votes.IsTotal.sampledVotes (f := Votes.singleQuotes) ⟨rfl, fun _ _ ↦ rfl⟩ rfl
  have hdouble := Votes.IsTotal.sampledVotes (f := Votes.doubleQuotes) ⟨rfl, fun _ _ ↦ rfl⟩ rfl
  simp only [Votes.ofContent, ← count_allChars] at hsingle hdouble
  rw [detect_eq, ofVotes, hsingle, hdouble]

end Contents

/-- **The habits of lines and characters are those of the majority**, and no habit depends on the
order of the files or on files that are empty. -/
theorem detect_habits (contents : List String) :
    (detect contents).indentation =
        (if (allLaterLines contents).countP (2 ≤ leadingSpaces ·) <
          (allLaterLines contents).countP (·.head? = some '\t') then .tabs else .spaces) ∧
      (detect contents).indentSize =
        (if (allLaterLines contents).countP (leadingSpaces · = 2) <
          (allLaterLines contents).countP (leadingSpaces · = 4) then 4 else 2) ∧
      (detect contents).quotes =
        (if (allChars contents).count '"' < (allChars contents).count '\'' then .single
          else .double) ∧
      (∀ contents', (contents.filter (· ≠ "")).Perm (contents'.filter (· ≠ "")) →
        detect contents' = detect contents) ∧
      ((∀ c ∈ contents, c = "") → detect contents = standard) := by
  refine ⟨indentation_detect contents, indentSize_detect contents, quotes_detect contents,
    fun contents' h ↦ (detect_of_perm_sampled h).symm, fun h ↦ ?_⟩
  have hnone : contents.filter (· ≠ "") = [] := List.filter_eq_nil_iff.2 fun c hc ↦ by simp [h c hc]
  rw [detect, hnone]
  rfl

/-- Two lines begin with a tab and one with spaces, in whatever order the files come. -/
theorem detect_habits_tabs :
    (detect ["a\n\tb\n\tc", "", "'d'\n    e"]).indentation = .tabs ∧
      detect ["'d'\n    e", "a\n\tb\n\tc"] = detect ["a\n\tb\n\tc", "", "'d'\n    e"] ∧
      detect ["", ""] = standard := by
  obtain ⟨hindentation, -, -, horder, -⟩ := detect_habits ["a\n\tb\n\tc", "", "'d'\n    e"]
  obtain ⟨-, -, -, -, hstandard⟩ := detect_habits ["", ""]
  exact ⟨hindentation.trans (by decide), horder _ (by decide), hstandard (by decide)⟩

end Style

end ChangeContext
