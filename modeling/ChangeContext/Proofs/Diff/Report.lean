import ChangeContext.Proofs.Diff.Numbering
import ChangeContext.Proofs.Text.Digits
import ChangeContext.Proofs.Text.Lines
import ChangeContext.Report.Diff

/-!
# Reading a printed analysis

A hunk is printed line by line, its header first.  Each of these lines begins with a mark, so none of
them is empty, and none holds a line feed.  What follows the hunks begins with an empty line.  So the
printed lines of the hunks are the lines of the report up to the first that is empty, whatever the
texts hold that were compared (`takeWhile_splitOn_report`).

The first character of a printed line tells whether it is a header.  The header tells where the hunk
begins in both texts, and the mark in front of a line tells which texts have this line; so the numbers
of the lines need not be printed to be known (`Hunk.eq_of_printed_eq`).
-/

set_option autoImplicit false

namespace ChangeContext

namespace Diff

/-! ## Printed lines -/

/-- The character in front of a printed line of this kind. -/
def LineKind.mark : LineKind → Char
  | add => '+'
  | remove => '-'
  | unchanged => ' '

/-- A line as it is printed. -/
def Line.printed (l : Line) : List Char :=
  l.kind.mark :: l.content.toList

/-- The header of a hunk as it is printed. -/
def Hunk.printedHeader (h : Hunk) : List Char :=
  '@' :: '@' :: ' ' :: '-' :: (Nat.toDigits 10 h.oldStart ++ ',' :: (Nat.toDigits 10 h.oldLines ++
    ' ' :: '+' :: (Nat.toDigits 10 h.newStart ++ ',' :: (Nat.toDigits 10 h.newLines ++
      " @@".toList))))

/-- The lines that are printed for a hunk. -/
def Hunk.printed (h : Hunk) : List (List Char) :=
  h.printedHeader :: h.lines.map Line.printed

theorem LineKind.mark_injective : Function.Injective LineKind.mark := by
  intro k k' h
  cases k <;> cases k' <;> simp_all [LineKind.mark]

theorem Line.toList_report (l : Line) :
    (l.kind.sign ++ l.content ++ "\n").toList = l.printed ++ ['\n'] := by
  have hsign : l.kind.sign.toList = [l.kind.mark] := by cases l.kind <;> rfl
  rw [String.toList_append, String.toList_append, hsign]
  rfl

namespace Hunk

theorem toList_header (h : Hunk) : h.header.toList = h.printedHeader ++ ['\n'] := by
  have hnat (n : Nat) : (toString n).toList = Nat.toDigits 10 n := Nat.toList_repr
  simp only [header, String.toList_append, hnat, printedHeader, List.append_assoc,
    List.cons_append]
  rfl

theorem toList_report (h : Hunk) : h.report.toList = h.printed.flatMap (· ++ ['\n']) := by
  rw [report, String.toList_append, toList_header, String.toList_join, printed, List.flatMap_cons,
    List.flatMap_map, List.flatMap_map]
  simp only [Line.toList_report]

/-- **A printed header tells what the header says.** -/
theorem printedHeader_inj {h h' : Hunk} (heq : h.printedHeader = h'.printedHeader) :
    h.oldStart = h'.oldStart ∧ h.oldLines = h'.oldLines ∧ h.newStart = h'.newStart ∧
      h.newLines = h'.newLines := by
  have hstops {c : Char} (hc : c.isDigit = false) (rest : List Char) :
      Text.Stops Char.isDigit (c :: rest) := Text.stops_cons hc
  simp only [printedHeader, List.cons.injEq, true_and] at heq
  obtain ⟨hold, heq⟩ := Text.toDigits_append_inj (hstops rfl _) (hstops rfl _) heq
  obtain ⟨hcount, heq⟩ :=
    Text.toDigits_append_inj (hstops rfl _) (hstops rfl _) (List.cons.inj heq).2
  simp only [List.cons.injEq, true_and] at heq
  obtain ⟨hnew, heq⟩ := Text.toDigits_append_inj (hstops rfl _) (hstops rfl _) heq
  obtain ⟨hcount', -⟩ :=
    Text.toDigits_append_inj (hstops rfl _) (hstops rfl _) (List.cons.inj heq).2
  exact ⟨hold, hcount, hnew, hcount'⟩

theorem feed_notMem_printedHeader (h : Hunk) : '\n' ∉ h.printedHeader := by
  have hdigits (n : Nat) : '\n' ∉ Nat.toDigits 10 n := fun hmem ↦
    absurd (Text.isDigit_of_mem_toDigits hmem) (by decide)
  simp [printedHeader, hdigits]

end Hunk

/-! ## Lines and their numbers -/

/-- Lines are known by their marks, their contents and the numbers that they have in the texts. -/
theorem Line.eq_of_printed_eq {ls ls' : List Line} (h : ∀ l ∈ ls, l.Numbered)
    (h' : ∀ l ∈ ls', l.Numbered) (hprinted : ls.map printed = ls'.map printed)
    (hnumbers : ∀ s, ls.filterMap (·.numberOn? s) = ls'.filterMap (·.numberOn? s)) : ls = ls' := by
  induction ls generalizing ls' with
  | nil => exact (List.map_eq_nil_iff.1 hprinted.symm).symm
  | cons l ls ih =>
    cases ls' with
    | nil => simp at hprinted
    | cons l' ls' =>
      obtain ⟨hl, hls⟩ := List.forall_mem_cons.1 h
      obtain ⟨hl', hls'⟩ := List.forall_mem_cons.1 h'
      obtain ⟨hline, hrest⟩ := List.cons.inj hprinted
      obtain ⟨hmark, hcontent⟩ := List.cons.inj hline
      have hkind : l.kind = l'.kind := LineKind.mark_injective hmark
      have hhas (s : Side) : (l.numberOn? s).isSome = (l'.numberOn? s).isSome := by
        rw [hl.isSome_numberOn?, hl'.isSome_numberOn?]
        cases s <;> simp only [isOn, hkind]
      have hnumber (s : Side) : l.numberOn? s = l'.numberOn? s ∧
          ls.filterMap (·.numberOn? s) = ls'.filterMap (·.numberOn? s) := by
        have hs := hnumbers s
        have hhas := hhas s
        rw [List.filterMap_cons, List.filterMap_cons] at hs
        cases hn : l.numberOn? s <;> cases hn' : l'.numberOn? s <;> simp_all
      have hfirst : l = l' := by
        obtain ⟨kind, content, old?, new?⟩ := l
        obtain ⟨kind', content', old?', new?'⟩ := l'
        rw [Line.mk.injEq]
        exact ⟨hkind, String.toList_injective hcontent, (hnumber .old).1, (hnumber .new).1⟩
      rw [hfirst, ih hls hls' hrest fun s ↦ (hnumber s).2]

/-- **The printed lines of a hunk tell the hunk.** -/
theorem Hunk.eq_of_printed_eq {texts texts' : Side → List String} {h h' : Hunk}
    (hplaces : h.Places texts) (hplaces' : h'.Places texts') (heq : h.printed = h'.printed) :
    h = h' := by
  obtain ⟨hheader, hlines⟩ := List.cons.inj heq
  obtain ⟨hold, holdLines, hnew, hnewLines⟩ := printedHeader_inj hheader
  have hsame : h.lines = h'.lines := by
    refine Line.eq_of_printed_eq hplaces.numbered hplaces'.numbered hlines fun s ↦ ?_
    rw [hplaces.numbers, hplaces'.numbers]
    cases s
    · exact congrArg₂ List.range' hold holdLines
    · exact congrArg₂ List.range' hnew hnewLines
  cases h
  cases h'
  exact Hunk.mk.injEq .. ▸ ⟨hold, holdLines, hnew, hnewLines, hsame⟩

/-! ## All hunks -/

/-- A printed line is that of a hunk and not its header. -/
def isPrintedLine (line : List Char) : Bool :=
  line.head? != some '@'

theorem isPrintedLine_printed (l : Line) : isPrintedLine l.printed = true := by
  cases hkind : l.kind <;> simp [isPrintedLine, Line.printed, hkind, LineKind.mark]

/-- Where the next hunk begins, the lines of the one before it end. -/
theorem takeWhile_isPrintedLine (ls : List Line) (hs : List Hunk) :
    (ls.map Line.printed ++ hs.flatMap Hunk.printed).takeWhile isPrintedLine =
      ls.map Line.printed := by
  rw [List.takeWhile_append_of_pos (by simp [isPrintedLine_printed])]
  cases hs with
  | nil => simp
  | cons h hs => simp [Hunk.printed, isPrintedLine, Hunk.printedHeader]

/-- **The printed lines of hunks tell the hunks.** -/
theorem eq_of_flatMap_printed_eq {texts texts' : Side → List String} {hs hs' : List Hunk}
    (hplaces : ∀ h ∈ hs, h.Places texts) (hplaces' : ∀ h ∈ hs', h.Places texts')
    (heq : hs.flatMap Hunk.printed = hs'.flatMap Hunk.printed) : hs = hs' := by
  induction hs generalizing hs' with
  | nil =>
    cases hs' with
    | nil => rfl
    | cons h' hs' => simp [Hunk.printed] at heq
  | cons h hs ih =>
    cases hs' with
    | nil => simp [Hunk.printed] at heq
    | cons h' hs' =>
      obtain ⟨hh, hhs⟩ := List.forall_mem_cons.1 hplaces
      obtain ⟨hh', hhs'⟩ := List.forall_mem_cons.1 hplaces'
      rw [List.flatMap_cons, List.flatMap_cons, Hunk.printed, Hunk.printed, List.cons_append,
        List.cons_append] at heq
      obtain ⟨hheader, hrest⟩ := List.cons.inj heq
      have hlines : h.lines.map Line.printed = h'.lines.map Line.printed := by
        rw [← takeWhile_isPrintedLine h.lines hs, hrest, takeWhile_isPrintedLine]
      have hfirst : h = h' :=
        Hunk.eq_of_printed_eq hh hh' (by rw [Hunk.printed, Hunk.printed, hheader, hlines])
      subst hfirst
      rw [ih hhs hhs' (List.append_cancel_left hrest)]

/-! ## Reports -/

/-- Every line is one of the old text or of the new one. -/
theorem Line.exists_isOn (l : Line) : ∃ s, l.isOn s = true := by
  cases hkind : l.kind with
  | add => exact ⟨.new, by rw [isOn, hkind]; rfl⟩
  | remove => exact ⟨.old, by rw [isOn, hkind]; rfl⟩
  | unchanged => exact ⟨.old, by rw [isOn, hkind]; rfl⟩

/-- What a hunk says of a line stands in one of the texts, where it is one line. -/
theorem Hunk.Places.feed_notMem {old new : String} {h : Hunk}
    (hplaces : h.Places fun s ↦ Text.pieces (s.pick old new)) {l : Line} (hl : l ∈ h.lines) :
    '\n' ∉ l.content.toList := by
  obtain ⟨s, hs⟩ := l.exists_isOn
  rw [← (hplaces.numbered l hl).isSome_numberOn?] at hs
  obtain ⟨n, hn⟩ := Option.isSome_iff_exists.1 hs
  obtain ⟨k, -, hcontent⟩ := hplaces.content s l hl n hn
  exact Text.feed_notMem_of_mem_pieces (List.mem_of_getElem? hcontent)

theorem Hunk.Places.feed_notMem_printed {old new : String} {h : Hunk}
    (hplaces : h.Places fun s ↦ Text.pieces (s.pick old new)) :
    ∀ line ∈ h.printed, '\n' ∉ line ∧ line ≠ [] := by
  refine List.forall_mem_cons.2 ⟨⟨h.feed_notMem_printedHeader, List.cons_ne_nil _ _⟩, ?_⟩
  refine List.forall_mem_map.2 fun l hl ↦ ⟨?_, List.cons_ne_nil _ _⟩
  have hmark : '\n' ≠ l.kind.mark := by cases l.kind <;> decide
  exact List.not_mem_cons_of_ne_of_not_mem hmark (hplaces.feed_notMem hl)

/-- The section is left out, or an empty line stands in front of it. -/
def SetOff (s : String) : Prop :=
  s = "" ∨ s.toList.head? = some '\n'

theorem SetOff.head?_append {s : String} (h : SetOff s) {cs : List Char}
    (hcs : cs.head? = some '\n') : (s.toList ++ cs).head? = some '\n' := by
  rcases h with rfl | h
  · exact hcs
  · rw [List.head?_append, h, Option.some_or]

theorem setOff_semanticSection (changes : List SemanticChange) :
    SetOff (semanticSection changes) := by
  rw [semanticSection]
  split
  next => exact .inl rfl
  next => exact .inr (by rw [String.toList_append]; rfl)

theorem setOff_breakingSection (changes : List BreakingChange) :
    SetOff (breakingSection changes) := by
  rw [breakingSection]
  split
  next => exact .inl rfl
  next => exact .inr (by rw [String.toList_append]; rfl)

/-- **Behind the hunks stands an empty line.** -/
theorem Analysis.exists_toList_report_eq (a : Analysis) : ∃ rest, a.report.toList =
    (a.hunks.flatMap Hunk.printed).flatMap (· ++ ['\n']) ++ '\n' :: rest := by
  have hhunks : (String.join (a.hunks.map Hunk.report)).toList =
      (a.hunks.flatMap Hunk.printed).flatMap (· ++ ['\n']) := by
    rw [String.toList_join, List.flatMap_map, List.flatMap_assoc]
    simp only [Hunk.toList_report]
  have hsummary : (s!"\n{a.summary}\n").toList.head? = some '\n' := by
    rw [String.toList_append, String.toList_append]
    rfl
  obtain ⟨rest, hrest⟩ := List.head?_eq_some_iff.1 <|
    (setOff_semanticSection a.semanticChanges).head?_append
      ((setOff_breakingSection a.breakingChanges).head?_append hsummary)
  refine ⟨rest, ?_⟩
  rw [report, String.toList_append, String.toList_append, String.toList_append, hhunks,
    List.append_assoc, List.append_assoc, hrest]

namespace Analysis

/-- The hunks of an analysis tell where their lines stand. -/
theorem forall_hunks_places (old new : String) (path : Option Path) :
    ∀ h ∈ (ofTexts old new path).hunks, h.Places fun s ↦ Text.pieces (s.pick old new) := by
  have hhunks : (ofTexts old new path).hunks = (stretchesOf old new).map Stretch.hunk :=
    hunks_eq old new
  rw [hhunks]
  exact List.forall_mem_map.2 fun d hd ↦ Stretch.places hd

/-- **The lines of a report up to the first that is empty are those of the hunks.** -/
theorem takeWhile_splitOn_report (old new : String) (path : Option Path) :
    ((ofTexts old new path).report.toList.splitOn '\n').takeWhile (· ≠ []) =
      (ofTexts old new path).hunks.flatMap Hunk.printed := by
  obtain ⟨rest, hrest⟩ := (ofTexts old new path).exists_toList_report_eq
  have hlines : ∀ line ∈ (ofTexts old new path).hunks.flatMap Hunk.printed,
      '\n' ∉ line ∧ line ≠ [] := by
    intro line hline
    obtain ⟨h, hh, hline⟩ := List.mem_flatMap.1 hline
    exact (forall_hunks_places old new path h hh).feed_notMem_printed line hline
  have hempty : ('\n' :: rest).splitOn '\n' = [] :: rest.splitOn '\n' :=
    List.splitOn_append_cons_self_of_not_mem List.not_mem_nil rest
  rw [hrest, Text.splitOn_flatMap_feed fun line hline ↦ (hlines line hline).1, hempty,
    List.takeWhile_append_of_pos (by simpa using fun line hline ↦ (hlines line hline).2)]
  simp

/-- **A printed analysis tells its hunks.** -/
theorem hunks_eq_of_report_eq {old new old' new' : String} {path path' : Option Path}
    (h : (ofTexts old new path).report = (ofTexts old' new' path').report) :
    (ofTexts old new path).hunks = (ofTexts old' new' path').hunks := by
  have hprinted := takeWhile_splitOn_report old new path
  rw [h, takeWhile_splitOn_report] at hprinted
  exact eq_of_flatMap_printed_eq (forall_hunks_places old new path)
    (forall_hunks_places old' new' path') hprinted.symm

/-- A line that both texts have before the change is not printed, so the reports are the same. -/
theorem hunks_eq_of_report_eq_unprinted :
    (ofTexts "x\na" "x\nb" none).report = (ofTexts "y\na" "y\nb" (some ⟨"m.txt"⟩)).report ∧
      (ofTexts "x\na" "x\nb" none).hunks = (ofTexts "y\na" "y\nb" (some ⟨"m.txt"⟩)).hunks := by
  have hchanged (common old new : String) (hold : Text.pieces old = [common, "a"])
      (hnew : Text.pieces new = [common, "b"]) :
      Diff.hunks old new = [Hunk.ofLines 2 [.removed "a" 2, .added "b" 2]] := by
    rw [Diff.hunks, hold, hnew]
    simp [Hunk.between, Hunk.Draft.orOpen, Hunk.Draft.push, Hunk.Draft.close]
  have hx := hchanged "x" "x\na" "x\nb" (by decide +kernel) (by decide +kernel)
  have hy := hchanged "y" "y\na" "y\nb" (by decide +kernel) (by decide +kernel)
  have hreport : (ofTexts "x\na" "x\nb" none).report =
      (ofTexts "y\na" "y\nb" (some ⟨"m.txt"⟩)).report := by
    simp only [report, ofTexts, hx, hy]
    decide +kernel
  exact ⟨hreport, hunks_eq_of_report_eq hreport⟩

end Analysis

end Diff

end ChangeContext
